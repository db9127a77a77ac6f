import ShiftReduce.Proofs.Lexer.Anchoring
import ShiftReduce.Proofs.Lexer.Precedence

/-!
# The longest match

At the start of what is left of a text a literal can take its own characters, and a regular
expression can take one number of characters only: that of the match which it prefers.  The
branches of an alternation are preferred in their order and the rounds of a repetition as its
greed says, whatever their lengths.  So of all numbers of characters that a regular expression
describes it picks one, which need not be the greatest (`Lexer.first_branch_shorter`).

Among what the patterns of the visible rules pick, the match that is taken has the highest
priority and the greatest length (`Lexer.takes_longest_pick`).
-/

namespace ShiftReduce

section Library

variable [PatternLibrary] {V E : Type}

open PatternLibrary (Expression parse? find? Describes)

/-! ### What patterns pick -/

/-- A pattern picks a number of characters at the start of a text: a literal its own ones,
unless a word goes on behind them, and a regular expression the ones that it prefers. -/
def Pattern.Picks : Pattern → List Char → Nat → Prop
  | literal text, rest, n =>
    Matcher.startsWith text.toList rest = true ∧ text.toList.length = n
  | regex source, rest, n =>
    ∃ r, parse? source = some r ∧ find? r rest = some (0, n)

theorem Pattern.picks_regex_iff {source : String} {r : Expression} {n : Nat} {text : List Char}
    (h : parse? source = some r) :
  (regex source).Picks text n ↔ find? r text = some (0, n)
  := by simp [Picks, h]

/-- Of the numbers of characters that an expression describes a pattern picks one, if there are
any. -/
theorem Pattern.picks_one (hl : PatternLibrary.Lawful) {source : String} {r : Expression}
    (h : parse? source = some r) (text : List Char) :
  (∀ n, (regex source).Picks text n → Describes r text 0 n)
    ∧ (∀ n n', (regex source).Picks text n → (regex source).Picks text n' → n = n')
    ∧ ((∃ n, (regex source).Picks text n) ↔ ∃ n, Describes r text 0 n)
  := by
  simp only [picks_regex_iff h]
  have hdescribes (n : Nat) (hfind : find? r text = some (0, n)) : Describes r text 0 n :=
    hl.describes h hfind
  refine ⟨hdescribes, ?_, ?_⟩
  · intro n n' hfind hfind'
    cases hfind.symm.trans hfind'
    rfl
  · constructor
    · rintro ⟨n, hfind⟩
      exact ⟨n, hdescribes n hfind⟩
    · rintro ⟨n, hn⟩
      obtain ⟨k, l, hfind, hk⟩ := hl.leftmost h (Nat.zero_le _) hn
      obtain rfl := Nat.le_zero.mp hk
      exact ⟨l, hfind⟩

/-- The text of a regular expression stands for an expression by itself. -/
def Pattern.StandsAlone : Pattern → Prop
  | literal _ => True
  | regex source => ∃ r, parse? source = some r

/-- A rule matches what its pattern picks. -/
theorem CompiledRule.match?_iff_picks (hl : PatternLibrary.Lawful) {rule : CompiledRule V E}
    (halone : rule.pattern.StandsAlone) {text : List Char} {m : Match V E} :
  rule.match? text = some m ↔ m.rule = rule ∧ rule.pattern.Picks text m.length
  := by
  have hmatcher := rule.compiled
  rw [match?_eq_some_iff]
  apply and_congr_right
  intro
  cases hpattern : rule.pattern with
  | literal literal =>
      rw [hpattern] at hmatcher
      obtain ⟨-, hliteral⟩ := Matcher.ofPattern_literal_eq_ok_iff.mp hmatcher
      rw [hliteral]
      exact Matcher.length?_literal_eq_some_iff
  | regex source =>
      rw [hpattern] at hmatcher halone
      obtain ⟨r, h⟩ := halone
      rw [Matcher.length?_anchored_eq_some_iff hl h hmatcher, Pattern.picks_regex_iff h]
      exact and_iff_left m.positive

namespace Tokenization

variable {t : Tokenization V E} {text : List Char}

/-- The pattern of a visible rule picks a number of characters, and at least one. -/
structure Candidate (t : Tokenization V E) (text : List Char) (rule : CompiledRule V E) (n : Nat) :
    Prop where
  visible : rule ∈ t.visibleRules
  positive : 0 < n
  picks : rule.pattern.Picks text n

/-- A match is that of a candidate with the highest priority and, among those with this
priority, the greatest length. -/
structure Munches (t : Tokenization V E) (text : List Char) (m : Match V E) : Prop where
  candidate : t.Candidate text m.rule m.length
  priority {rule : CompiledRule V E} {n : Nat} (h : t.Candidate text rule n) :
    rule.priority ≤ m.rule.priority
  length {rule : CompiledRule V E} {n : Nat} (h : t.Candidate text rule n)
    (hpriority : rule.priority = m.rule.priority) : n ≤ m.length

/-- The slots offer the matches of the visible rules. -/
theorem exists_offers_iff {m : Match V E} :
  (∃ k, t.Offers text k m) ↔ ∃ rule ∈ t.visibleRules, rule.match? text = some m
  := by
  constructor
  · rintro ⟨k, occupant, hslot, hvisible, hmatch⟩
    refine ⟨occupant.value, List.mem_filter.mpr ⟨?_, hvisible⟩, hmatch⟩
    exact List.mem_filterMap.mpr ⟨some occupant, List.mem_of_getElem? hslot, rfl⟩
  · rintro ⟨rule, hrule, hmatch⟩
    obtain ⟨hvalue, hvisible⟩ := List.mem_filter.mp hrule
    obtain ⟨slot, hslot, heq⟩ := List.mem_filterMap.mp hvalue
    obtain ⟨occupant, rfl, rfl⟩ := Option.map_eq_some_iff.mp heq
    obtain ⟨k, hk⟩ := List.getElem?_of_mem hslot
    exact ⟨k, occupant, hk, hvisible, hmatch⟩

/-- The regular expressions of the visible rules stand for expressions by themselves. -/
def StandsAlone (t : Tokenization V E) : Prop :=
  ∀ rule ∈ t.visibleRules, rule.pattern.StandsAlone

variable (hl : PatternLibrary.Lawful) (ht : t.StandsAlone)

include hl ht

/-- What the slots offer are the candidates. -/
theorem candidate_iff {rule : CompiledRule V E} {n : Nat} :
  t.Candidate text rule n ↔ ∃ k m, t.Offers text k m ∧ m.rule = rule ∧ m.length = n
  := by
  constructor
  · rintro ⟨hvisible, hpositive, hpicks⟩
    have hmatch : rule.match? text = some ⟨rule, n, hpositive⟩ :=
      (CompiledRule.match?_iff_picks hl (ht rule hvisible)).mpr ⟨rfl, hpicks⟩
    obtain ⟨k, hoffers⟩ := exists_offers_iff.mpr ⟨rule, hvisible, hmatch⟩
    exact ⟨k, _, hoffers, rfl, rfl⟩
  · rintro ⟨k, m, hoffers, rfl, rfl⟩
    obtain ⟨rule, hvisible, hmatch⟩ := exists_offers_iff.mp ⟨k, hoffers⟩
    obtain ⟨rfl, hpicks⟩ := (CompiledRule.match?_iff_picks hl (ht rule hvisible)).mp hmatch
    exact ⟨hvisible, m.positive, hpicks⟩

/-- The match that is taken is that of the preferred candidate. -/
theorem munches_of_match? {m : Match V E} (h : t.match? text = some m) :
  t.Munches text m
  := by
  obtain ⟨k, hselects⟩ := match?_eq_some_iff.mp h
  constructor
  · exact (candidate_iff hl ht).mpr ⟨k, m, hselects.offers, rfl, rfl⟩
  · intro rule n hcandidate
    obtain ⟨k', m', hoffers, rfl, rfl⟩ := (candidate_iff hl ht).mp hcandidate
    exact hselects.priority hoffers
  · intro rule n hcandidate hpriority
    obtain ⟨k', m', hoffers, rfl, rfl⟩ := (candidate_iff hl ht).mp hcandidate
    exact hselects.length hoffers hpriority

/-- Where there is no match there is no candidate. -/
theorem not_candidate_of_match? (h : t.match? text = none) (rule : CompiledRule V E) (n : Nat) :
  ¬ t.Candidate text rule n
  := by
  intro hcandidate
  obtain ⟨k, m, hoffers, -, -⟩ := (candidate_iff hl ht).mp hcandidate
  exact match?_eq_none_iff.mp h k m hoffers

end Tokenization

/-! ### Tokenizations without reactions -/

namespace Lexer

variable {rules : List (LexRule V E)} {lexer : Lexer V E}

/-- The rules of a lexer are the given ones. -/
theorem toLexRule_mem (h : ofRules rules = .ok lexer) {rule : CompiledRule V E}
    (hmem : rule ∈ lexer.rules) :
  rule.toLexRule ∈ rules
  := by
  rw [← ofRules_eq_ok_iff.mp h]
  exact List.mem_map_of_mem hmem

/-- A lexer starts with its rules. -/
theorem visibleRules_start_subset (lexer : Lexer V E) :
  lexer.start.visibleRules ⊆ lexer.rules
  := by
  rw [start, Tokenization.visibleRules_initial]
  exact List.filter_sublist.subset

/-- A match that is taken at the start is by a rule of the lexer. -/
theorem rule_mem_of_match? {text : List Char} {m : Match V E}
    (h : lexer.start.match? text = some m) :
  m.rule ∈ lexer.rules
  := by
  obtain ⟨rule, hrule, hmatch⟩ := Tokenization.exists_rule_of_match? h
  rw [(CompiledRule.match?_eq_some_iff.mp hmatch).1]
  exact visibleRules_start_subset lexer hrule

/-- Without reactions a tokenization stays as it was at the start. -/
theorem tokenization_of_reads (hreaction : ∀ rule ∈ lexer.rules, rule.reaction = none)
    {p q : Progress V E} {pieces : List (Piece V E)} (hp : p.tokenization = lexer.start)
    (h : p.Reads pieces q) :
  q.tokenization = lexer.start
  := by
  induction h with
  | nothing => exact hp
  | @more p q r piece pieces first later ih =>
      apply ih
      cases first with
      | @piece m outcome lexemes hrest hmatch houtcome hemitted =>
          rw [hp] at hmatch
          have hnone := hreaction m.rule (rule_mem_of_match? hmatch)
          rw [Progress.beyond, Progress.reacted_of_reaction hnone]
          exact hp

/-- Without reactions a round fails only if there is no match. -/
theorem match?_eq_none_of_fails (hreaction : ∀ rule ∈ lexer.rules, rule.reaction = none)
    {p : Progress V E} (hp : p.tokenization = lexer.start) {e : LexError} (h : p.Fails e) :
  e = .noMatch p.offset defaultState ∧ lexer.start.match? p.rest = none
  := by
  have hreacted {m : Match V E} (hmatch : p.tokenization.match? p.rest = some m) :
      (p.reacted m).outcome = .ok .emit := by
    rw [hp] at hmatch
    rw [Progress.reacted_of_reaction (hreaction m.rule (rule_mem_of_match? hmatch))]
  cases h with
  | noMatch hrest hmatch =>
      rw [hp] at hmatch ⊢
      exact ⟨rfl, hmatch⟩
  | reaction hrest hmatch houtcome =>
      rw [hreacted hmatch] at houtcome
      cases houtcome
  | @reserved m outcome lexeme hrest hmatch houtcome hlexeme hreserved =>
      rw [hreacted hmatch] at houtcome
      cases houtcome
      -- the symbol is that of a rule, and no rule has a reserved one
      obtain ⟨symbol, hsymbol, rfl⟩ := Option.map_eq_some_iff.mp hlexeme
      rw [CompiledRule.isReserved_eq_false hsymbol] at hreserved
      cases hreserved

/-- Without reactions, and if all regular expressions stand for expressions by themselves, a
match that is taken has the highest priority and, within this priority, the greatest length of
all that the patterns of visible rules pick, and a round fails only if they pick nothing.  The
lexemes, or the error, come of such rounds.  Of what a regular expression describes it picks one
number of characters, if there are any. -/
theorem takes_longest_pick (hl : PatternLibrary.Lawful) (hlexer : ofRules rules = .ok lexer)
    (hreaction : ∀ rule ∈ rules, rule.reaction = none)
    (halone : ∀ rule ∈ rules, rule.pattern.StandsAlone) (text : String) (earlier : List E) :
  (∀ pieces p, (lexer.first text earlier).Reads pieces p →
      (∀ piece q, p.Takes piece q → lexer.start.Munches p.rest piece.made)
        ∧ ∀ e, p.Fails e → e = .noMatch p.offset defaultState
          ∧ ∀ rule n, ¬ lexer.start.Candidate p.rest rule n)
    ∧ (∃ pieces last, (lexer.first text earlier).Reads pieces last
      ∧ (last.rest = [] ∧ (lexer.tokenize text earlier).lexemes =
          .ok (pieces.filterMap Piece.lexeme? ++ [.endOfInput last.offset])
        ∨ ∃ e, last.Fails e ∧ (lexer.tokenize text earlier).lexemes = .error e))
    ∧ ∀ rule ∈ rules, ∀ source, rule.pattern = .regex source →
      ∀ r, parse? source = some r → ∀ rest,
        (∀ n, rule.pattern.Picks rest n → Describes r rest 0 n)
          ∧ (∀ n n', rule.pattern.Picks rest n → rule.pattern.Picks rest n' → n = n')
          ∧ ((∃ n, rule.pattern.Picks rest n) ↔ ∃ n, Describes r rest 0 n)
  := by
  have hreaction' : ∀ rule ∈ lexer.rules, rule.reaction = none :=
    fun rule hrule => hreaction _ (toLexRule_mem hlexer hrule)
  have halone' : lexer.start.StandsAlone :=
    fun rule hrule => halone _ (toLexRule_mem hlexer (visibleRules_start_subset lexer hrule))
  refine ⟨?_, ?_, ?_⟩
  · intro pieces p hreads
    have hp := tokenization_of_reads hreaction' rfl hreads
    constructor
    · rintro piece q ⟨hrest, hmatch, houtcome, hemitted⟩
      rw [hp] at hmatch
      exact Tokenization.munches_of_match? hl halone' hmatch
    · intro e hfails
      obtain ⟨he, hmatch⟩ := match?_eq_none_of_fails hreaction' hp hfails
      exact ⟨he, Tokenization.not_candidate_of_match? hl halone' hmatch⟩
  · exact (lexer.first text earlier).exists_reads
  · intro rule hrule source hpattern r h rest
    rw [hpattern]
    exact Pattern.picks_one hl h rest

end Lexer

end Library

namespace Lexer

open PatternLibrary (Expression parse? find? Describes)

/-! ### Rules that compete -/

/-- A rule for a sign, which is preferred to rules without priority. -/
def plus : CompiledRule Unit Unit :=
  { literalRule (.label "PLUS") "+" with
    priority := 1, matcher := .literal "+", unreserved := rfl, compiled := rfl }

/-- A rule for two signs, which has the same priority. -/
def increment : CompiledRule Unit Unit :=
  { literalRule (.label "INCR") "++" with
    priority := 1, matcher := .literal "++", unreserved := rfl, compiled := rfl }

/-- Rules that compete for signs: the two above, and one for signs and letters. -/
def competing : List (LexRule Unit Unit) :=
  [plus.toLexRule, increment.toLexRule, LexRule.ofRegex (.label "NAME") "[+a]+"]

section Competing

variable {name : CompiledRule Unit Unit}

/-- A lexer with a rule ready for use for signs and letters. -/
def competingLexer (name : CompiledRule Unit Unit) : Lexer Unit Unit :=
  { rules := [plus, increment, name] }

variable (hname : name.toLexRule = LexRule.ofRegex (.label "NAME") "[+a]+")

include hname

theorem ofRules_competing :
  ofRules competing = .ok (competingLexer name)
  := by
  rw [ofRules_eq_ok_iff, competing, ← hname]
  rfl

theorem match?_competing (text : List Char) :
  (competingLexer name).start.match? text
    = Match.best? ([plus, increment, name].filterMap fun rule => rule.match? text)
  := by
  apply Tokenization.match?_initial
  rw [competingLexer, List.forall_mem_cons, List.forall_mem_cons, List.forall_mem_singleton, hname]
  exact ⟨rfl, rfl, rfl⟩

/-- The rule for signs and letters matches what is found for it. -/
theorem match?_name {r : Expression} (hparse : parse? "[+a]+" = some r) {text : List Char} {n : Nat}
    (hn : 0 < n) (hfind : find? r text = some (0, n)) :
  name.match? text = some ⟨name, n, hn⟩
  := by
  have hpattern : name.pattern = .regex "[+a]+" := congrArg LexRule.pattern hname
  have halone : name.pattern.StandsAlone := by
    rw [hpattern]
    exact ⟨r, hparse⟩
  apply (CompiledRule.match?_iff_picks Regex.library_lawful halone).mpr
  rw [hpattern, Pattern.picks_regex_iff hparse]
  exact ⟨rfl, hfind⟩

/-- Two signs are preferred to one, and to a longer match with a lower priority. -/
theorem match?_two_signs (hmatch : name.match? "+++a".toList = some ⟨name, 4, Nat.succ_pos 3⟩) :
  (competingLexer name).start.match? "+++a".toList = some ⟨increment, 2, Nat.succ_pos 1⟩
  := by
  have hpriority : name.priority = 0 := congrArg LexRule.priority hname
  have hplus : plus.match? "+++a".toList = some ⟨plus, 1, Nat.one_pos⟩ := rfl
  have hincrement : increment.match? "+++a".toList = some ⟨increment, 2, Nat.succ_pos 1⟩ := rfl
  simp only [match?_competing hname, List.filterMap_cons, hplus, hincrement, hmatch]
  simp [Match.best?, Match.prefer, Match.beats, hpriority, plus, increment]

/-- So is the last sign. -/
theorem match?_last_sign (hmatch : name.match? "+a".toList = some ⟨name, 2, Nat.succ_pos 1⟩) :
  (competingLexer name).start.match? "+a".toList = some ⟨plus, 1, Nat.one_pos⟩
  := by
  have hpriority : name.priority = 0 := congrArg LexRule.priority hname
  have hplus : plus.match? "+a".toList = some ⟨plus, 1, Nat.one_pos⟩ := rfl
  have hincrement : increment.match? "+a".toList = none := rfl
  simp only [match?_competing hname, List.filterMap_cons, hplus, hincrement, hmatch]
  simp [Match.best?, Match.prefer, Match.beats, hpriority, plus]

theorem match?_letter (hmatch : name.match? "a".toList = some ⟨name, 1, Nat.one_pos⟩) :
  (competingLexer name).start.match? "a".toList = some ⟨name, 1, Nat.one_pos⟩
  := by
  have hplus : plus.match? "a".toList = none := rfl
  have hincrement : increment.match? "a".toList = none := rfl
  simp only [match?_competing hname, List.filterMap_cons, hplus, hincrement, hmatch]
  rfl

end Competing

/-- Of a letter and the signs before it, the signs are taken first, since their rules have the
higher priority, and two of them as long as there are so many.  What remains is the letter. -/
theorem takes_longest_pick_competing :
  ∃ (lexer : Lexer Unit Unit) (pieces : List (Piece Unit Unit)) (last : Progress Unit Unit),
    ofRules competing = .ok lexer
      ∧ (lexer.first "+++a" []).Reads pieces last ∧ last.rest = []
      ∧ pieces.map (fun piece => (piece.made.rule.symbol, piece.text))
        = [(some (.label "INCR"), "++"), (some (.label "PLUS"), "+"), (some (.label "NAME"), "a")]
      ∧ ∀ before piece after, pieces = before ++ piece :: after →
        ∃ p, (lexer.first "+++a" []).Reads before p ∧ lexer.start.Munches p.rest piece.made
  := by
  have hfind : (parse? "[+a]+").map (fun r =>
      (find? r "+++a".toList, find? r "+a".toList, find? r "a".toList))
        = some (some (0, 4), some (0, 2), some (0, 1)) := by cbv
  obtain ⟨r, hparse, hfind⟩ := Option.map_eq_some_iff.mp hfind
  simp only [Prod.mk.injEq] at hfind
  obtain ⟨hfirst, hsecond, hthird⟩ := hfind
  obtain ⟨name, hname⟩ := LexRule.exists_compiled_ofRegex (V := Unit) (E := Unit)
    (show (Symbol.label "NAME").isReserved = false from rfl) "[+a]+" (by cbv)
  have hsigns := match?_two_signs hname (match?_name hname hparse _ hfirst)
  have hsign := match?_last_sign hname (match?_name hname hparse _ hsecond)
  have hletter := match?_letter hname (match?_name hname hparse _ hthird)
  have hreads : ((competingLexer name).first "+++a" []).Reads _
      ⟨(competingLexer name).start, [], 4, []⟩ :=
    .more (Progress.takes_of_reaction (List.cons_ne_nil _ _) hsigns rfl)
      (.more (Progress.takes_of_reaction (List.cons_ne_nil _ _) hsign rfl)
        (.more (Progress.takes_of_reaction (List.cons_ne_nil _ _) hletter
            (congrArg LexRule.reaction hname))
          (.nothing _)))
  have hreaction : ∀ rule ∈ competing, rule.reaction = none := by
    rw [competing, List.forall_mem_cons, List.forall_mem_cons, List.forall_mem_singleton]
    exact ⟨rfl, rfl, rfl⟩
  have halone : ∀ rule ∈ competing, rule.pattern.StandsAlone := by
    rw [competing, List.forall_mem_cons, List.forall_mem_cons, List.forall_mem_singleton]
    exact ⟨trivial, trivial, r, hparse⟩
  have hlexer := ofRules_competing hname
  obtain ⟨hrounds, -⟩ :=
    takes_longest_pick Regex.library_lawful hlexer hreaction halone "+++a" []
  refine ⟨competingLexer name, _, _, hlexer, hreads, rfl, ?_, ?_⟩
  · have hsymbol : name.symbol = some (.label "NAME") := congrArg LexRule.symbol hname
    simp only [List.map_cons, hsymbol]
    rfl
  · intro before piece after heq
    rw [heq] at hreads
    obtain ⟨p, q, hbefore, htakes, -⟩ := hreads.split
    exact ⟨p, hbefore, (hrounds before p hbefore).1 piece q htakes⟩

/-! ### Branches in their order -/

/-- A letter, or this letter and another one. -/
def shorterFirst : Regex :=
  .either (.set (CharSet.single 'a'))
    (.sequence (.set (CharSet.single 'a')) (.set (CharSet.single 'b')))

/-- A rule for this expression matches what is found for it. -/
theorem match?_shorterFirst {rule : CompiledRule Unit Unit}
    (hpattern : rule.pattern = .regex "a|ab") (hparse : parse? "a|ab" = some (shorterFirst, 2))
    {text : List Char} {m : Match Unit Unit} :
  rule.match? text = some m
    ↔ m.rule = rule ∧ find? (shorterFirst, 2) text = some (0, m.length)
  := by
  have halone : rule.pattern.StandsAlone := by
    rw [hpattern]
    exact ⟨_, hparse⟩
  rw [CompiledRule.match?_iff_picks Regex.library_lawful halone, hpattern,
    Pattern.picks_regex_iff hparse]

/-- Where a match without a reaction is taken first and nothing matches what is left, the
tokenization fails there. -/
theorem lexemes_of_takes {lexer : Lexer Unit Unit} {text : String} {piece : Piece Unit Unit}
    {p : Progress Unit Unit} (hfirst : (lexer.first text []).Takes piece p) (hrest : p.rest ≠ [])
    (hnone : p.tokenization.match? p.rest = none) :
  (lexer.tokenize text).lexemes = .error (.noMatch p.offset p.tokenization.states.current)
  := by
  have hsecond : p.Fails (.noMatch p.offset p.tokenization.states.current) := .noMatch hrest hnone
  have hfinished := hfirst.finished
  rw [hsecond.finished] at hfinished
  exact hfinished

/-- The expression describes both characters of the text, and the only rule is visible, but the
match that is taken has the first character only, and nothing matches the second one. -/
theorem first_branch_shorter :
  ∃ (lexer : Lexer Unit Unit) (r : PatternLibrary.Expression) (m : Match Unit Unit),
    ofRules [LexRule.ofRegex (.label "T") "a|ab"] = .ok lexer
      ∧ parse? "a|ab" = some r ∧ Describes r ['a', 'b'] 0 2
      ∧ m.rule ∈ lexer.start.visibleRules ∧ m.rule.pattern = .regex "a|ab" ∧ m.length = 1
      ∧ lexer.start.match? ['a', 'b'] = some m
      ∧ (lexer.tokenize "ab").lexemes = .error (.noMatch 1 defaultState)
  := by
  have hparse : parse? "a|ab" = some (shorterFirst, 2) := by cbv
  have hdescribes : Describes (shorterFirst, 2) ['a', 'b'] 0 2 :=
    .inr ⟨1, ⟨⟨'a', rfl, rfl⟩, rfl⟩, ⟨'b', rfl, rfl⟩, rfl⟩
  obtain ⟨rule, hrule⟩ := LexRule.exists_compiled_ofRegex (V := Unit) (E := Unit)
    (show (Symbol.label "T").isReserved = false from rfl) "a|ab" (by cbv)
  have hpattern : rule.pattern = .regex "a|ab" := congrArg LexRule.pattern hrule
  let lexer : Lexer Unit Unit := { rules := [rule] }
  let m : Match Unit Unit := ⟨rule, 1, Nat.one_pos⟩
  have hdefault : ∀ rule ∈ lexer.rules, rule.belongsTo defaultState = true := by
    rw [List.forall_mem_singleton, hrule]
    rfl
  have hvisible : lexer.start.visibleRules = [rule] := by
    rw [start, Tokenization.visibleRules_initial, List.filter_eq_self.mpr hdefault]
  have hmatch : lexer.start.match? ['a', 'b'] = some m := by
    have hfirst : rule.match? ['a', 'b'] = some m :=
      (match?_shorterFirst hpattern hparse).mpr ⟨rfl, by cbv⟩
    simp only [Tokenization.match?, hvisible, List.filterMap_cons, hfirst]
    rfl
  have hnone : lexer.start.match? ['b'] = none := by
    have hsecond : rule.match? ['b'] = none := by
      rw [Option.eq_none_iff_forall_ne_some]
      intro m hm
      have hfind : find? (shorterFirst, 2) ['b'] = none := by cbv
      cases hfind.symm.trans ((match?_shorterFirst hpattern hparse).mp hm).2
    simp only [Tokenization.match?, hvisible, List.filterMap_cons, hsecond]
    rfl
  have hreaction : m.rule.reaction = none := congrArg LexRule.reaction hrule
  have hfirst : (lexer.first "ab" []).Takes _ ⟨lexer.start, [], 1, ['b']⟩ :=
    Progress.takes_of_reaction (List.cons_ne_nil _ _) hmatch hreaction
  exact ⟨lexer, _, m, ofRules_eq_ok_iff.mpr (congrArg (· :: []) hrule), hparse, hdescribes,
    hvisible ▸ List.mem_singleton_self rule, hpattern, rfl, hmatch,
    lexemes_of_takes hfirst (List.cons_ne_nil _ _) hnone⟩

end Lexer

end ShiftReduce
