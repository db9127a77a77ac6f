import Mathlib
import ShiftReduce.Lexer.Basic
import ShiftReduce.Proofs.Regex.Library

/-!
# Tokenizations cover the text piece by piece

A tokenization goes through a text in rounds.  Each round that is completed takes a piece
from the start of what is left: as many characters as the preferred match has, and at least
one.  The rounds end when nothing is left, or when there is no match, or when the reaction
to a match gives up or asks for a reserved symbol.  So the pieces that were taken lie next
to one another from the start of the text on, and the lexemes come from them.
-/

namespace ShiftReduce

section Library

variable [PatternLibrary] {V E : Type}

/-! ### Matches lie within the text -/

/-- A matcher matches no more than there is. -/
theorem Matcher.length?_le (hl : PatternLibrary.Lawful) {pattern : Pattern} {matcher : Matcher}
    (h : ofPattern pattern = .ok matcher) {text : List Char} {length : Nat}
    (hlength : matcher.length? text = some length) :
  length ≤ text.length
  := by
  cases pattern with
  | literal literal =>
    obtain ⟨-, rfl⟩ := ofPattern_literal_eq_ok_iff.mp h
    obtain ⟨hstarts, rfl⟩ := length?_literal_eq_some_iff.mp hlength
    have hprefix : literal.toList.isPrefixOf text = true := (Bool.and_eq_true_iff.mp hstarts).1
    exact (List.isPrefixOf_iff_prefix.mp hprefix).length_le
  | regex source =>
    obtain ⟨expression, hread, rfl⟩ := ofPattern_regex_eq_ok_iff.mp h
    obtain ⟨⟨start, hfind⟩, -⟩ := length?_regex_eq_some_iff.mp hlength
    exact (hl.range (PatternLibrary.read?_eq_some_iff.mp hread).1 hfind).2

namespace Match

/-- The preferred match is one of the candidates. -/
theorem mem_of_foldl_prefer {candidates : List (Match V E)} {earlier : Option (Match V E)}
    {m : Match V E} (h : candidates.foldl prefer earlier = some m) :
  m ∈ earlier ∨ m ∈ candidates
  := by
  induction candidates generalizing earlier with
  | nil => exact .inl h
  | cons candidate candidates ih =>
    rcases ih h with hprefer | hlater
    · unfold prefer at hprefer
      split at hprefer
      · simp_all
      · split at hprefer <;> simp_all
    · exact .inr (List.mem_cons_of_mem _ hlater)

end Match

namespace Tokenization

/-- The preferred match is one by a visible rule. -/
theorem exists_rule_of_match? {t : Tokenization V E} {text : List Char} {m : Match V E}
    (h : t.match? text = some m) :
  ∃ rule ∈ t.visibleRules, rule.match? text = some m
  := by
  rcases Match.mem_of_foldl_prefer h with hnone | hmem
  · cases hnone
  · exact List.mem_filterMap.mp hmem

/-- The preferred match lies within the text. -/
theorem match?_le (hl : PatternLibrary.Lawful) {t : Tokenization V E} {text : List Char}
    {m : Match V E} (h : t.match? text = some m) :
  m.length ≤ text.length
  := by
  obtain ⟨rule, -, hrule⟩ := exists_rule_of_match? h
  exact Matcher.length?_le hl rule.compiled (CompiledRule.match?_eq_some_iff.mp hrule).2

/-- At first the rules of the default state are visible. -/
theorem visibleRules_initial (rules : List (CompiledRule V E)) (exclusive : List String) :
  (initial rules exclusive).visibleRules = rules.filter fun rule => rule.belongsTo defaultState
  := by
  rw [visibleRules, initial, Slots.values_ofList]
  simp [isVisible, inherits, StateStack.initial]

/-- At first, if all rules belong to the default state, the match is the preferred one of theirs. -/
theorem match?_initial {rules : List (CompiledRule V E)}
    (h : ∀ rule ∈ rules, rule.belongsTo defaultState = true) (exclusive : List String)
    (text : List Char) :
  (initial rules exclusive).match? text = Match.best? (rules.filterMap fun rule => rule.match? text)
  := by rw [match?, visibleRules_initial, List.filter_eq_self.mpr h]

end Tokenization

/-- The symbol of a compiled rule is not reserved. -/
theorem CompiledRule.isReserved_eq_false {rule : CompiledRule V E} {symbol : Symbol}
    (hsymbol : rule.symbol = some symbol) :
  symbol.isReserved = false
  := by simpa using Option.filter_eq_none_iff.mp rule.unreserved symbol hsymbol

/-! ### Rounds -/

/-- A piece of the text that a round has taken: the bytes before it, the match, its text, and
the outcome of the reaction to it. -/
structure Piece (V E : Type) where
  offset : Nat
  made : Match V E
  text : String
  outcome : Outcome V

/-- Whether an outcome puts a lexeme of its own in place of the match. -/
def Outcome.isReplacement : Outcome V → Bool
  | replace _ => true
  | _ => false

/-- The lexeme that becomes of a piece, if any. -/
def Piece.lexeme? (piece : Piece V E) : Option (Lexeme V) :=
  piece.outcome.lexeme? piece.made.rule.symbol piece.text piece.offset

/-- A tokenization on its way through a text: the events that have been reported, the bytes
before, and what is left. -/
structure Progress (V E : Type) where
  tokenization : Tokenization V E
  events : List E
  offset : Nat
  rest : List Char

namespace Progress

/-- The text of a match at the start of what is left. -/
def matched (p : Progress V E) (m : Match V E) : String :=
  String.ofList (p.rest.take m.length)

/-- What comes of the reaction to a match at the start of what is left. -/
def reacted (p : Progress V E) (m : Match V E) : Reacted V E :=
  p.tokenization.reactTo p.events m (p.matched m)

/-- The progress after the piece of a match has been taken. -/
def beyond (p : Progress V E) (m : Match V E) : Progress V E :=
  ⟨(p.reacted m).after, (p.reacted m).events, p.offset + (p.matched m).utf8ByteSize,
    p.rest.drop m.length⟩

/-- A round that is completed takes a piece. -/
inductive Takes (p : Progress V E) : Piece V E → Progress V E → Prop where
  | piece {m : Match V E} {outcome : Outcome V} {lexemes : List (Lexeme V)}
      (hrest : p.rest ≠ []) (hmatch : p.tokenization.match? p.rest = some m)
      (houtcome : (p.reacted m).outcome = .ok outcome)
      (hemitted : Tokenization.emitted m (p.matched m) p.offset outcome = .ok lexemes) :
      Takes p ⟨p.offset, m, p.matched m, outcome⟩ (p.beyond m)

/-- A round that fails. -/
inductive Fails (p : Progress V E) : LexError → Prop where
  | noMatch (hrest : p.rest ≠ []) (hmatch : p.tokenization.match? p.rest = none) :
      Fails p (.noMatch p.offset p.tokenization.states.current)
  | reaction {m : Match V E} {message : String} (hrest : p.rest ≠ [])
      (hmatch : p.tokenization.match? p.rest = some m)
      (houtcome : (p.reacted m).outcome = .error message) :
      Fails p (.reaction p.offset message)
  | reserved {m : Match V E} {outcome : Outcome V} {lexeme : Lexeme V} (hrest : p.rest ≠ [])
      (hmatch : p.tokenization.match? p.rest = some m)
      (houtcome : (p.reacted m).outcome = .ok outcome)
      (hlexeme : outcome.lexeme? m.rule.symbol (p.matched m) p.offset = some lexeme)
      (hreserved : lexeme.symbol.isReserved = true) :
      Fails p (.reservedSymbol p.offset lexeme.symbol)

/-- Some rounds that are completed, one after the other. -/
inductive Reads : Progress V E → List (Piece V E) → Progress V E → Prop where
  | nothing (p : Progress V E) : Reads p [] p
  | more {p q r : Progress V E} {piece : Piece V E} {pieces : List (Piece V E)}
      (first : Takes p piece q) (later : Reads q pieces r) : Reads p (piece :: pieces) r

theorem reacted_of_reaction {p : Progress V E} {m : Match V E} (h : m.rule.reaction = none) :
  p.reacted m = ⟨p.events, p.tokenization, .ok .emit⟩
  := by rw [reacted, Tokenization.reactTo, h]

/-- A match by a rule without a reaction is emitted. -/
theorem takes_of_reaction {p : Progress V E} {m : Match V E} (hrest : p.rest ≠ [])
    (hmatch : p.tokenization.match? p.rest = some m) (hreaction : m.rule.reaction = none) :
  Takes p ⟨p.offset, m, p.matched m, .emit⟩
    ⟨p.tokenization, p.events, p.offset + (p.matched m).utf8ByteSize, p.rest.drop m.length⟩
  := by
  have hreacted := reacted_of_reaction (p := p) hreaction
  have hemitted : ∃ lexemes, Tokenization.emitted m (p.matched m) p.offset .emit = .ok lexemes := by
    rw [Tokenization.emitted, Outcome.lexeme?]
    cases hsymbol : m.rule.symbol with
    | none => exact ⟨_, rfl⟩
    | some symbol =>
        have hreserved := CompiledRule.isReserved_eq_false hsymbol
        exact ⟨_, if_neg (Bool.eq_false_iff.mp hreserved)⟩
  obtain ⟨lexemes, hemitted⟩ := hemitted
  have htakes := Takes.piece hrest hmatch (congrArg Reacted.outcome hreacted) hemitted
  rwa [beyond, hreacted] at htakes

/-! ### What a round takes -/

namespace Takes

variable {p q : Progress V E} {piece : Piece V E}

/-- A round takes its piece from the start of what is left. -/
theorem rest (h : Takes p piece q) :
  p.rest = piece.text.toList ++ q.rest
  := by
  cases h
  simp [matched, beyond]

/-- A round goes on by the bytes of its piece. -/
theorem offset (h : Takes p piece q) :
  piece.offset = p.offset ∧ q.offset = p.offset + piece.text.utf8ByteSize
  := by
  cases h
  exact ⟨rfl, rfl⟩

/-- A piece has at least one character. -/
theorem text_ne_empty (h : Takes p piece q) :
  piece.text ≠ ""
  := by
  cases h with
  | @piece m outcome lexemes hrest hmatch houtcome hemitted =>
    have hpositive := m.positive
    simp only [matched, ne_eq, String.ofList_eq_empty_iff, List.take_eq_nil_iff, hrest, or_false]
    omega

/-- A piece has as many characters as its match. -/
theorem length (hl : PatternLibrary.Lawful) (h : Takes p piece q) :
  piece.text.length = piece.made.length
  := by
  cases h with
  | @piece m outcome lexemes hrest hmatch houtcome hemitted =>
    simp [matched, Tokenization.match?_le hl hmatch]

/-- The lexeme of a piece has no reserved symbol. -/
theorem not_isReserved (h : Takes p piece q) {lexeme : Lexeme V}
    (hlexeme : piece.lexeme? = some lexeme) :
  lexeme.symbol.isReserved = false
  := by
  cases h with
  | @piece m outcome lexemes hrest hmatch houtcome hemitted =>
    have hlexeme' : outcome.lexeme? m.rule.symbol (p.matched m) p.offset = some lexeme := hlexeme
    unfold Tokenization.emitted at hemitted
    rw [hlexeme'] at hemitted
    cases hreserved : lexeme.symbol.isReserved with
    | false => rfl
    | true => simp [hreserved] at hemitted

end Takes

/-! ### What rounds have taken -/

namespace Reads

variable {p q : Progress V E} {pieces : List (Piece V E)}

/-- A round after some rounds. -/
theorem split {before after : List (Piece V E)} {piece : Piece V E}
    (h : Reads p (before ++ piece :: after) q) :
  ∃ r s, Reads p before r ∧ Takes r piece s ∧ Reads s after q
  := by
  induction before generalizing p with
  | nil =>
    cases h with
    | more first later => exact ⟨p, _, .nothing p, first, later⟩
  | cons earlier before ih =>
    cases h with
    | more first later =>
      obtain ⟨r, s, hbefore, hpiece, hafter⟩ := ih later
      exact ⟨r, s, .more first hbefore, hpiece, hafter⟩

/-- The pieces and what is left make up what was left before. -/
theorem rest (h : Reads p pieces q) :
  String.ofList p.rest = String.join (pieces.map Piece.text) ++ String.ofList q.rest
  := by
  induction h with
  | nothing p => simp
  | more first later ih =>
    rw [first.rest, String.ofList_append, ih]
    simp [String.append_assoc]

/-- Rounds go on by the bytes of their pieces. -/
theorem offset (h : Reads p pieces q) :
  q.offset = p.offset + (String.join (pieces.map Piece.text)).utf8ByteSize
  := by
  induction h with
  | nothing p => simp
  | more first later ih =>
    rw [ih, first.offset.2]
    simp [String.utf8ByteSize_append, Nat.add_assoc]

/-- Each piece lies at or after the bytes that were before all of them, and later pieces lie
after earlier ones. -/
theorem pairwise (h : Reads p pieces q) :
  (∀ piece ∈ pieces, p.offset ≤ piece.offset) ∧
    (pieces.map Piece.offset).Pairwise (· < ·)
  := by
  induction h with
  | nothing p => simp
  | @more p q r piece pieces first later ih =>
    obtain ⟨hoffset, hnext⟩ := first.offset
    have hbytes : 0 < piece.text.utf8ByteSize := by
      apply Nat.pos_of_ne_zero
      rw [Ne, String.utf8ByteSize_eq_zero_iff]
      exact first.text_ne_empty
    have hlater : ∀ other ∈ pieces, p.offset < other.offset := by
      intro other hother
      have hle := ih.1 other hother
      omega
    constructor
    · intro other hother
      rcases List.mem_cons.mp hother with rfl | hother
      · exact Nat.le_of_eq hoffset.symm
      · exact Nat.le_of_lt (hlater other hother)
    · simp only [List.map_cons, List.pairwise_cons, List.forall_mem_map]
      rw [hoffset]
      exact ⟨hlater, ih.2⟩

end Reads

end Progress

/-- The lexeme of a piece has the text and the offset of the piece, unless the outcome is a
lexeme of its own. -/
theorem Piece.eq_of_lexeme? {piece : Piece V E} {lexeme : Lexeme V}
    (h : piece.lexeme? = some lexeme) (hown : piece.outcome.isReplacement = false) :
  lexeme.text = piece.text ∧ lexeme.offset = piece.offset
  := by
  unfold lexeme? Outcome.lexeme? at h
  cases houtcome : piece.outcome with
  | emit =>
    rw [houtcome] at h
    obtain ⟨symbol, -, rfl⟩ := Option.map_eq_some_iff.mp h
    exact ⟨rfl, rfl⟩
  | relabel symbol =>
    rw [houtcome] at h
    cases h
    exact ⟨rfl, rfl⟩
  | attach symbol value =>
    rw [houtcome] at h
    cases h
    exact ⟨rfl, rfl⟩
  | replace lexeme => simp [houtcome, Outcome.isReplacement] at hown
  | skip => simp [houtcome] at h

/-! ### Whole tokenizations -/

/-- The offset of the place in the text that an error is about. -/
def LexError.offset : LexError → Nat
  | noMatch offset _ => offset
  | reaction offset _ => offset
  | reservedSymbol offset _ => offset

/-- A round that fails does so at the place where it starts, and something is left there. -/
theorem Progress.Fails.offset {p : Progress V E} {e : LexError} (h : p.Fails e) :
  e.offset = p.offset ∧ p.rest ≠ []
  := by
  cases h <;> exact ⟨rfl, ‹_›⟩

namespace Progress

/-- What comes of the tokenization on the rest of its way. -/
def finished (p : Progress V E) : Tokenized V E :=
  p.tokenization.scan p.events p.offset p.rest

/-- Where something is left, there is a round, and it is completed or fails. -/
theorem exists_round (p : Progress V E) (hrest : p.rest ≠ []) :
  (∃ e, p.Fails e) ∨ ∃ piece q, p.Takes piece q
  := by
  cases hmatch : p.tokenization.match? p.rest with
  | none => exact .inl ⟨_, .noMatch hrest hmatch⟩
  | some m =>
    cases houtcome : (p.reacted m).outcome with
    | error message => exact .inl ⟨_, .reaction hrest hmatch houtcome⟩
    | ok outcome =>
      cases hemitted : Tokenization.emitted m (p.matched m) p.offset outcome with
      | ok lexemes => exact .inr ⟨_, _, .piece hrest hmatch houtcome hemitted⟩
      | error e =>
        unfold Tokenization.emitted at hemitted
        split at hemitted
        · cases hemitted
        · split at hemitted
          next lexeme hlexeme hreserved =>
            exact .inl ⟨_, .reserved hrest hmatch houtcome hlexeme hreserved⟩
          next => cases hemitted

/-- Where nothing is left, the lexeme that marks the end of the input is all that comes. -/
theorem finished_of_rest {p : Progress V E} (h : p.rest = []) :
  p.finished.lexemes = .ok [.endOfInput p.offset]
  := by
  simp [finished, Tokenization.scan, h]

/-- A round that fails ends the tokenization with its error. -/
theorem Fails.finished {p : Progress V E} {e : LexError} (h : p.Fails e) :
  p.finished.lexemes = .error e
  := by
  unfold Progress.finished Tokenization.scan
  cases h with
  | noMatch hrest hmatch => simp [hrest, hmatch]
  | reaction hrest hmatch houtcome =>
    rw [reacted, matched] at houtcome
    simp [hrest, hmatch, houtcome]
  | @reserved m outcome lexeme hrest hmatch houtcome hlexeme hreserved =>
    have hemitted : Tokenization.emitted m (p.matched m) p.offset outcome =
        .error (.reservedSymbol p.offset lexeme.symbol) := by
      simp [Tokenization.emitted, hlexeme, hreserved]
    rw [matched] at hemitted
    rw [reacted, matched] at houtcome
    simp [hrest, hmatch, houtcome, hemitted]

/-- A round that is completed adds the lexeme of its piece to those that come after it. -/
theorem Takes.finished {p q : Progress V E} {piece : Piece V E} (h : p.Takes piece q) :
  p.finished.lexemes = q.finished.lexemes.map (piece.lexeme?.toList ++ ·)
  := by
  cases h with
  | @piece m outcome lexemes hrest hmatch houtcome hemitted =>
    have hlexemes : lexemes = (outcome.lexeme? m.rule.symbol (p.matched m) p.offset).toList := by
      unfold Tokenization.emitted at hemitted
      split at hemitted
      next hnone => simp_all
      next lexeme hlexeme =>
        split at hemitted <;> simp_all
    rw [matched] at hemitted
    rw [reacted, matched] at houtcome
    rw [Progress.finished, Tokenization.scan]
    simp only [hrest, ↓reduceIte, hmatch, houtcome, hemitted]
    rw [hlexemes]
    rfl

/-- A round that is completed leaves less. -/
theorem Takes.length_rest_lt {p q : Progress V E} {piece : Piece V E} (h : p.Takes piece q) :
  q.rest.length < p.rest.length
  := by
  have hpositive : 0 < piece.text.toList.length := by
    apply List.length_pos_iff.mpr
    rw [ne_eq, String.toList_eq_nil_iff]
    exact h.text_ne_empty
  rw [h.rest, List.length_append]
  omega

/-- After finitely many rounds nothing is left, or a round fails.  If none does, the lexemes
are those of the pieces that were taken, and the one that marks the end of the input. -/
theorem exists_reads (p : Progress V E) :
  ∃ pieces last, Reads p pieces last ∧
    (last.rest = [] ∧ p.finished.lexemes =
        .ok (pieces.filterMap Piece.lexeme? ++ [.endOfInput last.offset]) ∨
      ∃ e, last.Fails e ∧ p.finished.lexemes = .error e)
  := by
  induction hlength : p.rest.length using Nat.strongRecOn generalizing p with
  | _ length ih =>
    by_cases hrest : p.rest = []
    · exact ⟨[], p, .nothing p, .inl ⟨hrest, finished_of_rest hrest⟩⟩
    rcases p.exists_round hrest with ⟨e, hfails⟩ | ⟨piece, q, htakes⟩
    · exact ⟨[], p, .nothing p, .inr ⟨e, hfails, hfails.finished⟩⟩
    obtain ⟨pieces, last, hreads, hlast⟩ := ih _ (hlength ▸ htakes.length_rest_lt) q rfl
    use piece :: pieces, last, .more htakes hreads
    rw [htakes.finished]
    rcases hlast with ⟨hnil, hok⟩ | ⟨e, hfails, herror⟩
    · left
      use hnil
      rw [hok]
      cases hlexeme : piece.lexeme? <;> simp [hlexeme, Except.map]
    · right
      use e, hfails
      rw [herror]
      rfl

end Progress

namespace Lexer

/-- The tokenization that a lexer starts with. -/
def start (lexer : Lexer V E) : Tokenization V E :=
  Tokenization.initial lexer.rules lexer.exclusive

/-- The progress at the start of a text, when some events have been reported for earlier ones. -/
def first (lexer : Lexer V E) (text : String) (earlier : List E) : Progress V E :=
  ⟨lexer.start, earlier, 0, text.toList⟩

/-- Every tokenization of a text ends after finitely many rounds, whatever the reactions do and
whatever they have reported before.  The rounds that are completed take pieces of the text with as
many characters as the matches have and at least one, each piece right after the ones before it and
the first one at the start.

If there are lexemes, the pieces make up the whole text, and the lexemes are those of the
pieces, in their order, and then the one that marks the end of the input, right after the
text.  None of the former has a reserved symbol, and each has the text and the offset of its
piece, unless the reaction has supplied a lexeme of its own.  If there is an error, it is
that of a round that starts right after the pieces, and before the end of the text. -/
theorem tokenize_tiles (hl : PatternLibrary.Lawful) (lexer : Lexer V E) (text : String)
    (earlier : List E) :
  ∃ pieces last,
    (lexer.first text earlier).Reads pieces last ∧
    text = String.join (pieces.map Piece.text) ++ String.ofList last.rest ∧
    (∀ before piece after, pieces = before ++ piece :: after →
      piece.offset = (String.join (before.map Piece.text)).utf8ByteSize ∧
      piece.text.length = piece.made.length ∧ piece.text ≠ "") ∧
    (pieces.map Piece.offset).Pairwise (· < ·) ∧
    match (lexer.tokenize text earlier).lexemes with
    | .ok lexemes =>
      String.join (pieces.map Piece.text) = text ∧
      lexemes = pieces.filterMap Piece.lexeme? ++ [.endOfInput text.utf8ByteSize] ∧
      ∀ piece ∈ pieces, ∀ lexeme, piece.lexeme? = some lexeme →
        lexeme.symbol.isReserved = false ∧
        (piece.outcome.isReplacement = false →
          lexeme.text = piece.text ∧ lexeme.offset = piece.offset)
    | .error e =>
      last.Fails e ∧
      e.offset = (String.join (pieces.map Piece.text)).utf8ByteSize ∧
      e.offset < text.utf8ByteSize
  := by
  obtain ⟨pieces, last, hreads, hlast⟩ := (lexer.first text earlier).exists_reads
  have htext : text = String.join (pieces.map Piece.text) ++ String.ofList last.rest := by
    have hrest := hreads.rest
    rwa [first, String.ofList_toList] at hrest
  have hoffset : last.offset = (String.join (pieces.map Piece.text)).utf8ByteSize := by
    simpa [first] using hreads.offset
  use pieces, last, hreads, htext
  constructor
  · rintro before piece after rfl
    obtain ⟨r, s, hbefore, htakes, -⟩ := hreads.split
    have hbytes := hbefore.offset
    use by simpa [htakes.offset.1, first] using hbytes
    exact ⟨htakes.length hl, htakes.text_ne_empty⟩
  use hreads.pairwise.2
  rcases hlast with ⟨hnil, hok⟩ | ⟨e, hfails, herror⟩
  · have hcovers : String.join (pieces.map Piece.text) = text := by
      simpa [hnil] using htext.symm
    have hlexemes : (lexer.tokenize text earlier).lexemes =
        .ok (pieces.filterMap Piece.lexeme? ++ [.endOfInput text.utf8ByteSize]) := by
      rw [← hcovers, ← hoffset, hcovers]
      exact hok
    rw [hlexemes]
    use hcovers, rfl
    intro piece hpiece lexeme hlexeme
    obtain ⟨before, after, rfl⟩ := List.append_of_mem hpiece
    obtain ⟨r, s, -, htakes, -⟩ := hreads.split
    exact ⟨htakes.not_isReserved hlexeme, Piece.eq_of_lexeme? hlexeme⟩
  · have hlexemes : (lexer.tokenize text earlier).lexemes = .error e := herror
    rw [hlexemes]
    use hfails
    obtain ⟨hplace, hrest⟩ := hfails.offset
    use hplace.trans hoffset
    have hbytes : 0 < (String.ofList last.rest).utf8ByteSize := by
      apply Nat.pos_of_ne_zero
      simpa [String.utf8ByteSize_eq_zero_iff, String.ofList_eq_empty_iff] using hrest
    rw [htext, String.utf8ByteSize_append, hplace, hoffset]
    omega

end Lexer

end Library

/-! ### A tokenization that adds a rule -/

namespace Lexer

open PatternLibrary (Expression read? find? anchored)

/-- A rule for letters, or for nothing at all. -/
def letters : LexRule Unit Unit :=
  { symbol := some (.label "WORD"), pattern := .regex "[a-z]*" }

/-- A rule for a letter with two bytes. -/
def accented : CompiledRule Unit Unit :=
  { symbol := some (.label "ACUTE")
    pattern := .literal "é"
    matcher := .literal "é"
    unreserved := rfl
    compiled := rfl }

/-- A rule for a sign.  The first one adds the rule above, and all others are passed over. -/
def growingOnce : CompiledRule Unit Unit where
  symbol := some (.label "PLUS")
  pattern := .literal "+"
  reaction := some fun _ _ => .review fun events =>
    if events.isEmpty then .report () (.add "x" accented.toLexRule fun _ => .finish .emit)
    else .finish .skip
  matcher := .literal "+"
  unreserved := rfl
  compiled := rfl

section Growing

variable {s : Expression} (hread : read? (anchored "[a-z]*") = some s)

/-- The rule for letters, with the expression that is searched for. -/
def word : CompiledRule Unit Unit :=
  { letters with
    matcher := .regex (anchored "[a-z]*") s
    unreserved := rfl
    compiled := Matcher.ofPattern_regex_eq_ok_iff.mpr ⟨s, hread, rfl⟩ }

/-- A lexer with the rule for letters and the one for the sign. -/
def growing : Lexer Unit Unit :=
  { rules := [word hread, growingOnce] }

/-- Its tokenization after the first sign. -/
def grown : Tokenization Unit Unit where
  states := .initial
  rules := ⟨[some ⟨none, word hread⟩, some ⟨none, growingOnce⟩, some ⟨some "x", accented⟩], []⟩
  exclusive := []

theorem match?_growing (text : List Char) :
  (growing hread).start.match? text
    = Match.best? ([word hread, growingOnce].filterMap fun rule => rule.match? text)
  := rfl

theorem match?_grown (text : List Char) :
  (grown hread).match? text
    = Match.best? ([word hread, growingOnce, accented].filterMap fun rule => rule.match? text)
  := rfl

/-- What is found for the letters is taken. -/
theorem takes_word (hfind : find? s "ab+é+".toList = some (0, 2)) :
  ((growing hread).first "ab+é+" []).Takes ⟨0, ⟨word hread, 2, Nat.succ_pos 1⟩, "ab", .emit⟩
    ⟨(growing hread).start, [], 2, "+é+".toList⟩
  := by
  have hword := (word hread).match?_of_find? rfl hfind
  apply Progress.takes_of_reaction (List.cons_ne_nil _ _) _ rfl
  change (growing hread).start.match? "ab+é+".toList = _
  rw [match?_growing, List.filterMap_cons, hword]
  rfl

/-- The first sign is taken and adds a rule. -/
theorem takes_sign (hfind : find? s "+é+".toList = some (0, 0)) :
  Progress.Takes ⟨(growing hread).start, [], 2, "+é+".toList⟩
    ⟨2, ⟨growingOnce, 1, Nat.one_pos⟩, "+", .emit⟩ ⟨grown hread, [()], 3, "é+".toList⟩
  := by
  have hword := (word hread).match?_of_find? rfl hfind
  have hmatch : (growing hread).start.match? "+é+".toList
      = some ⟨growingOnce, 1, Nat.one_pos⟩ := by
    rw [match?_growing, List.filterMap_cons, hword]
    rfl
  exact .piece (List.cons_ne_nil _ _) hmatch rfl rfl

/-- The rule that has been added matches.  The sign behind the letter is no character of a word,
so that it does not matter whether the letter is one. -/
theorem match?_accented :
  accented.match? "é+".toList = some ⟨accented, 1, Nat.one_pos⟩
  := by
  have hsign : PatternLibrary.isWordCharacter '+' = false := rfl
  have hstarts : Matcher.startsWith "é".toList "é+".toList = true := by
    change ! (PatternLibrary.isWordCharacter 'é' && PatternLibrary.isWordCharacter '+')
    rw [hsign, Bool.and_false]
    rfl
  exact CompiledRule.match?_eq_some_iff.mpr
    ⟨rfl, Matcher.length?_literal_eq_some_iff.mpr ⟨hstarts, rfl⟩⟩

/-- The letter that the added rule is for is taken. -/
theorem takes_accented (hfind : find? s "é+".toList = some (0, 0)) :
  Progress.Takes ⟨grown hread, [()], 3, "é+".toList⟩
    ⟨3, ⟨accented, 1, Nat.one_pos⟩, "é", .emit⟩ ⟨grown hread, [()], 5, "+".toList⟩
  := by
  have hword := (word hread).match?_of_find? rfl hfind
  have hsign : growingOnce.match? "é+".toList = none := rfl
  apply Progress.takes_of_reaction (List.cons_ne_nil _ _) _ rfl
  change (grown hread).match? "é+".toList = _
  simp only [match?_grown, List.filterMap_cons, hword, hsign, match?_accented]
  rfl

/-- The other sign is passed over. -/
theorem takes_last_sign (hfind : find? s "+".toList = some (0, 0)) :
  Progress.Takes ⟨grown hread, [()], 5, "+".toList⟩
    ⟨5, ⟨growingOnce, 1, Nat.one_pos⟩, "+", .skip⟩ ⟨grown hread, [()], 6, []⟩
  := by
  have hword := (word hread).match?_of_find? rfl hfind
  have hmatch : (grown hread).match? "+".toList = some ⟨growingOnce, 1, Nat.one_pos⟩ := by
    rw [match?_grown, List.filterMap_cons, hword]
    rfl
  exact .piece (List.cons_ne_nil _ _) hmatch rfl rfl

end Growing

/-- The letter with two bytes is taken after the rule for it has been added, and nothing is taken
for the letters that are not there.  The last sign becomes no lexeme. -/
theorem tokenize_tiles_growing :
  ∃ lexer : Lexer Unit Unit, ofRules [letters, growingOnce.toLexRule] = .ok lexer ∧
    ∃ pieces last,
      (lexer.first "ab+é+" []).Reads pieces last ∧
      String.join (pieces.map Piece.text) = "ab+é+" ∧
      (pieces.map Piece.offset).Pairwise (· < ·) ∧
      pieces.filterMap Piece.lexeme? =
        [{ symbol := .label "WORD", text := "ab", offset := 0 },
          { symbol := .label "PLUS", text := "+", offset := 2 },
          { symbol := .label "ACUTE", text := "é", offset := 3 }]
  := by
  have hfind : (read? (anchored "[a-z]*")).map (fun s =>
      (find? s "ab+é+".toList, find? s "+é+".toList, find? s "é+".toList, find? s "+".toList))
        = some (some (0, 2), some (0, 0), some (0, 0), some (0, 0)) := by cbv
  obtain ⟨s, hread, hfind⟩ := Option.map_eq_some_iff.mp hfind
  simp only [Prod.mk.injEq] at hfind
  obtain ⟨hfirst, hsecond, hthird, hfourth⟩ := hfind
  have hlexemes : ((growing hread).tokenize "ab+é+" []).lexemes =
      .ok [{ symbol := .label "WORD", text := "ab", offset := 0 },
          { symbol := .label "PLUS", text := "+", offset := 2 },
          { symbol := .label "ACUTE", text := "é", offset := 3 }, .endOfInput 6] := by
    have hfinished := (takes_word hread hfirst).finished
    rw [(takes_sign hread hsecond).finished, (takes_accented hread hthird).finished,
      (takes_last_sign hread hfourth).finished,
      Progress.finished_of_rest (p := ⟨grown hread, [()], 6, []⟩) rfl] at hfinished
    exact hfinished
  obtain ⟨pieces, last, hreads, -, -, hordered, hlast⟩ :=
    tokenize_tiles Regex.library_lawful (growing hread) "ab+é+" []
  rw [hlexemes] at hlast
  obtain ⟨hcovers, heq, -⟩ := hlast
  refine ⟨growing hread, ofRules_eq_ok_iff.mpr rfl, pieces, last, hreads, hcovers, hordered, ?_⟩
  exact (List.append_left_inj [.endOfInput 6]).mp heq.symm

end Lexer

end ShiftReduce
