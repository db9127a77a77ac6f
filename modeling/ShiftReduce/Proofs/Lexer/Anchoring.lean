import ShiftReduce.Proofs.Lexer.Tiling
import ShiftReduce.Proofs.Regex.Library

/-!
# Regular expressions of rules

A lexical rule puts the text of its regular expression between `^(?:` and `)`.  If the text
stands for an expression by itself, that makes no difference to what is described: a match of the
rule is a match of the expression that begins where the rest of the text begins.  But there are
texts that stand for an expression and are refused, since they end with a comment or become too
great; and there are texts that are accepted although they stand for no expression by themselves.
All of these close the group that is put around them (`LexRule.regex_by_itself`).
-/

namespace ShiftReduce

section Library

variable [PatternLibrary]

/-! ### Patterns between `^(?:` and `)` -/

namespace PatternLibrary

variable {source : String} {r s : Expression}

namespace Lawful

variable (hl : Lawful)

include hl

/-- A pattern can be put between `^(?:` and `)` unless it ends with a comment. -/
theorem exists_parse?_anchored_iff (h : parse? source = some r) :
  (∃ s, parse? (anchored source) = some s) ↔ parse? (source ++ ")") = none
  := by
  cases hclosed : parse? (source ++ ")") with
  | none =>
      obtain ⟨g, hgroup, -⟩ := hl.group h hclosed
      obtain ⟨s, hs, -⟩ := hl.circumflex h hgroup
      exact iff_of_true ⟨s, hs⟩ rfl
  | some =>
      rw [hl.ungrouped h (hl.comment h hclosed)]
      exact iff_of_false nofun nofun

/-- Between `^(?:` and `)` a pattern finds what it finds at the start of the text by itself. -/
theorem find?_anchored_eq_some_iff (h : parse? source = some r)
    (hs : parse? (anchored source) = some s) {text : List Char} {i j : Nat} :
  find? s text = some (i, j) ↔ i = 0 ∧ find? r text = some (0, j)
  := by
  obtain ⟨g, hgroup, hfind⟩ := hl.group h ((hl.exists_parse?_anchored_iff h).mp ⟨s, hs⟩)
  obtain ⟨s', hs', hiff⟩ := hl.circumflex h hgroup
  cases hs.symm.trans hs'
  rw [hiff, hfind]

/-- If a pattern is valid between `^(?:` and `)`, so is the part of it up to some parenthesis,
unless it is valid itself. -/
theorem exists_parse?_of_anchored (h : parse? source = none)
    (hs : parse? (anchored source) = some s) :
  ∃ pattern rest r, source = pattern ++ ")" ++ rest ∧ parse? pattern = some r
  := by
  have hopening : anchored source = "^(?:" ++ (source ++ ")") := by
    rw [anchored, grouped, String.append_assoc, ← String.append_assoc]
    rfl
  rw [hopening] at hs
  obtain ⟨pattern, rest, r, heq, hpattern⟩ := hl.closed hs
  have hlist := congrArg String.toList heq
  rw [String.toList_append, String.toList_append] at hlist
  rcases List.eq_nil_or_concat rest.toList with hnil | ⟨rest', last, hrest⟩
  · -- the parenthesis is the one at the end, but then the pattern is valid
    have hsource : source = pattern := by
      apply String.toList_inj.mp
      simpa [hnil] using hlist
    rw [hsource, hpattern] at h
    cases h
  · use pattern, String.ofList rest', r
    refine ⟨?_, hpattern⟩
    apply String.toList_inj.mp
    rw [hrest, List.concat_eq_append, ← List.append_assoc] at hlist
    simpa using (List.append_inj' hlist rfl).1

end Lawful

end PatternLibrary

variable {V E : Type}

open PatternLibrary (Expression parse? fits find? anchored Describes)

/-! ### Matches of regular expressions -/

/-- The matcher of a pattern finds what the pattern finds by itself at the start of the text. -/
theorem Matcher.length?_anchored_eq_some_iff (hl : PatternLibrary.Lawful) {source : String}
    {r : Expression} (h : parse? source = some r) {matcher : Matcher}
    (hmatcher : ofPattern (.regex source) = .ok matcher) {text : List Char} {n : Nat} :
  matcher.length? text = some n ↔ find? r text = some (0, n) ∧ 0 < n
  := by
  obtain ⟨s, hread, rfl⟩ := ofPattern_regex_eq_ok_iff.mp hmatcher
  have hs := (PatternLibrary.read?_eq_some_iff.mp hread).1
  simp only [length?_regex_eq_some_iff, hl.find?_anchored_eq_some_iff h hs, exists_eq_left]

namespace LexRule

variable {rule : LexRule V E} {source : String} {r : Expression}

/-- A rule with a regular expression is accepted if its symbol is not reserved, and its pattern is
an expression between `^(?:` and `)` that keeps within the limits. -/
theorem exists_compile_regex_iff (hpattern : rule.pattern = .regex source) :
  (∃ compiled, rule.compile = .ok compiled)
    ↔ rule.symbol.filter Symbol.isReserved = none
      ∧ ∃ s, parse? (anchored source) = some s ∧ fits s = true
  := by
  rw [exists_compile_iff, hpattern]
  simp only [Matcher.ofPattern_regex_eq_ok_iff, PatternLibrary.read?_eq_some_iff]
  apply and_congr_right
  intro
  constructor
  · rintro ⟨_, s, hs, -⟩
    exact ⟨s, hs⟩
  · rintro ⟨s, hs⟩
    exact ⟨_, s, hs, rfl⟩

/-- A match that is chosen for a rule is described by its expression from the start of the rest of
the text. -/
theorem describes_of_match? (hl : PatternLibrary.Lawful) {t : Tokenization V E} {text : List Char}
    {m : Match V E} (hmatch : t.match? text = some m) (hpattern : m.rule.pattern = .regex source)
    (h : parse? source = some r) :
  Describes r text 0 m.length
  := by
  obtain ⟨rule, -, hrule⟩ := Tokenization.exists_rule_of_match? hmatch
  obtain ⟨rfl, hlength⟩ := CompiledRule.match?_eq_some_iff.mp hrule
  have hmatcher := m.rule.compiled
  rw [hpattern] at hmatcher
  exact hl.describes h ((Matcher.length?_anchored_eq_some_iff hl h hmatcher).mp hlength).1

/-- If the text of a regular expression stands for an expression by itself, a rule with it is
accepted unless its symbol is reserved, the text ends with a comment, or the expression becomes
too great in the group around it; and whenever the rule is chosen, what it matches is described
by the expression, from the start of the rest of the text.  A text that stands for no expression
by itself is accepted only if it closes the group around it: it goes on with a parenthesis after
an expression. -/
theorem regex_by_itself (hl : PatternLibrary.Lawful) (hpattern : rule.pattern = .regex source) :
  (∀ r, parse? source = some r →
      ((∃ compiled, rule.compile = .ok compiled)
        ↔ rule.symbol.filter Symbol.isReserved = none ∧ parse? (source ++ ")") = none
          ∧ ∀ s, parse? (anchored source) = some s → fits s = true)
      ∧ ∀ compiled, rule.compile = .ok compiled → ∀ (t : Tokenization V E) text m,
        t.match? text = some m → m.rule = compiled → Describes r text 0 m.length)
    ∧ (parse? source = none → (∃ compiled, rule.compile = .ok compiled) →
      ∃ pattern rest r, source = pattern ++ ")" ++ rest ∧ parse? pattern = some r)
  := by
  constructor
  · intro r h
    constructor
    · rw [exists_compile_regex_iff hpattern, ← hl.exists_parse?_anchored_iff h]
      apply and_congr_right
      intro
      constructor
      · rintro ⟨s, hs, hfits⟩
        use ⟨s, hs⟩
        rintro s' hs'
        cases hs.symm.trans hs'
        exact hfits
      · rintro ⟨⟨s, hs⟩, hfits⟩
        exact ⟨s, hs, hfits s hs⟩
    · rintro compiled hcompile t text m hmatch rfl
      rw [← compile_eq_ok_iff.mp hcompile] at hpattern
      exact describes_of_match? hl hmatch hpattern h
  · intro h haccepted
    obtain ⟨-, s, hs, -⟩ := (exists_compile_regex_iff hpattern).mp haccepted
    exact hl.exists_parse?_of_anchored h hs

/-- A rule for a regular expression. -/
def ofRegex (symbol : Symbol) (source : String) : LexRule V E :=
  { symbol := some symbol, pattern := .regex source }

omit [PatternLibrary] in
theorem pattern_ofRegex (symbol : Symbol) (source : String) :
  (ofRegex symbol source : LexRule V E).pattern = .regex source
  := rfl

/-- Such a rule can be made ready for use if its symbol is not reserved and its pattern can be
read. -/
theorem exists_compiled_ofRegex {symbol : Symbol} (hsymbol : symbol.isReserved = false)
    (source : String) (hread : (PatternLibrary.read? (anchored source)).isSome = true) :
  ∃ compiled : CompiledRule V E, compiled.toLexRule = ofRegex symbol source
  := by
  obtain ⟨s, hs⟩ := Option.isSome_iff_exists.mp hread
  obtain ⟨compiled, hcompile⟩ := (exists_compile_regex_iff (pattern_ofRegex symbol source)).mpr
    ⟨by simp [ofRegex, hsymbol], s, PatternLibrary.read?_eq_some_iff.mp hs⟩
  exact ⟨compiled, compile_eq_ok_iff.mp hcompile⟩

end LexRule

end Library

namespace LexRule

open PatternLibrary (Expression parse? read? find? anchored Describes)

/-- This pattern stands for no expression.  A rule with it is accepted, and the second branch, which
is outside of the group, is found behind a character that it does not describe. -/
theorem alternative_leaves_group :
  parse? "a)|(?:b" = none
    ∧ ∃ compiled : CompiledRule Unit Unit,
      (ofRegex (.label "ALT") "a)|(?:b").compile = .ok compiled
        ∧ compiled.matcher.length? ['z', 'b'] = some 2
  := by
  have hfind : (read? (anchored "a)|(?:b")).map (find? · ['z', 'b']) = some (some (1, 2)) := by cbv
  obtain ⟨compiled, hrule⟩ := exists_compiled_ofRegex (V := Unit) (E := Unit)
    (show (Symbol.label "ALT").isReserved = false from rfl) "a)|(?:b" (by cbv)
  use by cbv, compiled, compile_eq_ok_iff.mpr hrule
  have hmatcher := compiled.compiled
  rw [hrule] at hmatcher
  obtain ⟨s', hs', heq⟩ := Matcher.ofPattern_regex_eq_ok_iff.mp hmatcher
  rw [hs'] at hfind
  rw [heq]
  exact Matcher.length?_regex_eq_some_iff.mpr ⟨⟨1, Option.some.inj hfind⟩, Nat.succ_pos 1⟩

/-- A pattern with groups and branches, where blanks count for nothing and number signs stand for
themselves. -/
def grouping : String := "(?x)( a | (?:b | (?-x:#)) d )+"

/-- What the library makes of this pattern. -/
theorem parse?_grouping :
  ∃ r, parse? grouping = some r ∧ parse? (grouping ++ ")") = none
    ∧ (∀ s, parse? (anchored grouping) = some s → PatternLibrary.fits s = true)
    ∧ find? r "a#dz".toList = some (0, 3)
  := by
  have hparse : (parse? grouping).map (find? · "a#dz".toList) = some (some (0, 3)) := by cbv
  have hread : (read? (anchored grouping)).isSome = true := by cbv
  obtain ⟨r, hr, hfind⟩ := Option.map_eq_some_iff.mp hparse
  obtain ⟨s, hs⟩ := Option.isSome_iff_exists.mp hread
  obtain ⟨hs, hfits⟩ := PatternLibrary.read?_eq_some_iff.mp hs
  refine ⟨r, hr, by cbv, ?_, hfind⟩
  intro s' hs'
  cases hs.symm.trans hs'
  exact hfits

/-- A rule with this pattern is accepted, and what it matches is described.  A pattern that ends
with a comment is refused.  One that closes the group around it is an expression up to there. -/
theorem regex_by_itself_grouping :
  (∃ (r : Expression) (compiled : CompiledRule Unit Unit) (m : Match Unit Unit),
      parse? grouping = some r ∧ (ofRegex (.label "A") grouping).compile = .ok compiled
      ∧ (Tokenization.initial [compiled] []).match? "a#dz".toList = some m
      ∧ m.rule = compiled ∧ m.length = 3 ∧ Describes r "a#dz".toList 0 m.length)
    ∧ (¬ ∃ compiled : CompiledRule Unit Unit,
      (ofRegex (.label "A") "(?x)( a | b )+ # letters").compile = .ok compiled)
    ∧ ∃ pattern rest r, "a)|(?:b" = pattern ++ ")" ++ rest ∧ parse? pattern = some r
  := by
  refine ⟨?_, ?_, ?_⟩
  · obtain ⟨r, hr, hclosed, hfits, hfind⟩ := parse?_grouping
    obtain ⟨haccepted, hdescribes⟩ :=
      (regex_by_itself (V := Unit) (E := Unit) Regex.library_lawful
        (pattern_ofRegex (.label "A") grouping)).1 r hr
    obtain ⟨compiled, hcompile⟩ := haccepted.mpr ⟨rfl, hclosed, hfits⟩
    have hmatcher := compiled.compiled
    rw [compile_eq_ok_iff.mp hcompile] at hmatcher
    have hlength := (Matcher.length?_anchored_eq_some_iff Regex.library_lawful hr hmatcher).mpr
      ⟨hfind, Nat.succ_pos 2⟩
    let m : Match Unit Unit := ⟨compiled, 3, Nat.succ_pos 2⟩
    have hrule : compiled.match? "a#dz".toList = some m :=
      CompiledRule.match?_eq_some_iff.mpr ⟨rfl, hlength⟩
    have hdefault : ∀ rule ∈ [compiled], rule.belongsTo defaultState = true := by
      rw [List.forall_mem_singleton, compile_eq_ok_iff.mp hcompile]
      rfl
    have hmatch : (Tokenization.initial [compiled] []).match? "a#dz".toList = some m := by
      simp only [Tokenization.match?_initial hdefault, List.filterMap_cons, hrule]
      rfl
    have hdescribed := hdescribes compiled hcompile _ _ m hmatch rfl
    exact ⟨r, compiled, m, hr, hcompile, hmatch, rfl, rfl, hdescribed⟩
  · have hparse : (parse? "(?x)( a | b )+ # letters").isSome = true := by cbv
    have hcomment : (parse? ("(?x)( a | b )+ # letters" ++ ")")).isSome = true := by cbv
    obtain ⟨r, hr⟩ := Option.isSome_iff_exists.mp hparse
    rw [((regex_by_itself Regex.library_lawful rfl).1 r hr).1]
    rintro ⟨-, hclosed, -⟩
    rw [hclosed] at hcomment
    cases hcomment
  · obtain ⟨hinvalid, compiled, hcompile, -⟩ := alternative_leaves_group
    exact (regex_by_itself Regex.library_lawful rfl).2 hinvalid ⟨compiled, hcompile⟩

end LexRule

end ShiftReduce
