import ShiftReduce.Lexer.Library
import ShiftReduce.Lexer.Rule

/-!
# Compiled lexical rules

A pattern is made into a matcher before it is used, which fails if it can match nothing
sensible.  A matcher is asked for the number of characters that it matches at the start of
a text.  A literal that ends with a character of a word does not match where the next
character is one too, so that a keyword is not found at the start of a longer word.

A regular expression is put between `^(?:` and `)` before it is read, and it matches at
the start of the text what there is up to the end of the match that is found.

A rule that has been compiled has the matcher of its pattern, so that it matches at least one
character: there is no matcher of the empty literal, and a regular expression that finds nothing
but the empty text does not match.
-/

namespace ShiftReduce

variable [PatternLibrary]

/-! ### Matchers -/

/-- A pattern made ready for matching. -/
inductive Matcher where
  /-- Matches this text. -/
  | literal (text : String)
  /-- Matches what the regular expression finds; `source` is the text it was read from. -/
  | regex (source : String) (expression : PatternLibrary.Expression)

namespace Matcher

/-- A matcher as text. -/
def inspect : Matcher → String
  | literal text => s!"Literal({Text.quoted text})"
  | regex source _ => s!"Regex(Regex({Text.quoted source}))"

/-- The matcher of a pattern. -/
def ofPattern : Pattern → Except PatternError Matcher
  | .literal text => if text.isEmpty then .error .emptyLiteral else .ok (.literal text)
  | .regex source =>
    match PatternLibrary.read? (PatternLibrary.anchored source) with
    | some expression => .ok (.regex (PatternLibrary.anchored source) expression)
    | none => .error (.invalidRegex source)

theorem ofPattern_literal_eq_ok_iff {text : String} {matcher : Matcher} :
  ofPattern (.literal text) = .ok matcher ↔ text ≠ "" ∧ matcher = .literal text
  := by
  rw [ofPattern, ne_eq, ← String.isEmpty_iff]
  split
  · simp [*]
  · simp [*, eq_comm]

theorem ofPattern_regex_eq_ok_iff {source : String} {matcher : Matcher} :
  ofPattern (.regex source) = .ok matcher
    ↔ ∃ expression, PatternLibrary.read? (PatternLibrary.anchored source) = some expression
      ∧ matcher = .regex (PatternLibrary.anchored source) expression
  := by
  rw [ofPattern]
  cases PatternLibrary.read? (PatternLibrary.anchored source) with
  | none => simp
  | some expression => simp [eq_comm]

/-- Whether a word goes on between two neighbouring characters. -/
def wordGoesOn (before after : Char) : Bool :=
  PatternLibrary.isWordCharacter before && PatternLibrary.isWordCharacter after

/-- Whether a text starts with the characters of a literal, and the word that the literal
ends with is not longer there. -/
def startsWith (literal text : List Char) : Bool :=
  literal.isPrefixOf text &&
    match literal.getLast?, (text.drop literal.length).head? with
    | some before, some after => ! wordGoesOn before after
    | _, _ => true

/-- The number of characters that are matched at the start of a text.  A match of a regular
expression does not count if it ends where the text starts. -/
def length? : Matcher → List Char → Option Nat
  | literal text, rest =>
    if startsWith text.toList rest then some text.toList.length else none
  | regex _ expression, rest =>
    ((PatternLibrary.find? expression rest).map Prod.snd).filter (0 < ·)

theorem length?_literal_eq_some_iff {text : String} {rest : List Char} {length : Nat} :
  (literal text).length? rest = some length
    ↔ startsWith text.toList rest = true ∧ text.toList.length = length
  := by rw [length?, Option.ite_none_right_eq_some, Option.some.injEq]

theorem length?_regex_eq_some_iff {source : String} {expression : PatternLibrary.Expression}
    {rest : List Char} {length : Nat} :
  (regex source expression).length? rest = some length
    ↔ (∃ start, PatternLibrary.find? expression rest = some (start, length)) ∧ 0 < length
  := by simp [length?, Option.filter_eq_some_iff]

/-- The matcher of a pattern matches at least one character. -/
theorem length?_pos {pattern : Pattern} {matcher : Matcher} (h : ofPattern pattern = .ok matcher)
    {text : List Char} {length : Nat} (hlength : matcher.length? text = some length) :
  0 < length
  := by
  cases pattern with
  | literal literal =>
    obtain ⟨hne, rfl⟩ := ofPattern_literal_eq_ok_iff.mp h
    obtain ⟨-, rfl⟩ := length?_literal_eq_some_iff.mp hlength
    apply List.length_pos_iff.mpr
    rwa [ne_eq, String.toList_eq_nil_iff]
  | regex source =>
    obtain ⟨expression, -, rfl⟩ := ofPattern_regex_eq_ok_iff.mp h
    exact (length?_regex_eq_some_iff.mp hlength).2

end Matcher

/-! ### Rules -/

/-- A lexical rule that can be used: its symbol is not reserved, and it has the matcher of its
pattern. -/
structure CompiledRule (V E : Type) extends LexRule V E where
  matcher : Matcher
  unreserved : symbol.filter Symbol.isReserved = none
  compiled : Matcher.ofPattern pattern = .ok matcher

namespace LexRule

variable {V E : Type}

/-- Makes a rule ready for use.  Its symbol is looked at first, and then its pattern. -/
def compile (rule : LexRule V E) : Except PatternError (CompiledRule V E) :=
  match hsymbol : rule.symbol.filter Symbol.isReserved with
  | some symbol => .error (.reservedSymbol symbol)
  | none =>
    match hmatcher : Matcher.ofPattern rule.pattern with
    | .error e => .error e
    | .ok matcher => .ok { rule with matcher, unreserved := hsymbol, compiled := hmatcher }

/-- Making a rule ready for use does not change it, and there is one way to do so. -/
theorem compile_eq_ok_iff {rule : LexRule V E} {compiled : CompiledRule V E} :
  rule.compile = .ok compiled ↔ compiled.toLexRule = rule
  := by
  constructor
  · unfold compile
    split
    · rintro ⟨⟩
    · split <;> rintro ⟨⟩
      rfl
  · rintro rfl
    obtain ⟨rule, matcher, hsymbol, hmatcher⟩ := compiled
    unfold compile
    split
    · rename_i hreserved
      cases hsymbol.symm.trans hreserved
    · split
      · rename_i herror
        cases hmatcher.symm.trans herror
      · rename_i hok
        cases hmatcher.symm.trans hok
        rfl

/-- A rule can be made ready for use if its symbol is not reserved and its pattern has a
matcher. -/
theorem exists_compile_iff {rule : LexRule V E} :
  (∃ compiled, rule.compile = .ok compiled)
    ↔ rule.symbol.filter Symbol.isReserved = none
      ∧ ∃ matcher, Matcher.ofPattern rule.pattern = .ok matcher
  := by
  constructor
  · rintro ⟨compiled, hcompile⟩
    obtain rfl := compile_eq_ok_iff.mp hcompile
    exact ⟨compiled.unreserved, compiled.matcher, compiled.compiled⟩
  · rintro ⟨hsymbol, matcher, hmatcher⟩
    exact ⟨⟨rule, matcher, hsymbol, hmatcher⟩, compile_eq_ok_iff.mpr rfl⟩

/-- Whether a rule belongs to a state. -/
def belongsTo (rule : LexRule V E) (state : String) : Bool :=
  if rule.states.isEmpty then state = defaultState else rule.states.contains state

/-- The states that a rule makes exclusive, which the default state never is. -/
def exclusiveStates (rule : LexRule V E) : List String :=
  rule.states.filter fun state => rule.exclusive && state ≠ defaultState

end LexRule

/-- A match at the start of a text: a rule and the number of characters it matches. -/
structure Match (V E : Type) where
  rule : CompiledRule V E
  length : Nat
  positive : 0 < length

namespace Match

variable {V E : Type}

/-- Whether a match is preferred to one by an earlier rule: its priority is higher, or it is
equal and the match is longer. -/
def beats (m earlier : Match V E) : Bool :=
  earlier.rule.priority < m.rule.priority ||
    earlier.rule.priority = m.rule.priority && earlier.length < m.length

/-- The preferred one of a match and a later one. -/
def prefer (earlier : Option (Match V E)) (m : Match V E) : Option (Match V E) :=
  match earlier with
  | none => some m
  | some former => if m.beats former then some m else some former

/-- The preferred match among those by rules in their order. -/
def best? (candidates : List (Match V E)) : Option (Match V E) :=
  candidates.foldl prefer none

end Match

namespace CompiledRule

variable {V E : Type}

/-- The match by a rule at the start of a text. -/
def match? (rule : CompiledRule V E) (text : List Char) : Option (Match V E) :=
  (rule.matcher.length? text).pmap (Match.mk rule) fun _ => Matcher.length?_pos rule.compiled

theorem match?_eq_some_iff {rule : CompiledRule V E} {text : List Char} {m : Match V E} :
  rule.match? text = some m ↔ m.rule = rule ∧ rule.matcher.length? text = some m.length
  := by
  rw [match?, Option.pmap_eq_some_iff]
  constructor
  · rintro ⟨length, hpos, hlength, rfl⟩
    exact ⟨rfl, hlength⟩
  · rintro ⟨rfl, hlength⟩
    exact ⟨m.length, m.positive, hlength, rfl⟩

/-- A rule for a regular expression matches what is found for it, if that does not end where the
text starts. -/
theorem match?_of_find? (rule : CompiledRule V E) {source : String}
    {expression : PatternLibrary.Expression} (hmatcher : rule.matcher = .regex source expression)
    {text : List Char} {start length : Nat}
    (hfind : PatternLibrary.find? expression text = some (start, length)) :
  rule.match? text = if h : 0 < length then some ⟨rule, length, h⟩ else none
  := by
  split
  · rename_i hpos
    rw [match?_eq_some_iff, hmatcher, Matcher.length?_regex_eq_some_iff]
    exact ⟨rfl, ⟨start, hfind⟩, hpos⟩
  · rename_i hpos
    rw [Option.eq_none_iff_forall_ne_some]
    intro m hm
    rw [match?_eq_some_iff, hmatcher, Matcher.length?_regex_eq_some_iff, hfind] at hm
    obtain ⟨-, ⟨_, hlength⟩, hpos'⟩ := hm
    cases hlength
    exact hpos hpos'

/-- A compiled rule as text; of its reaction, only whether there is one. -/
def inspect (rule : CompiledRule V E) : String :=
  Text.record "CompiledRule"
    [("token", Text.optional (rule.symbol.map Symbol.inspect)),
     ("matcher", rule.matcher.inspect),
     ("priority", toString rule.priority),
     ("callback", toString rule.reaction.isSome),
     ("states", Text.bracketed (rule.states.map Text.quoted)),
     ("exclusive", toString rule.exclusive)]

end CompiledRule

end ShiftReduce
