/-!
# Libraries for regular expressions

Regular expressions are read and searched for by a library, which is a parameter here, and so is
the class of the characters of words.  What the library promises about expressions is said in
`PatternLibrary.Lawful`.  Positions in a text count its characters.
-/

namespace ShiftReduce

/-- What a library for regular expressions provides. -/
class PatternLibrary where
  Expression : Type
  /-- The expression that a pattern stands for, however great it is. -/
  parse? : String → Option Expression
  /-- Whether an expression keeps within the limits that are set for nesting and for size. -/
  fits : Expression → Bool
  /-- The start and the end of the first match in a text. -/
  find? : Expression → List Char → Option (Nat × Nat)
  /-- An expression describes what is between two positions of a text. -/
  Describes : Expression → List Char → Nat → Nat → Prop
  /-- Whether a character can stand within a word. -/
  isWordCharacter : Char → Bool

namespace PatternLibrary

variable [PatternLibrary]

/-- The expression that a pattern stands for, if it keeps within the limits. -/
def read? (pattern : String) : Option Expression :=
  (parse? pattern).filter fits

theorem read?_eq_some_iff {pattern : String} {r : Expression} :
  read? pattern = some r ↔ parse? pattern = some r ∧ fits r = true
  := Option.filter_eq_some_iff

/-- A pattern in a group that captures nothing. -/
def grouped (pattern : String) : String :=
  "(?:" ++ pattern ++ ")"

/-- A pattern in such a group, where the text has to start. -/
def anchored (pattern : String) : String :=
  "^" ++ grouped pattern

/-- A library does what its documentation says.

What is found lies within the text and is described by the expression.  Where something is
described, something is found that does not start later.  A group matches what the pattern in it
matches, and behind a circumflex what it matches at the start of the text.  A parenthesis closes
the group around the pattern before it; without a group it is refused.  Behind a pattern that ends
with a comment it is part of the comment, so that a group is not closed by it.  A group that is
opened behind a circumflex is closed by some parenthesis, and what stands in it is a pattern. -/
structure Lawful : Prop where
  range {pattern : String} {r : Expression} (h : parse? pattern = some r) {text : List Char}
    {i j : Nat} (hfind : find? r text = some (i, j)) : i ≤ j ∧ j ≤ text.length
  describes {pattern : String} {r : Expression} (h : parse? pattern = some r) {text : List Char}
    {i j : Nat} (hfind : find? r text = some (i, j)) : Describes r text i j
  leftmost {pattern : String} {r : Expression} (h : parse? pattern = some r) {text : List Char}
    {i j : Nat} (hi : i ≤ text.length) (hdescribes : Describes r text i j) :
    ∃ k l, find? r text = some (k, l) ∧ k ≤ i
  group {pattern : String} {r : Expression} (h : parse? pattern = some r)
    (hclosed : parse? (pattern ++ ")") = none) :
    ∃ g, parse? (grouped pattern) = some g ∧ ∀ text, find? g text = find? r text
  comment {pattern : String} {r s : Expression} (h : parse? pattern = some r)
    (hcomment : parse? (pattern ++ ")") = some s) : parse? (grouped pattern) = none
  circumflex {pattern : String} {r g : Expression} (h : parse? pattern = some r)
    (hgroup : parse? (grouped pattern) = some g) :
    ∃ s, parse? (anchored pattern) = some s
      ∧ ∀ text i j, find? s text = some (i, j) ↔ i = 0 ∧ find? g text = some (0, j)
  ungrouped {pattern : String} {r : Expression} (h : parse? pattern = some r)
    (hgroup : parse? (grouped pattern) = none) : parse? (anchored pattern) = none
  closed {text : String} {s : Expression} (h : parse? ("^(?:" ++ text) = some s) :
    ∃ pattern rest r, text = pattern ++ ")" ++ rest ∧ parse? pattern = some r

end PatternLibrary

end ShiftReduce
