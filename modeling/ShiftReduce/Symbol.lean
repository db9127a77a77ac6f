import Std.Data.TreeMap
import ShiftReduce.Text.Layout
import ShiftReduce.Text.Quoted

/-!
# Grammar symbols

A symbol is a label chosen by the author of a language, or one of two reserved symbols:
the end of the input, and the left-hand side of the rule that wraps the start symbol.  The
reserved symbols are different from every label, also from one spelled the same way.
Symbols are ordered: the end of input comes first, then the start, then the labels in the
order of their names.
-/

namespace ShiftReduce

/-- A symbol of a grammar. -/
inductive Symbol where
  | endOfInput
  | start
  | label (name : String)
  deriving DecidableEq

namespace Symbol

/-- Whether a symbol is one of the two that no rule may mention. -/
def isReserved : Symbol → Bool
  | label _ => false
  | _ => true

/-- The name of a label. -/
def name? : Symbol → Option String
  | label name => some name
  | _ => none

/-- The text a symbol is shown as. -/
def text : Symbol → String
  | endOfInput => "$eoi"
  | start => "$start"
  | label name => name

/-- The text that tells the reserved symbols from the labels. -/
def inspect : Symbol → String
  | endOfInput => "Eoi"
  | start => "Start"
  | label name => s!"Label({Text.quoted name})"

/-- The texts of the symbols, with `separator` between any two neighbours. -/
def joined (separator : String) (symbols : List Symbol) : String :=
  Text.joined separator (symbols.map text)

/-! ### The order of symbols -/

/-- The place of a kind of symbol in the order: end of input, start, labels. -/
def rank : Symbol → Nat
  | endOfInput => 0
  | start => 1
  | label _ => 2

instance : Ord Symbol where
  compare := compareLex (compareOn rank) (compareOn text)

theorem compare_eq_then (a b : Symbol) :
  compare a b = (compare a.rank b.rank).then (compare a.text b.text)
  := rfl

instance : Std.TransOrd Symbol :=
  inferInstanceAs (Std.TransCmp (compareLex (compareOn rank) (compareOn text)))

instance : Std.LawfulEqOrd Symbol where
  eq_of_compare {a b} h := by
    rw [compare_eq_then, Ordering.then_eq_eq] at h
    obtain ⟨hrank, htext⟩ := h
    have hrank := Std.LawfulEqOrd.eq_of_compare hrank
    have htext := Std.LawfulEqOrd.eq_of_compare htext
    cases a <;> cases b <;> simp_all [rank, text]

end Symbol

end ShiftReduce
