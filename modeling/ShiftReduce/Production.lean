import ShiftReduce.Symbol

/-!
# Production rules

A production rule expands one symbol to a list of symbols.  It may carry an action, which
computes the value of the left-hand side from those of the right-hand side.
-/

namespace ShiftReduce

/-- A rule `lhs := rhs` whose action, if it has one, computes a value or fails with a
message. -/
structure Production (V : Type) where
  lhs : Symbol
  rhs : List Symbol
  action : Option (List V → Except String V) := none

namespace Production

variable {V : Type}

/-- Whether two rules expand the same symbol to the same symbols. -/
def sameShape (p q : Production V) : Bool :=
  p.lhs = q.lhs && p.rhs = q.rhs

/-- The rule that expands `lhs` to `rhs`, as text. -/
def textOf (lhs : Symbol) (rhs : List Symbol) : String :=
  s!"{lhs.text} := " ++ Symbol.joined " " rhs

/-- A rule as text. -/
def text (p : Production V) : String :=
  textOf p.lhs p.rhs

/-- A rule as text that tells the kinds of symbols apart; of its action, only whether
there is one. -/
def inspect (p : Production V) : String :=
  Text.record "GrammarRule"
    [("lhs", p.lhs.inspect),
     ("rhs", Text.bracketed (p.rhs.map Symbol.inspect)),
     ("action", toString p.action.isSome)]

end Production

end ShiftReduce
