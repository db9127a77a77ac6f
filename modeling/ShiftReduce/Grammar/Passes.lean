import ShiftReduce.Grammar.First

/-!
# Nullable symbols and first sets by passes

The passes over the rules keep an account of whether they have changed anything, and there
is no bound on their number.  For the nullable symbols a pass starts from the left-hand
sides of the empty rules, and does not look at the rules of symbols that are nullable
already.  For the first sets the rules are turned into constraints before: the first set of
a symbol includes that of another one.  A symbol does not constrain itself.
-/

namespace ShiftReduce

/-! ### Nullable symbols -/

/-- The left-hand sides of the empty rules. -/
def emptyLhs (rules : List Rule) : SymbolSet :=
  .ofList (rules.filterMap fun r => if r.rhs.isEmpty then some r.lhs else none)

/-- The left-hand side of a rule joins if it is not there yet and all symbols of the
right-hand side are. -/
def nullableStep (s : SymbolSet) (r : Rule) : SymbolSet × Bool :=
  if s.contains r.lhs then (s, false)
  else if r.rhs.all s.contains then (s.insert r.lhs, true)
  else (s, false)

/-- The nullable symbols by passes over the rules. -/
def nullableByPasses (rules : List Rule) : Option SymbolSet :=
  Pass.saturate ⟨sweep nullableStep rules⟩ (emptyLhs rules)

/-! ### First sets -/

/-- The first set of the symbol `upper` includes that of the symbol `lower`. -/
structure Constraint where
  upper : SymbolId
  lower : SymbolId
  deriving DecidableEq

/-- The constraints that a right-hand side puts on a symbol: the symbols up to the first one
that is not nullable, other than the symbol itself. -/
def constraintsOf (nullable : SymbolSet) (lhs : SymbolId) : List SymbolId → List Constraint
  | [] => []
  | y :: rest =>
    (if y = lhs then [] else [⟨lhs, y⟩]) ++
      if nullable.contains y then constraintsOf nullable lhs rest else []

namespace FirstSets

/-- The first set of the upper symbol takes in the members of that of the lower one. -/
def impose (f : FirstSets) (c : Constraint) : FirstSets × Bool :=
  ({ f with sets := f.sets.modify c.upper (· ∪ f.first c.lower) },
    (f.first c.upper).grew (f.first c.upper ∪ f.first c.lower))

/-- The first sets by passes over the constraints of the rules, from the nullable symbols
on. -/
def byPasses (kinds : Array SymbolKind) (rules : List Rule) : Option FirstSets := do
  let nullable ← nullableByPasses rules
  let constraints := rules.flatMap fun r => constraintsOf nullable r.lhs r.rhs
  Pass.saturate ⟨sweep impose constraints⟩ { initial kinds rules with nullable }

end FirstSets

end ShiftReduce
