import ShiftReduce.Item.Set
import ShiftReduce.OrderedMap

/-!
# Closures by passes

While a closure is built, its items are kept in the order in which their cores have been met.
A pass first gathers all items that the present ones call for, and then takes them in.  It
keeps an account of whether one of them had a new core or new lookaheads, and there is no
bound on the number of passes.
-/

namespace ShiftReduce

/-- The lookaheads of some cores, in the order in which the cores have been met. -/
abbrev Gathering := OrderedMap Core SymbolSet

namespace Gathering

/-- The items. -/
def items (m : Gathering) : List Item :=
  m.entries.map fun (core, lookaheads) => ⟨core, lookaheads⟩

/-- The gathering with one more item, whose lookaheads join those of its core. -/
def add (m : Gathering) (item : Item) : Gathering :=
  m.alter item.core fun former => former.getD ∅ ∪ item.lookaheads

/-- The gathering of the items of a list. -/
def ofList (l : List Item) : Gathering :=
  l.foldl add ∅

/-- Takes an item in, which is a change if it has a new core or new lookaheads. -/
def absorb (m : Gathering) (item : Item) : Gathering × Bool :=
  (m.add item,
    match m.get? item.core with
    | none => true
    | some former => former.grew (former ∪ item.lookaheads))

/-- Gathers the items that the present ones call for, and takes them in. -/
def pass (g : Grammar) : Pass Gathering :=
  ⟨fun m => sweep absorb (ofList (m.items.flatMap (Item.predicted g))).items m⟩

end Gathering

/-- The closure of a kernel by passes. -/
def ItemSet.closureByPasses (g : Grammar) (kernel : List Item) : Option ItemSet :=
  ((Gathering.pass g).saturate (Gathering.ofList kernel)).map fun m => .ofList m.items

end ShiftReduce
