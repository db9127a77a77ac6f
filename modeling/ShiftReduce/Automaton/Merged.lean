import ShiftReduce.Automaton.Basic

/-!
# The merged automaton

States with the same cores become one, whose items have the lookaheads of all of them.  The
merged states are numbered in the order in which their cores first occur, so that the start
state keeps its number, and the edges of the former states become edges of the states they
are part of.
-/

namespace ShiftReduce

namespace Automaton

/-- The classes of states that have the same cores: the merged items of each class, and the
class of each state. -/
structure Classes where
  merged : Array ItemSet
  classOf : Array StateId

/-- The state after those that have been put into classes joins the class with its cores,
or else makes a class of its own. -/
def Classes.place (c : Classes) (s : ItemSet) : Except ItemError Classes :=
  match c.merged.findIdx? (·.sameCores s) with
  | some k => do
    let merged ← (c.merged[k]?.getD ∅).merge s
    return ⟨c.merged.setIfInBounds k merged, c.classOf.push k⟩
  | none => .ok ⟨c.merged.push s, c.classOf.push c.merged.size⟩

/-- The classes of the states of an automaton. -/
def classes (a : Automaton) : Except ItemError Classes :=
  a.nodes.toList.foldlM (fun c node => c.place node.items) ⟨#[], #[]⟩

/-- The edges of the classes: for each edge of a state, one from the class of the state to
the class of its target. -/
def classEdges (a : Automaton) (c : Classes) : Array (OrderedMap SymbolId StateId) :=
  (a.nodes.zip c.classOf).foldl
    (fun slots (node, k) =>
      slots.modify k fun slot =>
        node.edges.entries.foldl
          (fun slot (i, target) => slot.put i (c.classOf[target]?.getD startState)) slot)
    (Array.replicate c.merged.size ∅)

/-- The automaton in which states with the same cores are one. -/
def merged (a : Automaton) : Except ItemError Automaton := do
  let c ← a.classes
  return ⟨(c.merged.zip (a.classEdges c)).map fun (items, edges) => ⟨items, edges⟩⟩

/-! ### With an index -/

/-- Classes of states, and the numbers of the classes by the fingerprints of their cores. -/
structure IndexedClasses extends Classes where
  index : OrderedMap UInt64 (List StateId)

namespace IndexedClasses

/-- No classes. -/
def empty : IndexedClasses :=
  ⟨⟨#[], #[]⟩, ∅⟩

/-- The items of a class. -/
def itemsOf (c : IndexedClasses) (k : StateId) : ItemSet :=
  c.merged[k]?.getD ∅

/-- The classes whose cores have a fingerprint. -/
def candidates (c : IndexedClasses) (print : UInt64) : List StateId :=
  (c.index.get? print).getD []

/-- The state after those that have been put into classes joins the first candidate with its
cores, or else makes a class of its own, which is listed under its fingerprint. -/
def place (fingerprint : List Core → UInt64) (c : IndexedClasses) (s : ItemSet) :
    Except ItemError IndexedClasses :=
  match (c.candidates (fingerprint s.cores)).find? fun k => (c.itemsOf k).sameCores s with
  | some k => do
    let merged ← (c.itemsOf k).merge s
    return ⟨⟨c.merged.setIfInBounds k merged, c.classOf.push k⟩, c.index⟩
  | none =>
    .ok ⟨⟨c.merged.push s, c.classOf.push c.merged.size⟩,
      c.index.alter (fingerprint s.cores) fun former => former.getD [] ++ [c.merged.size]⟩

end IndexedClasses

/-- The automaton in which states with the same cores are one, where the classes are looked up
by fingerprints. -/
def mergedByIndex (fingerprint : List Core → UInt64) (a : Automaton) :
    Except ItemError Automaton := do
  let c ← a.nodes.toList.foldlM (fun c node => c.place fingerprint node.items)
    IndexedClasses.empty
  return ⟨(c.merged.zip (a.classEdges c.toClasses)).map fun (items, edges) => ⟨items, edges⟩⟩

end Automaton

end ShiftReduce
