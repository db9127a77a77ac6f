import ShiftReduce.Automaton.Canonical
import ShiftReduce.Item.Passes

/-!
# The canonical automaton with an index

The states found are looked up by fingerprints of their items.  States with the same
fingerprint need not be the same, so the items are compared as well, in the order in which the
states have been found.  A state that is found waits in a queue until its edges are drawn, and
while they are drawn others may be found.

The construction can also be read without any bound: closures are built by passes, and edges
are drawn for as long as the queue has a state.
-/

namespace ShiftReduce

/-- A stage of the construction: the states found so far with the edges drawn so far, the
numbers of the states by the fingerprints of their items, and the queue of the states whose
edges have not been drawn yet. -/
structure Worklist where
  nodes : Array Node
  index : OrderedMap UInt64 (List StateId)
  pending : List StateId

namespace Worklist

/-- The worklist without states. -/
def empty : Worklist :=
  ⟨#[], ∅, []⟩

/-- The items of a state. -/
def itemsOf (w : Worklist) (state : StateId) : ItemSet :=
  (w.nodes[state]?.map Node.items).getD ∅

/-- The states found so far whose items have a fingerprint. -/
def candidates (w : Worklist) (print : UInt64) : List StateId :=
  (w.index.get? print).getD []

section

variable (fingerprint : ItemSet → UInt64)

/-- Appends a state without edges, and puts it in the index and at the end of the queue. -/
def insert (w : Worklist) (s : ItemSet) : Worklist :=
  ⟨w.nodes.push ⟨s, ∅⟩,
    w.index.alter (fingerprint s) fun former => former.getD [] ++ [w.nodes.size],
    w.pending ++ [w.nodes.size]⟩

/-- The number of a set of items, which becomes the last state if it is not there yet. -/
def locate (w : Worklist) (s : ItemSet) : Worklist × StateId :=
  match (w.candidates (fingerprint s)).find? fun state => w.itemsOf state = s with
  | some state => (w, state)
  | none => (w.insert fingerprint s, w.nodes.size)

/-- Draws the edge of a state over a symbol. -/
def draw (g : Grammar) (state : StateId) (w : Worklist) (i : SymbolId) : Worklist :=
  let (w, target) := w.locate fingerprint ((w.itemsOf state).goto g i)
  { w with nodes := w.nodes.modify state fun node => ⟨node.items, node.edges.put i target⟩ }

/-- Takes the first state out of the queue and draws its edges. -/
def step (g : Grammar) (w : Worklist) : Option Worklist :=
  match w.pending with
  | [] => none
  | state :: rest =>
    some (((w.itemsOf state).nextSymbols g).foldl (draw fingerprint g state)
      { w with pending := rest })

/-- Draws edges until the queue is empty, at most for `n` states. -/
def run (g : Grammar) : Nat → Worklist → Worklist
  | 0, w => w
  | n + 1, w =>
    match w.step fingerprint g with
    | none => w
    | some w => run g n w

/-- The worklist at the end of the construction. -/
def complete (g : Grammar) : Worklist :=
  run fingerprint g (Automaton.maxStates g)
    (empty.locate fingerprint (ItemSet.closure g Automaton.initialKernel)).1

/-! ### Without a bound -/

/-- Draws the edge of a state over a symbol, where the closure is built by passes. -/
def drawByPasses (g : Grammar) (state : StateId) (w : Worklist) (i : SymbolId) :
    Option Worklist := do
  let s ← ItemSet.closureByPasses g ((w.itemsOf state).advance g i)
  let (w, target) := w.locate fingerprint s
  return { w with nodes := w.nodes.modify state fun node => ⟨node.items, node.edges.put i target⟩ }

/-- Draws edges until the queue is empty.  There is no value if it never is. -/
def drain (g : Grammar) (w : Worklist) : Option Worklist :=
  match w.pending with
  | [] => some w
  | state :: rest => do
    let w ← ((w.itemsOf state).nextSymbols g).foldlM (drawByPasses fingerprint g state)
      { w with pending := rest }
    w |>.drain g
partial_fixpoint

/-- The worklist at the end of the construction, if it ends. -/
def byPasses (g : Grammar) : Option Worklist := do
  let s ← ItemSet.closureByPasses g Automaton.initialKernel
  drain fingerprint g (empty.locate fingerprint s).1

end

end Worklist

/-- The automaton that is built with an index. -/
def Automaton.indexed (fingerprint : ItemSet → UInt64) (g : Grammar) : Automaton :=
  ⟨(Worklist.complete fingerprint g).nodes⟩

end ShiftReduce
