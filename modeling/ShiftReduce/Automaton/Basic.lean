import ShiftReduce.Item.Set
import ShiftReduce.OrderedMap

/-!
# Automata

The states of an automaton are sets of items, and are numbered from the start state `0` on.
An edge leads from a state, over a symbol, to another state.
-/

namespace ShiftReduce

/-- The number of a state. -/
abbrev StateId := Nat

/-- A state number as text, with at least two digits. -/
def stateText (state : StateId) : String :=
  Text.padded 2 '0' state

/-- The number of the start state. -/
def startState : StateId := 0

/-- A state: its items, and where its edges lead. -/
structure Node where
  items : ItemSet
  edges : OrderedMap SymbolId StateId

/-- States by their numbers. -/
structure Automaton where
  nodes : Array Node

namespace Automaton

/-- The number of states. -/
def size (a : Automaton) : Nat :=
  a.nodes.size

/-- The state with a number. -/
def node? (a : Automaton) (state : StateId) : Option Node :=
  a.nodes[state]?

/-- The state that the edge of a state over a symbol leads to. -/
def target? (a : Automaton) (state : StateId) (i : SymbolId) : Option StateId :=
  (a.node? state).bind fun node => node.edges.get? i

/-- A state as text. -/
def nodeText (g : Grammar) (state : StateId) (node : Node) : String :=
  Text.line s!"#### State {stateText state}" ++
  Text.line "## items" ++
  node.items.display g ++
  Text.line "## edges" ++
  Text.lines (node.edges.entries.map fun (i, target) =>
    s!"- {g.symbolText i} => {stateText target}")

/-- An automaton as text, with an empty line between any two neighbouring states. -/
def display (g : Grammar) (a : Automaton) : String :=
  Text.joined "\n" (a.nodes.toList.mapIdx (nodeText g))

end Automaton

end ShiftReduce
