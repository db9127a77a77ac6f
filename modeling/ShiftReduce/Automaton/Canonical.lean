import ShiftReduce.Automaton.Basic

/-!
# The canonical automaton

The start state is the closure of the accepting rule with the dot at the front and the end
of input after it.  From each state there is an edge over each symbol after a dot, to the
state that the dot reaches by moving over it.  States are numbered as they are found, and
they are left in the order of their numbers: while the edges of one state are drawn, those
of all earlier states have been drawn, and those of all later ones have not.
-/

namespace ShiftReduce

/-- A stage of the construction: the states found so far, and the edges of the first ones
among them. -/
structure Exploration where
  found : Array ItemSet
  edges : Array (OrderedMap SymbolId StateId)

namespace Exploration

/-- The number of a set of items among the states found, where it becomes the last one if
it is not there yet. -/
def locate (found : Array ItemSet) (s : ItemSet) : Array ItemSet × StateId :=
  match found.findIdx? (· = s) with
  | some state => (found, state)
  | none => (found.push s, found.size)

/-- The edges from a set of items over the given symbols, and the states found with those
they lead to. -/
def leave (g : Grammar) (s : ItemSet) (found : Array ItemSet) (symbols : List SymbolId) :
    Array ItemSet × OrderedMap SymbolId StateId :=
  symbols.foldl
    (fun (found, edges) i =>
      let (found, target) := locate found (s.goto g i)
      (found, edges.put i target))
    (found, ∅)

/-- Draws the edges of the first state that has none yet. -/
def step (g : Grammar) (e : Exploration) : Option Exploration :=
  match e.found[e.edges.size]? with
  | none => none
  | some s =>
    let (found, edges) := leave g s e.found (s.nextSymbols g)
    some ⟨found, e.edges.push edges⟩

/-- Draws edges until all states have theirs, at most for `n` states. -/
def run (g : Grammar) : Nat → Exploration → Exploration
  | 0, e => e
  | n + 1, e =>
    match e.step g with
    | none => e
    | some e => run g n e

end Exploration

namespace Automaton

/-- The items of the start state before closure. -/
def initialKernel : List Item :=
  [⟨⟨.accept, 0⟩, .singleton endOfInputId⟩]

/-- The rules of a grammar with the dot in each place that it can have. -/
def cores (g : Grammar) : List Core :=
  g.numberedRules.flatMap fun (id, r) => (List.range (r.rhs.length + 1)).map (Core.mk id)

/-- There are no more states than sets of items: each core of the grammar is in such a set,
with a set of symbols of the grammar as lookaheads, or is not. -/
def maxStates (g : Grammar) : Nat :=
  Nat.pow 2 ((cores g).length * (g.symbolCount + 1))

/-- The canonical automaton of a grammar. -/
def canonical (g : Grammar) : Automaton :=
  let e := Exploration.run g (maxStates g) ⟨#[ItemSet.closure g initialKernel], #[]⟩
  ⟨(e.found.zip e.edges).map fun (items, edges) => ⟨items, edges⟩⟩

end Automaton

end ShiftReduce
