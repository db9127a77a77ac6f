import ShiftReduce.Automaton.Canonical
import ShiftReduce.Automaton.Merged
import ShiftReduce.Table.Action

/-!
# Parse tables

A parse table has a row for each state of an automaton, and a row has an action for each
symbol that may be met in the state.  The table also knows the symbols of the grammar and
the shapes of its rules, so that a parser needs nothing else of the grammar.

A table is built over the merged automaton, which has fewer states.  If that makes a
conflict it is built over the canonical one instead, and if there are still conflicts they
stay in the table.
-/

namespace ShiftReduce

/-- What is known of the conflicts of a table. -/
inductive TableKind where
  /-- Built over the merged automaton, without conflicts. -/
  | merged
  /-- Built over the canonical automaton, without conflicts. -/
  | canonical
  /-- Built with conflicts. -/
  | conflicted
  deriving DecidableEq

/-- The kind of a table as text. -/
def TableKind.text : TableKind → String
  | merged => "LALR1"
  | canonical => "LR1"
  | conflicted => "Conflicted"

/-- Which automata a table is built over. -/
inductive Strategy where
  /-- The merged one, and in case of conflicts the canonical one. -/
  | mergedFirst
  /-- The canonical one. -/
  | canonicalOnly
  deriving DecidableEq

/-- The shape of a rule: its left-hand side and the length of its right-hand side. -/
structure Reduction where
  lhs : SymbolId
  length : Nat
  deriving DecidableEq

/-- The actions of a state by the symbols met in it. -/
abbrev Row := OrderedMap SymbolId Action

namespace Row

/-- Puts an action in the row, where it competes with one that is there already. -/
def claim (row : Row) (i : SymbolId) (action : Action) : Row :=
  row.alter i fun
    | none => action
    | some former => former.contend action

/-- Puts the actions of the edges of a state in the row: shifts over terminals, and gotos
over nonterminals. -/
def claimEdges (g : Grammar) (row : Row) (edges : OrderedMap SymbolId StateId) : Row :=
  edges.entries.foldl
    (fun row (i, target) =>
      row.claim i (if g.isTerminal i then .shift target else .goto target))
    row

/-- Puts the actions of an item in the row.  When the rule has been read to its end it is
reduced by on each lookahead, and the accepting rule is accepted at the end of input. -/
def claimItem (g : Grammar) (row : Row) (item : Item) : Row :=
  if item.isComplete g then
    match item.core.rule with
    | .accept => row.claim endOfInputId .accept
    | .user index =>
      item.lookaheads.members.foldl (fun row i => row.claim i (.reduce (.user index))) row
  else
    row

/-- The row of a state. -/
def ofNode (g : Grammar) (node : Node) : Row :=
  node.items.items.foldl (claimItem g) (claimEdges g ∅ node.edges)

/-- The conflicts of a row, with their symbols. -/
def conflicts (row : Row) : List (SymbolId × Action) :=
  row.entries.filter fun (_, action) => action.isConflict

end Row

/-- A row of actions for each state, the symbols by their numbers, and the shapes of the
rules. -/
structure ParseTable where
  kind : TableKind
  rows : Array Row
  symbols : SymbolTable
  reductions : Array Reduction

namespace ParseTable

/-- The rows of the states of an automaton. -/
def rowsOf (g : Grammar) (a : Automaton) : Array Row :=
  a.nodes.map (Row.ofNode g)

/-- The number of conflicts in some rows. -/
def countConflicts (rows : Array Row) : Nat :=
  (rows.toList.flatMap Row.conflicts).length

/-- The table over an automaton, of the given kind if it has no conflicts. -/
def ofAutomaton (g : Grammar) (a : Automaton) (kind : TableKind) : ParseTable :=
  let rows := rowsOf g a
  { kind := if countConflicts rows > 0 then .conflicted else kind
    rows
    symbols := g.symbols
    reductions := g.rules.map fun r => ⟨r.lhs, r.rhs.length⟩ }

/-- The table of a grammar. -/
def generate (g : Grammar) (strategy : Strategy) : Except ItemError ParseTable := do
  let canonical := Automaton.canonical g
  match strategy with
  | .canonicalOnly => return ofAutomaton g canonical .canonical
  | .mergedFirst =>
    let table := ofAutomaton g (← canonical.merged) .merged
    if table.kind = .conflicted then
      return ofAutomaton g canonical .canonical
    else
      return table

/-! ### Looking things up -/

/-- The number of states. -/
def stateCount (t : ParseTable) : Nat :=
  t.rows.size

/-- The number of places with a conflict. -/
def conflictCount (t : ParseTable) : Nat :=
  countConflicts t.rows

/-- Whether there is a conflict. -/
def isConflicted (t : ParseTable) : Bool :=
  0 < t.conflictCount

/-- The row of a state; a number without a state has an empty row. -/
def row (t : ParseTable) (state : StateId) : Row :=
  t.rows[state]?.getD ∅

/-- The action in a state on a symbol. -/
def action? (t : ParseTable) (state : StateId) (i : SymbolId) : Option Action :=
  (t.row state).get? i

/-- All conflicts with their states and symbols. -/
def conflicts (t : ParseTable) : List (StateId × SymbolId × Action) :=
  (t.rows.toList.mapIdx fun state row =>
    row.conflicts.map fun (i, action) => (state, i, action)).flatten

/-- The number of a symbol. -/
def symbolId? (t : ParseTable) (s : Symbol) : Option SymbolId :=
  t.symbols.id? s

/-- The symbol with a number. -/
def symbol? (t : ParseTable) (i : SymbolId) : Option Symbol :=
  t.symbols.symbol? i

/-- The shape of a rule of the language. -/
def reduction? (t : ParseTable) (rule : RuleId) : Option Reduction :=
  rule.index?.bind fun index => t.reductions[index]?

/-- The text of the symbol with a number, or the number where there is none. -/
def symbolText (t : ParseTable) (i : SymbolId) : String :=
  match t.symbol? i with
  | some s => s.text
  | none => s!"#{i}"

/-- A table as text: its kind, and its rows, one action on a line. -/
def display (t : ParseTable) : String :=
  Text.line s!"## kind: {t.kind.text}" ++
  String.join (t.rows.toList.mapIdx fun state row =>
    Text.line s!"#### State {stateText state}" ++
    Text.lines (row.entries.map fun (i, action) =>
      s!"- {t.symbolText i} => {action.text}"))

end ParseTable

end ShiftReduce
