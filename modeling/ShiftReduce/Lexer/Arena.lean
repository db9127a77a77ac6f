import ShiftReduce.Lexer.Basic
import ShiftReduce.OrderedMap

/-!
# Arenas of rules

An arena keeps values in slots, and apart from these the empty slots and the slots of the
labels.  The three have to go together: what has a label must be in the slot of the label, and
a slot must not be listed as empty twice or while something is in it.

A controller keeps the rules of a running tokenization in an arena.  The rules of the lexer
have no labels.  A rule that is added is compiled first, and if this fails nothing else is done.
-/

namespace ShiftReduce

/-! ### Arenas -/

/-- The slots in order, the numbers of the empty ones, the one emptied last first, and the slots
of the labels. -/
structure Arena (α : Type) where
  slots : List (Option α)
  free : List Nat
  labels : OrderedMap String Nat

namespace Arena

variable {α : Type}

/-- The arena without slots. -/
def empty : Arena α :=
  ⟨[], [], ∅⟩

/-- Puts a value into the slot emptied last, or else into a new one, and tells which. -/
def insert (a : Arena α) (value : α) : Arena α × Nat :=
  match a.free with
  | [] => ({ a with slots := a.slots ++ [some value] }, a.slots.length)
  | slot :: free => ({ a with slots := a.slots.set slot (some value), free }, slot)

/-- Takes the value out of a slot, and hands it over. -/
def remove (a : Arena α) (slot : Nat) : Arena α × Option α :=
  match a.slots[slot]? with
  | some (some value) =>
    ({ a with slots := a.slots.set slot none, free := slot :: a.free }, some value)
  | _ => (a, none)

/-- Takes out the value under a label, and tells whether there was one. -/
def removeLabelled (a : Arena α) (label : String) : Arena α × Bool :=
  match a.labels.get? label with
  | some slot =>
    let (a, value) := remove { a with labels := a.labels.erase label } slot
    (a, value.isSome)
  | none => (a, false)

/-- Puts a value under a label, in place of the one that was there. -/
def insertLabelled (a : Arena α) (label : String) (value : α) : Arena α :=
  let (a, slot) := (a.removeLabelled label).1.insert value
  { a with labels := a.labels.put label slot }

/-- Puts values in one after the other. -/
def ofList (values : List α) : Arena α :=
  values.foldl (fun a value => (a.insert value).1) empty

/-- The values in the order of their slots. -/
def values (a : Arena α) : List α :=
  a.slots.filterMap id

end Arena

/-! ### Controllers -/

variable [PatternLibrary]

/-- The lexical states, the rules in an arena and the exclusive states of a running
tokenization. -/
structure Controller (V E : Type) where
  states : StateStack
  rules : Arena (CompiledRule V E)
  exclusive : List String

namespace Controller

variable {V E : Type}

/-- A controller in the default state, with the rules of a lexer. -/
def ofLexer (lexer : Lexer V E) : Controller V E :=
  ⟨.initial, .ofList lexer.rules, lexer.exclusive⟩

/-- Adds a rule under a label, or tells why it cannot be compiled. -/
def addRule (c : Controller V E) (label : String) (rule : LexRule V E) :
    Controller V E × Except PatternError Unit :=
  match rule.compile with
  | .ok compiled =>
    ({ c with
      exclusive := (c.exclusive ++ rule.exclusiveStates).eraseDups
      rules := c.rules.insertLabelled label compiled }, .ok ())
  | .error e => (c, .error e)

/-- Removes the rule under a label, and tells whether there was one. -/
def removeRule (c : Controller V E) (label : String) : Controller V E × Bool :=
  let (rules, found) := c.rules.removeLabelled label
  ({ c with rules }, found)

end Controller

end ShiftReduce
