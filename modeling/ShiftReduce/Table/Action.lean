import ShiftReduce.Automaton.Basic

/-!
# Actions

What a parser does in a state when it meets a symbol.  Several actions that compete for the
same place become a conflict, which lists the states to shift to and the rules to reduce by,
each of them once.
-/

namespace ShiftReduce

/-- What to do in a state on meeting a symbol. -/
inductive Action where
  /-- Read the symbol and move to a state. -/
  | shift (target : StateId)
  /-- Replace the right-hand side of a rule by its left-hand side. -/
  | reduce (rule : RuleId)
  /-- After such a replacement, move to a state. -/
  | goto (target : StateId)
  /-- Stop with success. -/
  | accept
  /-- Several actions compete. -/
  | conflict (shifts : List StateId) (reduces : List RuleId)
  deriving DecidableEq

namespace Action

/-- Whether several actions compete. -/
def isConflict : Action → Bool
  | conflict _ _ => true
  | _ => false

/-- The states an action moves to. -/
def targets : Action → List StateId
  | shift target => [target]
  | goto target => [target]
  | conflict shifts _ => shifts
  | _ => []

/-- The rules an action reduces by; accepting is reducing by the accepting rule. -/
def rules : Action → List RuleId
  | reduce rule => [rule]
  | accept => [.accept]
  | conflict _ reduces => reduces
  | _ => []

/-- The first list followed by those members of the second that are not there yet. -/
def appendNew {α : Type} [DecidableEq α] (l l' : List α) : List α :=
  l'.foldl (fun l a => if a ∈ l then l else l ++ [a]) l

/-- The conflict of two actions that compete. -/
def contend (a b : Action) : Action :=
  conflict (appendNew a.targets b.targets) (appendNew a.rules b.rules)

/-- An action as text. -/
def text : Action → String
  | shift target => s!"shift({stateText target})"
  | reduce rule => s!"reduce({rule.text})"
  | goto target => s!"goto({stateText target})"
  | accept => "accept"
  | conflict shifts reduces =>
    "conflict(shift=[" ++ Text.joined " " (shifts.map stateText) ++ "], reduce=[" ++
      Text.joined " " (reduces.map RuleId.text) ++ "])"

end Action

end ShiftReduce
