import ShiftReduce.Text.Layout
import ShiftReduce.Text.Quoted

/-!
# Lexical states

A tokenization is in one lexical state at a time, and it can call a state, so as to come
back to the present one later.  The states to come back to are kept on a stack; when none
is left, coming back leads to the default state.
-/

namespace ShiftReduce

/-- The name of the state that every tokenization starts in. -/
def defaultState : String := "default"

/-- The lexical state of a tokenization, with the states that calls have left, the most
recent first. -/
structure StateStack where
  current : String
  saved : List String
  deriving DecidableEq

namespace StateStack

/-- The states of a tokenization at its start. -/
def initial : StateStack :=
  ⟨defaultState, []⟩

/-- Moves to another state and forgets the current one. -/
def jump (s : StateStack) (state : String) : StateStack :=
  ⟨state, s.saved⟩

/-- Moves to another state and saves the current one. -/
def call (s : StateStack) (state : String) : StateStack :=
  ⟨state, s.current :: s.saved⟩

/-- Comes back to the state that was saved last, or else to the default state. -/
def leave (s : StateStack) : StateStack :=
  match s.saved with
  | [] => ⟨defaultState, []⟩
  | state :: saved => ⟨state, saved⟩

/-- A call and the return from it change nothing. -/
theorem leave_call (s : StateStack) (state : String) :
  (s.call state).leave = s
  := rfl

/-- A jump is forgotten on return. -/
theorem leave_jump (s : StateStack) (state : String) :
  (s.jump state).leave = s.leave
  := rfl

end StateStack

/-- What a reaction sees of the tokenization it acts on: the lexical states, and the
states that do not inherit the rules of the default state. -/
structure Situation where
  states : StateStack
  exclusive : List String

/-- A situation as text. -/
def Situation.inspect (situation : Situation) : String :=
  Text.partialRecord "LexController"
    [("state", Text.quoted situation.states.current),
     ("stack", Text.bracketed (situation.states.saved.reverse.map Text.quoted)),
     ("exclusive", Text.braced (situation.exclusive.map Text.quoted))]

end ShiftReduce
