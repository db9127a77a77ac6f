import ShiftReduce.Lexer.Matcher
import ShiftReduce.Lexer.Slots

/-!
# Running tokenizations

A running tokenization is in a lexical state and has a number of rules.  The rules of the
current state are visible in it, and unless the state is exclusive so are those of the
default state.  Among the visible rules that match, the one with the highest priority is
chosen, of several such the one with the longest match, and of several such again the one
in the first slot.

A reaction changes the lexical state and the rules of the tokenization it acts on.  Rules
are added as rules of a language are, and a rule that cannot be compiled is not added.  The
events that have been reported are not part of a tokenization, since they stay when it ends.
-/

namespace ShiftReduce

variable [PatternLibrary]

/-- The lexical states, the rules and the exclusive states of a running tokenization. -/
structure Tokenization (V E : Type) where
  states : StateStack
  rules : Slots (CompiledRule V E)
  exclusive : List String

/-- What has come of a reaction: all events that have been reported so far, the tokenization as
it has left it, and its outcome or the message it gave up with. -/
structure Reacted (V E : Type) where
  events : List E
  after : Tokenization V E
  outcome : Except String (Outcome V)

namespace Tokenization

variable {V E : Type}

/-! ### Rules -/

/-- A tokenization in the default state with some rules and exclusive states. -/
def initial (rules : List (CompiledRule V E)) (exclusive : List String) : Tokenization V E :=
  ⟨.initial, .ofList rules, exclusive⟩

/-- What a reaction sees of a tokenization. -/
def situation (t : Tokenization V E) : Situation :=
  ⟨t.states, t.exclusive⟩

/-- Adds a rule under a label, in place of the one that was added under it before.  The
states that it makes exclusive stay so. -/
def addRule (t : Tokenization V E) (label : String) (rule : LexRule V E) :
    Except PatternError (Tokenization V E) := do
  let compiled ← rule.compile
  return { t with
    rules := t.rules.insert label compiled
    exclusive := (t.exclusive ++ rule.exclusiveStates).eraseDups }

/-- Removes the rule that was added under a label. -/
def removeRule (t : Tokenization V E) (label : String) : Tokenization V E :=
  { t with rules := t.rules.erase label }

/-! ### Matches -/

/-- Whether the current state inherits the rules of the default state. -/
def inherits (t : Tokenization V E) : Bool :=
  t.states.current ≠ defaultState && ! t.exclusive.contains t.states.current

/-- Whether a rule can be used in the current state. -/
def isVisible (t : Tokenization V E) (rule : LexRule V E) : Bool :=
  rule.belongsTo t.states.current || t.inherits && rule.belongsTo defaultState

/-- The visible rules in the order of their slots. -/
def visibleRules (t : Tokenization V E) : List (CompiledRule V E) :=
  t.rules.values.filter fun rule => t.isVisible rule.toLexRule

/-- The preferred match at the start of a text. -/
def match? (t : Tokenization V E) (text : List Char) : Option (Match V E) :=
  Match.best? (t.visibleRules.filterMap fun rule => rule.match? text)

/-! ### Reactions -/

/-- Runs a reaction, when some events have been reported. -/
def react (t : Tokenization V E) (events : List E) :
    Reaction (LexRule V E) V E → Reacted V E
  | .finish outcome => ⟨events, t, .ok outcome⟩
  | .fail message => ⟨events, t, .error message⟩
  | .jump state next => react { t with states := t.states.jump state } events next
  | .call state next => react { t with states := t.states.call state } events next
  | .leave next => react { t with states := t.states.leave } events next
  | .add label rule next =>
    match t.addRule label rule with
    | .ok after => react after events (next (.ok ()))
    | .error e => react t events (next (.error e))
  | .remove label next => react (t.removeRule label) events (next (t.rules.isBound label))
  | .look next => react t events (next t.situation)
  | .report event next => react t (events ++ [event]) next
  | .review next => react t events (next events)

/-- Runs the reaction of the rule of a match.  Without one the match is emitted. -/
def reactTo (t : Tokenization V E) (events : List E) (m : Match V E) (matched : String) :
    Reacted V E :=
  match m.rule.reaction with
  | some reaction => t.react events (reaction matched m.rule.symbol)
  | none => ⟨events, t, .ok .emit⟩

end Tokenization

end ShiftReduce
