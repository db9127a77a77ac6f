import ShiftReduce.Lexer.Basic
import ShiftReduce.Parser.Interpretation
import ShiftReduce.Table.Basic

/-!
# The parsing engine

The engine goes from configuration to configuration as a parse table says.  A configuration
has a stack of states and a stack of values, the lexeme to be read next and the lexemes
after it.  A step reads that lexeme, or replaces the values of the right-hand side of a
rule by that of its left-hand side, or ends the parse.

Where the lexemes run out the engine supplies as many ends of input as are asked for.
-/

namespace ShiftReduce

/-- Why a parse fails. -/
inductive ParseError where
  /-- The text cannot be split into lexemes. -/
  | lex (error : LexError)
  /-- The symbol cannot be read in the state. -/
  | unexpected (state : StateId) (symbol : Symbol) (offset : Nat)
  /-- Several actions compete for the symbol in the state. -/
  | conflict (state : StateId) (symbol : Symbol) (offset : Nat)
  /-- There is no state to move to after a reduction. -/
  | missingGoto (state : StateId) (symbol : Symbol)
  /-- The table does not know the symbol. -/
  | unknownSymbol (symbol : Symbol) (offset : Nat)
  /-- The table reduces by a rule that the language does not have. -/
  | unknownRule (rule : RuleId)
  /-- The interpretation failed with a message. -/
  | interpretation (message : String)
  /-- There are fewer states than a reduction needs. -/
  | emptyStateStack
  /-- There are fewer values than a reduction needs. -/
  | emptyValueStack
  /-- The reductions go on for ever. -/
  | endless
  deriving DecidableEq

/-- The wording of an error. -/
def ParseError.message : ParseError → String
  | lex error => s!"from lexer: {error.message}"
  | unexpected state symbol offset =>
    s!"unexpected token `{symbol.text}' at offset {offset} (state {stateText state})"
  | conflict state symbol offset =>
    s!"conflicting actions for `{symbol.text}' at offset {offset} (state {stateText state})"
  | missingGoto state symbol => s!"no goto for `{symbol.text}' from state {stateText state}"
  | unknownSymbol symbol offset =>
    s!"the token `{symbol.text}' at offset {offset} is not a symbol of the grammar"
  | unknownRule rule => s!"the table refers to rule {rule.text} missing from the language"
  | interpretation _ => "callback failed"
  | emptyStateStack => "empty state stack"
  | emptyValueStack => "empty value stack"
  | endless => "the reductions do not end"

/-! ### Configurations -/

/-- The lexemes that have not been looked at, and the offset at which the last one that has
been looked at ends. -/
structure Input (V : Type) where
  rest : List (Lexeme V)
  finish : Nat := 0

namespace Input

variable {V : Type}

/-- The next lexeme, or else the end of the input. -/
def head (input : Input V) : Lexeme V :=
  match input.rest with
  | [] => .endOfInput input.finish
  | lexeme :: _ => lexeme

/-- The input after the next lexeme. -/
def tail (input : Input V) : Input V :=
  match input.rest with
  | [] => input
  | lexeme :: rest => ⟨rest, lexeme.finish⟩

end Input

/-- A moment of a parse.  The tops of the stacks come first. -/
structure Configuration (σ V : Type) where
  states : List StateId
  values : List V
  lookahead : Lexeme V
  input : Input V
  context : σ

/-- How a parse has ended: with a value or an error, and with the context that the
interpretation has left. -/
structure Parsed (σ V : Type) where
  value : Except ParseError V
  context : σ

/-- What a step leads to. -/
inductive Step (σ V : Type) where
  | next (c : Configuration σ V)
  | stop (parsed : Parsed σ V)

/-- The start of a parse. -/
def Configuration.initial {σ V : Type} (lexemes : List (Lexeme V)) (context : σ) :
    Configuration σ V :=
  let input : Input V := ⟨lexemes, 0⟩
  ⟨[startState], [], input.head, input.tail, context⟩

/-! ### Steps -/

/-- A parse table, with the rules that its rule numbers stand for and the interpretation
that gives the values. -/
structure Engine (σ V : Type) where
  rules : List (Production V)
  table : ParseTable
  interpretation : Interpretation σ V

namespace Engine

variable {σ V : Type}

/-- Ends the parse with an error. -/
def fail (c : Configuration σ V) (e : ParseError) : Step σ V :=
  .stop ⟨.error e, c.context⟩

/-- Reads the lookahead and moves to a state. -/
def shift (m : Engine σ V) (c : Configuration σ V) (target : StateId) : Step σ V :=
  match m.interpretation.terminal c.lookahead c.context with
  | (.error message, context) => .stop ⟨.error (.interpretation message), context⟩
  | (.ok value, context) =>
    .next
      { states := target :: c.states
        values := value :: c.values
        lookahead := c.input.head
        input := c.input.tail
        context }

/-- The rule with a number, and its shape. -/
def rule? (m : Engine σ V) (id : RuleId) : Option (Production V × Reduction) := do
  return (← m.rules[← id.index?]?, ← m.table.reduction? id)

/-- Replaces the values of a right-hand side by the value of the left-hand side, and moves
to the state that the left-hand side leads to from below. -/
def reduce (m : Engine σ V) (c : Configuration σ V) (id : RuleId) : Step σ V :=
  match m.rule? id with
  | none => fail c (.unknownRule id)
  | some (rule, shape) =>
    if c.values.length < shape.length then
      fail c .emptyValueStack
    else
      match c.states.drop shape.length with
      | [] => fail c .emptyStateStack
      | top :: below =>
        let children := (c.values.take shape.length).reverse
        match m.interpretation.nonterminal rule children c.context with
        | (.error message, context) => .stop ⟨.error (.interpretation message), context⟩
        | (.ok value, context) =>
          match m.table.action? top shape.lhs with
          | some (.goto target) =>
            .next { c with
              states := target :: top :: below
              values := value :: c.values.drop shape.length
              context }
          | _ => .stop ⟨.error (.missingGoto top rule.lhs), context⟩

/-- Ends the parse with success, unless something comes after the end of the input. -/
def accept (c : Configuration σ V) (state : StateId) : Step σ V :=
  let following := c.input.head
  if following.isEndOfInput then
    match c.values with
    | [] => fail c .emptyValueStack
    | value :: _ => .stop ⟨.ok value, c.context⟩
  else
    fail c (.unexpected state following.symbol following.offset)

/-- A step of the parse. -/
def step (m : Engine σ V) (c : Configuration σ V) : Step σ V :=
  match c.states with
  | [] => fail c .emptyStateStack
  | state :: _ =>
    let symbol := c.lookahead.symbol
    let offset := c.lookahead.offset
    match m.table.symbolId? symbol with
    | none => fail c (.unknownSymbol symbol offset)
    | some i =>
      match m.table.action? state i with
      | some (.shift target) => m.shift c target
      | some (.reduce id) => m.reduce c id
      | some .accept => accept c state
      | some (.conflict _ _) => fail c (.conflict state symbol offset)
      | some (.goto _) | none => fail c (.unexpected state symbol offset)

/-! ### Runs -/

/-- Makes a number of steps, or fewer if the parse ends earlier, and says how it has ended
if it has. -/
def run (m : Engine σ V) : Nat → Configuration σ V → Option (Parsed σ V)
  | 0, _ => none
  | n + 1, c =>
    match m.step c with
    | .stop parsed => some parsed
    | .next c => m.run n c

/-- More steps change nothing after the end. -/
theorem run_add {m : Engine σ V} {n : Nat} {c : Configuration σ V} {parsed : Parsed σ V}
    (h : m.run n c = some parsed) (k : Nat) :
  m.run (n + k) c = some parsed
  := by
  induction n generalizing c with
  | zero => cases h
  | succ n ih =>
    rw [Nat.succ_add, run]
    rw [run] at h
    cases hstep : m.step c with
    | stop p => simpa [hstep] using h
    | next c => simp only [hstep] at h ⊢; exact ih h

/-- Makes steps until the parse has ended, and says how it has. -/
def loop (m : Engine σ V) (c : Configuration σ V) : Option (Parsed σ V) :=
  match m.step c with
  | .stop parsed => some parsed
  | .next c => m |>.loop c
partial_fixpoint

/-- The loop ends as a run of some number of steps does. -/
theorem loop_eq_some_iff {m : Engine σ V} {c : Configuration σ V} {parsed : Parsed σ V} :
  m.loop c = some parsed ↔ ∃ n, m.run n c = some parsed
  := by
  constructor
  · intro h
    refine loop.partial_correctness m (fun c parsed => ∃ n, m.run n c = some parsed) ?_ c parsed h
    intro loop ih c parsed h
    cases hstep : m.step c with
    | stop p =>
        rw [hstep] at h
        refine ⟨1, ?_⟩
        simpa [run, hstep] using h
    | next c' =>
        rw [hstep] at h
        obtain ⟨n, hn⟩ := ih c' parsed h
        refine ⟨n + 1, ?_⟩
        simpa [run, hstep] using hn
  · rintro ⟨n, hn⟩
    induction n generalizing c with
    | zero => cases hn
    | succ n ih =>
        rw [loop]
        rw [run] at hn
        cases hstep : m.step c with
        | stop p => simpa [hstep] using hn
        | next c' =>
            simp only [hstep] at hn ⊢
            apply ih hn

/-- Parses some lexemes.  A parse that goes on for ever has no other result than that. -/
def parse (m : Engine σ V) (lexemes : List (Lexeme V)) (context : σ) : Parsed σ V :=
  (m.loop (.initial lexemes context)).getD ⟨.error .endless, context⟩

end Engine

end ShiftReduce
