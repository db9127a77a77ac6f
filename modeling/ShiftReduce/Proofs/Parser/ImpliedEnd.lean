import ShiftReduce.Proofs.Parser.EndOfInput
import ShiftReduce.Proofs.Parser.Simulation
import ShiftReduce.Proofs.Parser.Termination

/-!
# The end of the input is implied

Where the lexemes run out the engine goes on with ends of input at the offset at which the last
lexeme ends.  So it does not matter if there is an end of input at this offset after the lexemes:
whatever the table and the interpretation are, the engine makes the same steps and takes and calls
the same (`Input.Implies.simulates`).
-/

namespace ShiftReduce

variable {σ V E : Type}

/-- The offset at which the last one of some lexemes ends, or the given one if there is none. -/
def finishOfLast (start : Nat) (lexemes : List (Lexeme V)) : Nat :=
  (lexemes.getLast?.map Lexeme.finish).getD start

theorem finishOfLast_cons (start : Nat) (lexeme : Lexeme V) (lexemes : List (Lexeme V)) :
  finishOfLast start (lexeme :: lexemes) = finishOfLast lexeme.finish lexemes
  := by cases lexemes <;> simp [finishOfLast, List.getLast?_cons]

theorem Lexeme.finish_endOfInput (offset : Nat) :
  (Lexeme.endOfInput offset : Lexeme V).finish = offset
  := by simp [Lexeme.endOfInput, Lexeme.finish]

/-! ### Inputs -/

namespace Input

/-- The input with an end of input after its lexemes. -/
def ended (input : Input V) : Input V :=
  ⟨input.rest ++ [.endOfInput (finishOfLast input.finish input.rest)], input.finish⟩

/-- An input implies the end of input that the second one may have after its lexemes. -/
inductive Implies : Input V → Input V → Prop where
  | ended (input : Input V) : Implies input input.ended
  | refl (input : Input V) : Implies input input

namespace Implies

variable {input input' : Input V}

theorem head_eq (h : input.Implies input') :
  input'.head = input.head
  := by
  cases h with
  | refl => rfl
  | ended =>
      obtain ⟨rest, finish⟩ := input
      cases rest <;> rfl

/-- An end of input that has been taken makes no difference any more. -/
theorem tail (h : input.Implies input') :
  input.tail.Implies input'.tail
  := by
  cases h with
  | refl => apply Implies.refl
  | ended =>
      obtain ⟨rest, finish⟩ := input
      cases rest with
      | nil =>
          have htail : (Input.ended ⟨[], finish⟩ : Input V).tail = ⟨[], finish⟩ :=
            congrArg (Input.mk []) (Lexeme.finish_endOfInput finish)
          rw [htail]
          apply Implies.refl
      | cons lexeme rest =>
          have htail : (Input.ended ⟨lexeme :: rest, finish⟩).tail
              = Input.ended ⟨rest, lexeme.finish⟩ := by
            rw [Input.ended, finishOfLast_cons]
            rfl
          rw [htail]
          apply Implies.ended

end Implies

end Input

/-! ### Steps -/

/-- Two configurations differ in an end of input at most, which is implied. -/
inductive Configuration.Implies : Configuration σ V → Configuration σ V → Prop where
  | reading (states : List StateId) (values : List V) {input input' : Input V} (context : σ)
      (h : input.Implies input') :
      Implies (.reading states values input context) (.reading states values input' context)

namespace Input.Implies

variable {m : Engine σ V} {states : List StateId} {values : List V} {input input' : Input V}
  {context : σ}

/-- A shift takes the same lexeme. -/
theorem shift (h : input.Implies input') (target : StateId) :
  Step.Matches Configuration.Implies id
    (m.shift (.reading states values input context) target)
    (m.shift (.reading states values input' context) target)
  := by
  simp only [Engine.shift, Configuration.reading, h.head_eq]
  obtain ⟨message | value, context'⟩ := m.interpretation.terminal input.head context
  · apply Step.Matches.stop
  · apply Step.Matches.next (.reading _ _ _ h.tail)

/-- A reduction takes no lexeme. -/
theorem reduce (h : input.Implies input') (rule : RuleId) :
  Step.Matches Configuration.Implies id
    (m.reduce (.reading states values input context) rule)
    (m.reduce (.reading states values input' context) rule)
  := by
  rcases m.reduce_reading states values context rule with
    ⟨e, context', hstop⟩ | ⟨states', values', context', hnext⟩
  · rw [hstop, hstop]
    apply Step.Matches.stop
  · rw [hnext, hnext]
    apply Step.Matches.next (.reading _ _ _ h)

/-- Accepting looks at the same lexeme. -/
theorem accept (h : input.Implies input') (q : StateId) :
  Step.Matches Configuration.Implies id
    (Engine.accept (.reading states values input context) q)
    (Engine.accept (.reading states values input' context) q)
  := by
  have hfirst : firstSymbol input'.rest.tail = firstSymbol input.rest.tail := by
    rw [← Input.rest_tail, ← Input.rest_tail, ← Input.symbol_head, ← Input.symbol_head,
      h.tail.head_eq]
  rw [Engine.accept_reading, Engine.accept_reading, hfirst, h.tail.head_eq]
  split
  · cases values with
    | nil => apply Step.Matches.stop
    | cons value values => apply Step.Matches.stop
  · apply Step.Matches.stop

/-- The engine goes in step with itself where one input has the end that the other implies. -/
theorem simulates (m : Engine σ V) :
  m.Simulates m Configuration.Implies id
  := by
  rintro _ _ @⟨states, values, input, input', context, h⟩
  apply Engine.step_related
  · rfl
  · rfl
  · apply congrArg Lexeme.symbol h.head_eq
  · intro e
    simp only [Engine.fail, Configuration.reading, h.head_eq]
    apply Step.Matches.stop
  · intro q x target _ _
    apply h.shift
  · intro id
    apply h.reduce
  · intro q x _ _
    apply h.accept

/-- The same can be seen of the steps. -/
theorem events_eq (m : Engine σ V) (c c' : Configuration σ V) (h : c.Implies c') :
  m.events c' = m.events c
  := by
  obtain @⟨states, values, input, input', context, h⟩ := h
  simp only [Engine.events, Engine.action?, Configuration.reading, h.head_eq, h.tail.head_eq]
  rfl

end Input.Implies

/-! ### Parses -/

theorem Configuration.Implies.lookahead_eq {c c' : Configuration σ V} (h : c.Implies c') :
  c'.lookahead = c.lookahead
  := by
  cases h with
  | reading states values context h => apply h.head_eq

theorem Configuration.Implies.initial (lexemes : List (Lexeme V)) (context : σ) :
  Configuration.Implies (.initial lexemes context)
    (.initial (lexemes ++ [.endOfInput (finishOfLast 0 lexemes)]) context)
  := .reading _ _ context (.ended ⟨lexemes, 0⟩)

namespace ParseTable.Generated

/-- Parsing with a generated table implies the end of the input, whatever the rules and the
interpretation of the parser are.  If an end of input comes after some lexemes, at the offset at
which the last of them ends, the parse takes the same lexemes and makes the same calls in the same
order as without it, until both return the same value or the same error. -/
theorem implies_endOfInput [PatternLibrary] {p : Parser σ V E} {strategy : Strategy}
    (hp : p.table.Generated strategy) (lexemes : List (Lexeme V)) (context : σ) :
  p.parseLexemes (lexemes ++ [.endOfInput (finishOfLast 0 lexemes)]) context
      = p.parseLexemes lexemes context
    ∧ ∃ n, p.engine.run n (.initial lexemes context) = some (p.parseLexemes lexemes context)
      ∧ p.engine.run n (.initial (lexemes ++ [.endOfInput (finishOfLast 0 lexemes)]) context)
        = some (p.parseLexemes lexemes context)
      ∧ p.engine.history n (lexemes ++ [.endOfInput (finishOfLast 0 lexemes)]) context
        = p.engine.history n lexemes context
  := by
  have hsimulates := Input.Implies.simulates p.engine
  have hinitial := Configuration.Implies.initial lexemes context
  obtain ⟨n, hn⟩ := hp.ends_parseLexemes lexemes context
  refine ⟨hsimulates.parse_eq hinitial rfl, n, hn, ?_, ?_⟩
  · rw [hsimulates.run_eq hinitial, hn]
    rfl
  · rw [Engine.history, Engine.history, hinitial.lookahead_eq,
      hsimulates.trace_eq (Input.Implies.events_eq p.engine) hinitial]

/-- The parser with the rules in the opposite order returns the same tree for a word of the small
language with and without an end of input at the offset 2. -/
theorem implies_endOfInput_small :
  ∃ t, (swapped.parseLexemes Language.smallWord ()).value = .ok t
    ∧ (swapped.parseLexemes (Language.smallWord ++ [.endOfInput 2]) ()).value = .ok t
  := by
  obtain ⟨t, ht⟩ := swapped.engine.exists_value_of_run Language.smallWord () 5
    (by decide +kernel)
  have htable : swapped.table.Generated .mergedFirst :=
    (Parser.small_generated .mergedFirst).table_generated
  have hfinish : finishOfLast 0 Language.smallWord = 2 := by decide
  obtain ⟨hparse, -⟩ := implies_endOfInput htable Language.smallWord ()
  rw [hfinish] at hparse
  exact ⟨t, ht, hparse ▸ ht⟩

end ParseTable.Generated

end ShiftReduce
