import ShiftReduce.Proofs.Parser.Course

/-!
# Traces of a parse

What can be seen of a parse from outside are the lexemes that it takes from the input and the
calls that it makes of the interpretation, in the order in which they happen.  An interpretation
that writes down the calls that it is told of has written down those of the trace in the end
(`Engine.context_run`).
-/

namespace ShiftReduce

/-- What a parse does that can be seen from outside. -/
inductive Event (V : Type) where
  /-- It takes a lexeme from the input. -/
  | read (lexeme : Lexeme V)
  /-- It calls the interpretation. -/
  | call (call : Call V)

/-- The call that an event is. -/
def Event.call? {V : Type} : Event V → Option (Call V)
  | .read _ => none
  | .call c => some c

/-- The interpretation that writes down the calls of one that leaves the context alone. -/
def Interpretation.logged {V : Type} (terminal : Lexeme V → Except String V)
    (nonterminal : Production V → List V → Except String V) :
    Interpretation (List (Call V)) V :=
  .watched (fun call log => (none, log ++ [call])) (.pure terminal nonterminal)

/-- The context after a step. -/
def Step.context {σ V : Type} : Step σ V → σ
  | next c => c.context
  | stop parsed => parsed.context

namespace Engine

variable {σ V : Type}

/-- What can be seen of a step.  A shift calls the interpretation and then takes the next
lexeme, a reduction calls the interpretation, and accepting takes the lexeme that should be the
end of the input. -/
def events (m : Engine σ V) (c : Configuration σ V) : List (Event V) :=
  match m.action? c with
  | some (.shift _) =>
    .call (.terminal c.lookahead) ::
      match (m.interpretation.terminal c.lookahead c.context).1 with
      | .ok _ => [.read c.input.head]
      | .error _ => []
  | some (.reduce id) =>
    match m.rule? id with
    | some (rule, shape) =>
      if shape.length ≤ c.values.length ∧ shape.length < c.states.length then
        [.call (.nonterminal rule (c.values.take shape.length).reverse)]
      else
        []
    | none => []
  | some .accept => [.read c.input.head]
  | _ => []

/-- What can be seen of a number of steps, or fewer if the parse ends earlier. -/
def trace (m : Engine σ V) : Nat → Configuration σ V → List (Event V)
  | 0, _ => []
  | n + 1, c =>
    m.events c ++
      match m.step c with
      | .next c' => m.trace n c'
      | .stop _ => []

/-- What can be seen of a parse: first of all it takes a lexeme. -/
def history (m : Engine σ V) (n : Nat) (lexemes : List (Lexeme V)) (context : σ) :
    List (Event V) :=
  .read (Configuration.initial lexemes context).lookahead :: m.trace n (.initial lexemes context)

/-! ### Calls that are written down -/

section

variable {m : Engine (List (Call V)) V} {terminal : Lexeme V → Except String V}
  {nonterminal : Production V → List V → Except String V} {c : Configuration (List (Call V)) V}

/-- The call of a shift is written down. -/
theorem context_shift (hm : m.interpretation = .logged terminal nonterminal) (target : StateId) :
  (m.shift c target).context = c.context ++ [.terminal c.lookahead]
  := by
  rw [shift, hm]
  cases hvalue : terminal c.lookahead <;>
    simp [Interpretation.logged, Interpretation.watched, Interpretation.pure, hvalue, Step.context]

/-- The call of a reduction is written down, where there are enough values and states. -/
theorem context_reduce (hm : m.interpretation = .logged terminal nonterminal) {id : RuleId}
    {rule : Production V} {shape : Reduction} (hrule : m.rule? id = some (rule, shape))
    (hvalues : shape.length ≤ c.values.length) (hstates : shape.length < c.states.length) :
  (m.reduce c id).context
    = c.context ++ [.nonterminal rule (c.values.take shape.length).reverse]
  := by
  cases hdrop : c.states.drop shape.length with
  | nil =>
      cases Nat.not_lt_of_le (List.drop_eq_nil_iff.mp hdrop) hstates
  | cons top below =>
      simp only [reduce, hrule, if_neg (Nat.not_lt_of_le hvalues), hdrop, hm,
        Interpretation.logged, Interpretation.watched, Interpretation.pure]
      cases nonterminal rule (c.values.take shape.length).reverse with
      | error message => rfl
      | ok value =>
          dsimp only
          split <;> rfl

/-- Without enough values or states there is no reduction, and no call. -/
theorem context_reduce_of_lt {id : RuleId} {rule : Production V} {shape : Reduction}
    (hrule : m.rule? id = some (rule, shape))
    (h : ¬ (shape.length ≤ c.values.length ∧ shape.length < c.states.length)) :
  (m.reduce c id).context = c.context
  := by
  rw [reduce, hrule]
  by_cases hvalues : c.values.length < shape.length
  · simp only [if_pos hvalues]
    rfl
  · have hdrop : c.states.drop shape.length = [] := by
      apply List.drop_eq_nil_of_le
      apply Nat.le_of_not_lt
      intro hstates
      apply h ⟨Nat.le_of_not_lt hvalues, hstates⟩
    simp only [if_neg hvalues, hdrop]
    rfl

theorem context_accept (state : StateId) :
  (accept c state).context = c.context
  := by
  rw [accept]
  split
  · split <;> rfl
  · rfl

/-- A step writes down its calls. -/
theorem context_step (hm : m.interpretation = .logged terminal nonterminal) :
  (m.step c).context = c.context ++ (m.events c).filterMap Event.call?
  := by
  obtain ⟨target, haction, hstep⟩ | ⟨id, haction, hstep⟩ | ⟨q, haction, hstep⟩
    | ⟨haction, e, hstep⟩ := m.step_cases c
  · rw [hstep, context_shift hm, events, haction]
    cases (m.interpretation.terminal c.lookahead c.context).1 <;> rfl
  · cases hrule : m.rule? id with
    | none => simp [hstep, events, haction, reduce, hrule, fail, Step.context]
    | some entry =>
        obtain ⟨rule, shape⟩ := entry
        simp only [hstep, events, haction, hrule]
        by_cases h : shape.length ≤ c.values.length ∧ shape.length < c.states.length
        · rw [context_reduce hm hrule h.1 h.2, if_pos h]
          rfl
        · rw [context_reduce_of_lt hrule h, if_neg h]
          symm
          apply List.append_nil
  · rw [hstep, context_accept, events, haction]
    simp [Event.call?]
  · have hevents : m.events c = [] := by
      rcases haction with haction | ⟨target, haction⟩ | ⟨shifts, reduces, haction⟩ <;>
        simp only [events, haction]
    rw [hstep, hevents]
    simp [fail, Step.context]

/-- A parse has written down the calls of its trace. -/
theorem context_run (hm : m.interpretation = .logged terminal nonterminal) {n : Nat}
    {parsed : Parsed (List (Call V)) V} (h : m.run n c = some parsed) :
  parsed.context = c.context ++ (m.trace n c).filterMap Event.call?
  := by
  induction n generalizing c with
  | zero => cases h
  | succ n ih =>
      have hstep := context_step (c := c) hm
      rw [run] at h
      rw [trace, List.filterMap_append, ← List.append_assoc, ← hstep]
      cases hnext : m.step c with
      | stop parsed' =>
          rw [hnext] at h
          cases h
          simp [Step.context]
      | next c' =>
          rw [hnext] at h
          apply ih h

end

end Engine

end ShiftReduce
