import ShiftReduce.Proofs.Parser.Trace

/-!
# Engines that go in step

Two engines go in step along a relation between configurations if from related ones their steps
lead to related ones again, or end both parses with results that correspond.  Whole parses then
correspond as well: they end after the same number of steps, or both of them go on for ever
(`Engine.Simulates.parse_eq`).

What is said of the lexemes that are still to be read is kept by every step
(`Configuration.Reads.of_step`), and so it can be part of such a relation.
-/

namespace ShiftReduce

variable {σ τ V W : Type} {R : Configuration σ V → Configuration τ W → Prop}
  {f : Parsed σ V → Parsed τ W}

/-! ### What is still to be read -/

section

variable {P : Lexeme V → Prop}

/-- All lexemes that are still to be read have a property. -/
structure Configuration.Reads (P : Lexeme V → Prop) (c : Configuration σ V) : Prop where
  lookahead : P c.lookahead
  rest : ∀ lexeme ∈ c.input.rest, P lexeme

namespace Input

/-- The next lexeme has the property of those that are given and of all ends of the input. -/
theorem head_of_forall (hend : ∀ offset, P (.endOfInput offset)) {input : Input V}
    (h : ∀ lexeme ∈ input.rest, P lexeme) :
  P input.head
  := by
  obtain ⟨rest, finish⟩ := input
  cases rest with
  | nil => apply hend
  | cons first rest => apply h first List.mem_cons_self

theorem tail_of_forall {input : Input V} (h : ∀ lexeme ∈ input.rest, P lexeme) :
  ∀ lexeme ∈ input.tail.rest, P lexeme
  := by
  intro lexeme hlexeme
  rw [rest_tail] at hlexeme
  apply h lexeme (List.mem_of_mem_tail hlexeme)

end Input

namespace Configuration.Reads

theorem initial (hend : ∀ offset, P (.endOfInput offset)) {lexemes : List (Lexeme V)}
    (h : ∀ lexeme ∈ lexemes, P lexeme) (context : σ) :
  (Configuration.initial lexemes context).Reads P
  := by
  have hinput : ∀ lexeme ∈ (⟨lexemes, 0⟩ : Input V).rest, P lexeme := h
  exact ⟨Input.head_of_forall hend hinput, Input.tail_of_forall hinput⟩

/-- A step reads no other lexemes. -/
theorem of_step {m : Engine σ V} {c c' : Configuration σ V}
    (hend : ∀ offset, P (.endOfInput offset)) (hc : c.Reads P) (h : m.step c = .next c') :
  c'.Reads P
  := by
  rcases Engine.next_cases h with ⟨target, -, hshift⟩ | ⟨id, -, hreduce⟩
  · obtain ⟨hlookahead, hinput⟩ := Engine.reads_of_shift hshift
    constructor
    · rw [hlookahead]
      apply Input.head_of_forall hend hc.rest
    · rw [hinput]
      apply Input.tail_of_forall hc.rest
  · obtain ⟨hlookahead, hinput⟩ := Engine.reads_of_reduce hreduce
    constructor
    · rw [hlookahead]
      apply hc.lookahead
    · rw [hinput]
      apply hc.rest

end Configuration.Reads

end

/-! ### Steps that match -/

/-- Two steps go on to related configurations, or they end with results that correspond. -/
inductive Step.Matches (R : Configuration σ V → Configuration τ W → Prop)
    (f : Parsed σ V → Parsed τ W) : Step σ V → Step τ W → Prop where
  | next {c : Configuration σ V} {c' : Configuration τ W} (h : R c c') :
      Matches R f (.next c) (.next c')
  | stop (parsed : Parsed σ V) : Matches R f (.stop parsed) (.stop (f parsed))

namespace Engine

/-- From related configurations the two engines make steps that match. -/
def Simulates (m : Engine σ V) (m' : Engine τ W)
    (R : Configuration σ V → Configuration τ W → Prop) (f : Parsed σ V → Parsed τ W) : Prop :=
  ∀ c c', R c c' → (m.step c).Matches R f (m'.step c')

namespace Simulates

variable {m : Engine σ V} {m' : Engine τ W} {c : Configuration σ V} {c' : Configuration τ W}

/-- Runs from related configurations end together. -/
theorem run_eq (h : m.Simulates m' R f) (hc : R c c') (n : Nat) :
  m'.run n c' = (m.run n c).map f
  := by
  induction n generalizing c c' with
  | zero => rfl
  | succ n ih =>
      have hstep := h c c' hc
      rw [run, run]
      generalize m.step c = s at hstep ⊢
      generalize m'.step c' = s' at hstep ⊢
      cases hstep with
      | next hnext => apply ih hnext
      | stop parsed => rfl

/-- Parses from related configurations end together, or both go on for ever. -/
theorem loop_eq (h : m.Simulates m' R f) (hc : R c c') :
  m'.loop c' = (m.loop c).map f
  := by
  cases hloop : m.loop c with
  | some parsed =>
      obtain ⟨n, hn⟩ := loop_eq_some_iff.mp hloop
      apply loop_eq_some_iff.mpr ⟨n, _⟩
      rw [h.run_eq hc, hn]
      rfl
  | none =>
      cases hloop' : m'.loop c' with
      | none => rfl
      | some parsed' =>
          -- the run that ends the second parse ends the first one, too
          obtain ⟨n, hn⟩ := loop_eq_some_iff.mp hloop'
          rw [h.run_eq hc] at hn
          obtain ⟨parsed, hparsed, -⟩ := Option.map_eq_some_iff.mp hn
          rw [loop_eq_some_iff.mpr ⟨n, hparsed⟩] at hloop
          cases hloop

/-- What the second engine returns is what corresponds to what the first one returns. -/
theorem parse_eq (h : m.Simulates m' R f) {lexemes : List (Lexeme V)}
    {lexemes' : List (Lexeme W)} {context : σ} {context' : τ}
    (hinitial : R (.initial lexemes context) (.initial lexemes' context'))
    (hendless : f ⟨.error .endless, context⟩ = ⟨.error .endless, context'⟩) :
  m'.parse lexemes' context' = f (m.parse lexemes context)
  := by
  rw [parse, parse, h.loop_eq hinitial, ← hendless]
  cases m.loop (.initial lexemes context) <;> rfl

end Simulates

/-- Where the same can be seen of the steps, the same can be seen of the runs. -/
theorem Simulates.trace_eq {R : Configuration σ V → Configuration σ V → Prop}
    {f : Parsed σ V → Parsed σ V} {m m' : Engine σ V} (h : m.Simulates m' R f)
    (hevents : ∀ c c', R c c' → m'.events c' = m.events c) {c c' : Configuration σ V}
    (hc : R c c') (n : Nat) :
  m'.trace n c' = m.trace n c
  := by
  induction n generalizing c c' with
  | zero => rfl
  | succ n ih =>
      have hstep := h c c' hc
      rw [trace, trace, hevents c c' hc]
      generalize m.step c = s at hstep ⊢
      generalize m'.step c' = s' at hstep ⊢
      cases hstep with
      | next hnext => apply congrArg (m.events _ ++ ·) (ih hnext)
      | stop parsed => rfl

end Engine

end ShiftReduce
