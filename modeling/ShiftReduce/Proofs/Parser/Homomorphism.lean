import ShiftReduce.Proofs.Parser.Simulation
import ShiftReduce.Proofs.Parser.Stepping

/-!
# Homomorphisms of interpretations

A function on values is a homomorphism from one interpretation to another if the second one gives
to each lexeme and to each reduction the image of what the first one gives.  It is enough that it
does so for the lexemes that are read and for the rules of the engine: then the parse with the
second interpretation ends as the parse with the first one does, and with the image of its value
(`Interpretation.Maps.simulates`).
-/

namespace ShiftReduce

variable {σ V : Type} {f : V → V} {P : Lexeme V → Prop}

/-! ### Images -/

/-- What has ended with the image of the value, or with the same error. -/
def Parsed.map (f : V → V) (parsed : Parsed σ V) : Parsed σ V :=
  ⟨parsed.value.map f, parsed.context⟩

/-- The configuration whose values are the images of the values. -/
def Configuration.map (f : V → V) (c : Configuration σ V) : Configuration σ V :=
  { c with values := c.values.map f }

/-! ### Homomorphisms -/

/-- The rule with a number is a rule of the engine. -/
theorem Engine.mem_of_rule? {m : Engine σ V} {id : RuleId} {rule : Production V} {shape : Reduction}
    (h : m.rule? id = some (rule, shape)) :
  rule ∈ m.rules
  := by
  cases id with
  | accept => cases h
  | user index =>
      obtain ⟨rule', hrule, h⟩ := Option.bind_eq_some_iff.mp h
      obtain ⟨shape', -, h⟩ := Option.bind_eq_some_iff.mp h
      cases h
      apply List.mem_of_getElem? hrule

/-- The function is a homomorphism from one interpretation to another on some rules and on the
lexemes with a property. -/
structure Interpretation.Maps (f : V → V) (rules : List (Production V)) (P : Lexeme V → Prop)
    (ι ι' : Interpretation σ V) : Prop where
  terminal : ∀ lexeme context, P lexeme →
    ι'.terminal lexeme context = (ι.terminal lexeme context).map (Except.map f) id
  nonterminal : ∀ rule ∈ rules, ∀ values context,
    ι'.nonterminal rule (values.map f) context
      = (ι.nonterminal rule values context).map (Except.map f) id

namespace Interpretation.Maps

variable {rules : List (Production V)} {t : ParseTable} {ι ι' : Interpretation σ V}
  {c : Configuration σ V}

/-- Images of configurations that read lexemes with a property. -/
def Image (f : V → V) (P : Lexeme V → Prop) (c c' : Configuration σ V) : Prop :=
  c.Reads P ∧ c' = c.map f

/-- A shift adds the image of the value of the lexeme. -/
theorem shift (h : ι.Maps f rules P ι') (hend : ∀ offset, P (.endOfInput offset))
    (hc : c.Reads P) (target : StateId) :
  ((Engine.mk rules t ι).shift c target).Matches (Image f P) (Parsed.map f)
    ((Engine.mk rules t ι').shift (c.map f) target)
  := by
  simp only [Engine.shift, Configuration.map, h.terminal _ _ hc.lookahead]
  obtain ⟨message | value, context⟩ := ι.terminal c.lookahead c.context
  · apply Step.Matches.stop
  · apply Step.Matches.next
    exact ⟨⟨Input.head_of_forall hend hc.rest, Input.tail_of_forall hc.rest⟩, rfl⟩

/-- A reduction replaces the images of values by the image of the new value. -/
theorem reduce (h : ι.Maps f rules P ι') (hc : c.Reads P) (id : RuleId) :
  ((Engine.mk rules t ι).reduce c id).Matches (Image f P) (Parsed.map f)
    ((Engine.mk rules t ι').reduce (c.map f) id)
  := by
  have hrule : (Engine.mk rules t ι').rule? id = (Engine.mk rules t ι).rule? id := rfl
  rw [Engine.reduce, Engine.reduce, hrule]
  cases hentry : (Engine.mk rules t ι).rule? id with
  | none => apply Step.Matches.stop
  | some entry =>
      obtain ⟨rule, shape⟩ := entry
      simp only [Configuration.map, List.length_map, ← List.map_drop, ← List.map_take,
        ← List.map_reverse]
      by_cases hvalues : c.values.length < shape.length
      · rw [if_pos hvalues, if_pos hvalues]
        apply Step.Matches.stop
      · rw [if_neg hvalues, if_neg hvalues]
        cases c.states.drop shape.length with
        | nil => apply Step.Matches.stop
        | cons top below =>
            simp only [h.nonterminal rule (Engine.mem_of_rule? hentry)]
            obtain ⟨message | value, context⟩ :=
              ι.nonterminal rule (c.values.take shape.length).reverse c.context
            · apply Step.Matches.stop
            · simp only [Prod.map, Except.map]
              split
              · apply Step.Matches.next
                exact ⟨⟨hc.lookahead, hc.rest⟩, rfl⟩
              · apply Step.Matches.stop

/-- The value that is accepted is the image of the one that is accepted. -/
theorem accept (c : Configuration σ V) (q : StateId) :
  (Engine.accept c q).Matches (Image f P) (Parsed.map f) (Engine.accept (c.map f) q)
  := by
  rw [Engine.accept, Engine.accept, Configuration.map]
  cases c.input.head.isEndOfInput with
  | false => apply Step.Matches.stop
  | true => cases c.values <;> apply Step.Matches.stop

/-- Engines go in step where there is a homomorphism from the interpretation of the one to that of
the other. -/
theorem simulates (h : ι.Maps f rules P ι') (hend : ∀ offset, P (.endOfInput offset))
    (t : ParseTable) :
  (Engine.mk rules t ι).Simulates (Engine.mk rules t ι') (Image f P) (Parsed.map f)
  := by
  rintro c _ ⟨hc, rfl⟩
  apply Engine.step_related
  · rfl
  · rfl
  · rfl
  · intro e
    apply Step.Matches.stop
  · intro q x target _ _
    apply h.shift hend hc
  · intro id
    apply h.reduce hc
  · intro q x _ _
    apply accept

end Interpretation.Maps

end ShiftReduce
