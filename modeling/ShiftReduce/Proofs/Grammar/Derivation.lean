import ShiftReduce.Grammar.First

/-!
# Derivations of sequences

What rules derive from a sequence of symbols, as far as it is looked at: whether the sequence
vanishes, that is, derives the empty sequence, and which terminals begin the sequences that
it derives.  What comes after the first terminal need not derive anything.
-/

namespace ShiftReduce

/-- The rules derive the empty sequence from a sequence of symbols. -/
inductive Vanishes (rules : List Rule) : List SymbolId → Prop where
  | nil : Vanishes rules []
  | cons {i : SymbolId} {rhs rest : List SymbolId} (hr : ⟨i, rhs⟩ ∈ rules)
      (hrhs : Vanishes rules rhs) (hrest : Vanishes rules rest) : Vanishes rules (i :: rest)

/-- The rules derive a sequence that begins with a terminal from a sequence of symbols. -/
inductive Begins (kinds : Array SymbolKind) (rules : List Rule) :
    List SymbolId → SymbolId → Prop where
  | here {a : SymbolId} {rest : List SymbolId} (ha : kinds[a]? = some .terminal) :
      Begins kinds rules (a :: rest) a
  | expand {i a : SymbolId} {rhs rest : List SymbolId} (hr : ⟨i, rhs⟩ ∈ rules)
      (h : Begins kinds rules rhs a) : Begins kinds rules (i :: rest) a
  | skip {i a : SymbolId} {rest : List SymbolId} (hi : Vanishes rules [i])
      (h : Begins kinds rules rest a) : Begins kinds rules (i :: rest) a

namespace Vanishes

variable {rules : List Rule}

/-- A sequence vanishes if its first symbol and the other ones do. -/
theorem cons_iff {i : SymbolId} {rest : List SymbolId} :
  Vanishes rules (i :: rest) ↔ Vanishes rules [i] ∧ Vanishes rules rest
  := by
  constructor
  · intro h
    cases h with
    | cons hr hrhs hrest =>
        constructor
        · apply Vanishes.cons hr hrhs .nil
        · apply hrest
  · rintro ⟨hi, hrest⟩
    cases hi with
    | cons hr hrhs _ => apply Vanishes.cons hr hrhs hrest

/-- A sequence vanishes if all its symbols do. -/
theorem iff_forall {s : List SymbolId} :
  Vanishes rules s ↔ ∀ i ∈ s, Vanishes rules [i]
  := by
  induction s with
  | nil =>
      constructor
      · intro _ i hi
        cases hi
      · intro _
        apply Vanishes.nil
  | cons i rest ih => rw [cons_iff, ih, List.forall_mem_cons]

/-- Two sequences vanish one after the other if both do. -/
theorem append_iff {s t : List SymbolId} :
  Vanishes rules (s ++ t) ↔ Vanishes rules s ∧ Vanishes rules t
  := by
  rw [iff_forall, iff_forall (s := s), iff_forall (s := t), List.forall_mem_append]

theorem reverse_iff {s : List SymbolId} :
  Vanishes rules s.reverse ↔ Vanishes rules s
  := by
  rw [iff_forall, iff_forall (s := s)]
  simp only [List.mem_reverse]

end Vanishes

namespace Begins

variable {kinds : Array SymbolKind} {rules : List Rule} {a : SymbolId}

/-- What begins a sequence is a terminal. -/
theorem isTerminal {s : List SymbolId} (h : Begins kinds rules s a) :
  kinds[a]? = some .terminal
  := by
  induction h with
  | here ha => apply ha
  | expand _ _ ih => apply ih
  | skip _ _ ih => apply ih

/-- What begins a sequence begins every longer one. -/
theorem append_right {s : List SymbolId} (h : Begins kinds rules s a) (t : List SymbolId) :
  Begins kinds rules (s ++ t) a
  := by
  induction h with
  | here ha => apply Begins.here ha
  | expand hr h _ => apply Begins.expand hr h
  | skip hi _ ih => apply Begins.skip hi ih

/-- What begins a sequence begins it also after one that vanishes. -/
theorem append_left {s t : List SymbolId} (hs : Vanishes rules s) (h : Begins kinds rules t a) :
  Begins kinds rules (s ++ t) a
  := by
  induction s with
  | nil => apply h
  | cons i rest ih =>
      obtain ⟨hi, hrest⟩ := Vanishes.cons_iff.mp hs
      apply Begins.skip hi (ih hrest)

/-- What begins two sequences in a row begins the first, or the second where the first
vanishes. -/
theorem append_iff {s t : List SymbolId} :
  Begins kinds rules (s ++ t) a
    ↔ Begins kinds rules s a ∨ Vanishes rules s ∧ Begins kinds rules t a
  := by
  constructor
  · intro h
    induction s with
    | nil => apply Or.inr ⟨.nil, h⟩
    | cons i rest ih =>
        cases h with
        | here ha => apply Or.inl (.here ha)
        | expand hr h => apply Or.inl (.expand hr h)
        | skip hi h =>
            rcases ih h with h | ⟨hrest, h⟩
            · apply Or.inl (.skip hi h)
            · apply Or.inr ⟨Vanishes.cons_iff.mpr ⟨hi, hrest⟩, h⟩
  · rintro (h | ⟨hs, h⟩)
    · apply append_right h
    · apply append_left hs h

end Begins

end ShiftReduce
