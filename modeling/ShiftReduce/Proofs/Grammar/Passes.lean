import ShiftReduce.Grammar.Passes
import ShiftReduce.Proofs.Grammar.First

/-!
# Passes find the nullable symbols and the first sets

The passes over the rules end, and they find the nullable symbols and the first sets that a
bounded number of rounds finds (`nullableByPasses_eq`, `FirstSets.byPasses_eq`).  A pass does
what a round does, and it reports a change exactly when one of the sets has grown.
-/

namespace ShiftReduce

variable {rules : List Rule}

/-! ### Nullable symbols -/

theorem SymbolSet.insert_of_mem {s : SymbolSet} {i : SymbolId} (h : i ∈ s) :
  s.insert i = s
  := by
  ext j
  rw [mem_insert]
  constructor
  · rintro (rfl | hj)
    · apply h
    · apply hj
  · apply Or.inr

theorem SymbolSet.size_insert_lt {s : SymbolSet} {i : SymbolId} (h : i ∉ s) :
  s.size < (s.insert i).size
  := by
  apply size_lt (fun j hj => mem_insert.mpr (.inr hj))
  intro heq
  apply h
  rw [← heq]
  apply mem_insert.mpr (.inl rfl)

/-- A step does what a round does for one rule. -/
theorem nullableStep_fst (s : SymbolSet) (r : Rule) :
  (nullableStep s r).1 = if r.rhs.all s.contains then s.insert r.lhs else s
  := by
  unfold nullableStep
  by_cases hlhs : r.lhs ∈ s
  · simp [hlhs, SymbolSet.insert_of_mem]
  · split
    · simp_all
    · split
      · rfl
      · rfl

/-- A step reports a change exactly when it adds a symbol. -/
theorem nullableStep_snd (s : SymbolSet) (r : Rule) :
  ((nullableStep s r).2 = false → (nullableStep s r).1 = s) ∧
    ((nullableStep s r).2 = true → s.size < (nullableStep s r).1.size)
  := by
  unfold nullableStep
  split
  · simp
  · split
    · rename_i hlhs _
      simp only [Bool.true_eq_false, false_implies, true_and, forall_const]
      apply SymbolSet.size_insert_lt
      simpa using hlhs
    · simp

/-- A pass does what a round does. -/
theorem sweep_nullableStep (rules : List Rule) (s : SymbolSet) :
  (sweep nullableStep rules s).1 = nullableRound rules s
  := by
  rw [sweep_fst]
  unfold nullableRound
  congr 1
  funext s r
  apply nullableStep_fst

/-- The passes end, and find the nullable symbols. -/
theorem nullableByPasses_eq (rules : List Rule) :
  nullableByPasses rules = some (nullableSymbols rules)
  := by
  have hstart : ∀ i ∈ emptyLhs rules, ∃ r ∈ rules, r.rhs = [] ∧ r.lhs = i := by
    intro i hi
    simpa [emptyLhs, Option.ite_none_right_eq_some, and_assoc] using hi
  have hlhs : ∀ i ∈ emptyLhs rules, i ∈ rules.map Rule.lhs := by
    intro i hi
    obtain ⟨r, hr, -, rfl⟩ := hstart i hi
    apply List.mem_map_of_mem hr
  have hfixed := nullableRound_stabilize hlhs
  have hchanged := fun s => sweep_changed nullableStep (I := fun _ => True) (l := rules)
    SymbolSet.size (fun _ _ _ _ => trivial) (fun s _ r _ => (nullableStep_snd s r).1)
    (fun s _ r _ => (nullableStep_snd s r).2) (a := s) trivial
  obtain ⟨s, hs, -, rfl⟩ := Pass.exists_saturate ⟨sweep nullableStep rules⟩
    (I := fun _ => True) (fun s => s) SymbolSet.size
    (fun s _ => (hchanged s).1) (fun s _ => sweep_nullableStep rules s)
    (fun s _ => (hchanged s).2.1) (fun s _ => (hchanged s).2.2) trivial hfixed
  apply hs.trans
  congr 1
  ext i
  rw [mem_nullableSymbols]
  constructor
  · apply vanishes_of_mem_stabilize
    intro j hj
    obtain ⟨r, hr, hempty, rfl⟩ := hstart j hj
    exact .cons hr (hempty ▸ .nil) .nil
  · intro hi
    apply mem_of_vanishes hfixed hi
    simp

/-! ### First sets -/

namespace FirstSets

/-- Imposing a constraint changes the first set of the upper symbol. -/
theorem first_impose (f : FirstSets) (c : Constraint) (i : SymbolId) :
  (f.impose c).1.first i
    = if i = c.upper ∧ c.upper < f.sets.size then f.first i ∪ f.first c.lower else f.first i
  := by
  simp only [first, impose, Array.getElem?_modify]
  by_cases hi : c.upper = i
  · subst hi
    by_cases hlt : c.upper < f.sets.size
    · simp [hlt]
    · simp [hlt]
  · simp [hi, Ne.symm hi]

theorem grows_impose (f : FirstSets) (c : Constraint) :
  f.Grows (f.impose c).1
  where
  nullable := rfl
  size := by simp [impose]
  first i a ha := by
    rw [first_impose]
    split
    · apply SymbolSet.mem_union.mpr (.inl ha)
    · apply ha

/-- Imposing a constraint reports a change exactly when the first set of the upper symbol
grows. -/
theorem impose_snd {kinds : Array SymbolKind} {f : FirstSets} (hsize : f.sets.size = kinds.size)
    {c : Constraint} (hc : c.upper < kinds.size) :
  ((f.impose c).2 = false → (f.impose c).1 = f) ∧
    ((f.impose c).2 = true → f.total kinds < (f.impose c).1.total kinds)
  := by
  have hgrows := f.grows_impose c
  have hupper : (f.impose c).1.first c.upper = f.first c.upper ∪ f.first c.lower := by
    rw [first_impose, if_pos ⟨rfl, hsize ▸ hc⟩]
  have hgrew : (f.impose c).2 = true ↔
      (f.first c.upper).size < ((f.impose c).1.first c.upper).size := by
    rw [hupper]
    simp [impose, SymbolSet.grew]
  constructor
  · intro hsame
    apply eq_of_first hgrows.nullable hgrows.size
    intro i hi
    by_cases hne : i = c.upper
    · subst hne
      by_contra hfirst
      have hlt := SymbolSet.size_lt (hgrows.first c.upper) hfirst
      rw [hgrew.mpr hlt] at hsame
      cases hsame
    · rw [first_impose, if_neg (fun h => hne h.1)]
  · intro hmoved
    apply total_lt hsize hgrows
    intro heq
    have hlt := hgrew.mp hmoved
    rw [heq] at hlt
    cases Nat.lt_irrefl _ hlt

/-- What begins a sequence after first sets have been widened began it before, or comes from
the widening. -/
theorem mem_ofSequence_of_widened {f g : FirstSets} (hnull : g.nullable = f.nullable)
    {P : SymbolId → Prop} (h : ∀ i, ∀ a ∈ g.first i, a ∈ f.first i ∨ P a)
    {s : List SymbolId} {l : SymbolSet} {a : SymbolId} (ha : a ∈ g.ofSequence s l) :
  a ∈ f.ofSequence s l ∨ P a
  := by
  induction s with
  | nil => apply Or.inl ha
  | cons i rest ih =>
      rw [ofSequence] at ha ⊢
      have hi : g.isNullable i = f.isNullable i := by rw [isNullable, isNullable, hnull]
      rw [hi] at ha
      split
      · rename_i hnullable
        rw [if_pos hnullable] at ha
        rw [SymbolSet.mem_union, or_assoc]
        rcases SymbolSet.mem_union.mp ha with ha | ha
        · rcases h i a ha with ha | ha
          · exact .inl ha
          · exact .inr (.inr ha)
        · exact .inr (ih ha)
      · rename_i hnullable
        rw [if_neg hnullable] at ha
        apply h i a ha

/-- A nullable symbol in front of a right-hand side extends the first set of the left-hand
side, and so do the symbols behind it. -/
theorem extend_of_nullable {f : FirstSets} {y : SymbolId} (hy : f.isNullable y = true)
    (lhs : SymbolId) (rest : List SymbolId) :
  f.extend ⟨lhs, y :: rest⟩ = (f.impose ⟨lhs, y⟩).1.extend ⟨lhs, rest⟩
  := by
  have hgrows := f.grows_impose ⟨lhs, y⟩
  apply eq_of_first
  · rfl
  · simp [extend, impose]
  intro i _
  rw [first_extend, first_extend, hgrows.size, first_impose]
  by_cases hi : i = lhs ∧ lhs < f.sets.size
  · rw [if_pos hi, if_pos hi, if_pos hi, ofSequence, if_pos hy]
    ext a
    simp only [SymbolSet.mem_union]
    have hbelow : a ∈ f.ofSequence rest ∅ → a ∈ (f.impose ⟨lhs, y⟩).1.ofSequence rest ∅ :=
      hgrows.ofSequence rest
    have habove : a ∈ (f.impose ⟨lhs, y⟩).1.ofSequence rest ∅ →
        a ∈ f.ofSequence rest ∅ ∨ a ∈ f.first y := by
      apply mem_ofSequence_of_widened (f := f) (P := fun a => a ∈ f.first y) hgrows.nullable
      intro j b hb
      rw [first_impose] at hb
      split at hb
      · exact SymbolSet.mem_union.mp hb
      · exact .inl hb
    tauto
  · rw [if_neg hi, if_neg hi, if_neg hi]

/-- A symbol that is not nullable, in front of a right-hand side, extends the first set of the
left-hand side alone. -/
theorem extend_of_not_nullable {f : FirstSets} {y : SymbolId} (hy : f.isNullable y ≠ true)
    (lhs : SymbolId) (rest : List SymbolId) :
  f.extend ⟨lhs, y :: rest⟩ = (f.impose ⟨lhs, y⟩).1
  := by
  simp only [extend, impose, ofSequence, if_neg hy]

theorem extend_nil (f : FirstSets) (lhs : SymbolId) :
  f.extend ⟨lhs, []⟩ = f
  := by
  apply eq_of_first
  · rfl
  · simp [extend]
  intro i _
  rw [first_extend]
  split
  · ext a
    simp [ofSequence, SymbolSet.not_mem_empty]
  · rfl

/-- A symbol does not constrain itself. -/
theorem impose_self (f : FirstSets) (i : SymbolId) :
  (f.impose ⟨i, i⟩).1 = f
  := by
  apply eq_of_first
  · rfl
  · simp [impose]
  intro j _
  rw [first_impose]
  split
  · rename_i hj
    ext a
    simp [hj.1]
  · rfl

/-- The constraints of a rule extend the first set of its left-hand side as the rule does. -/
theorem foldl_constraintsOf (f : FirstSets) (lhs : SymbolId) (rhs : List SymbolId) :
  (constraintsOf f.nullable lhs rhs).foldl (fun f c => (f.impose c).1) f = f.extend ⟨lhs, rhs⟩
  := by
  induction rhs generalizing f with
  | nil => rw [extend_nil]; rfl
  | cons y rest ih =>
      have hfirst : (if y = lhs then [] else [Constraint.mk lhs y]).foldl
          (fun f c => (f.impose c).1) f = (f.impose ⟨lhs, y⟩).1 := by
        split
        · rename_i hy
          rw [hy, impose_self]
          rfl
        · rfl
      rw [constraintsOf, List.foldl_append, hfirst]
      by_cases hy : f.isNullable y = true
      · have hcontains : f.nullable.contains y = true := hy
        rw [extend_of_nullable hy, if_pos hcontains]
        apply ih
      · have hcontains : ¬ f.nullable.contains y = true := hy
        rw [extend_of_not_nullable hy, if_neg hcontains]
        rfl

/-- A pass over the constraints of some rules does what a round does. -/
theorem sweep_impose (f : FirstSets) (rules : List Rule) :
  (sweep impose (rules.flatMap fun r => constraintsOf f.nullable r.lhs r.rhs) f).1
    = round rules f
  := by
  rw [sweep_fst]
  induction rules generalizing f with
  | nil => rfl
  | cons r rest ih =>
      rw [List.flatMap_cons, List.foldl_append, foldl_constraintsOf]
      apply ih (f.extend r)

theorem upper_of_mem_constraintsOf {nullable : SymbolSet} {lhs : SymbolId}
    {rhs : List SymbolId} {c : Constraint} (h : c ∈ constraintsOf nullable lhs rhs) :
  c.upper = lhs
  := by
  induction rhs with
  | nil => cases h
  | cons y rest ih =>
      rcases List.mem_append.mp h with h | h
      · split at h
        · cases h
        · rw [List.mem_singleton.mp h]
      · split at h
        · apply ih h
        · cases h

/-- The passes end, and find the first sets. -/
theorem byPasses_eq {kinds : Array SymbolKind} (hlhs : ∀ r ∈ rules, r.lhs < kinds.size) :
  byPasses kinds rules = some (compute kinds rules)
  := by
  let constraints := rules.flatMap fun r => constraintsOf (nullableSymbols rules) r.lhs r.rhs
  have hupper : ∀ c ∈ constraints, c.upper < kinds.size := by
    intro c hc
    obtain ⟨r, hr, hc⟩ := List.mem_flatMap.mp hc
    rw [upper_of_mem_constraintsOf hc]
    apply hlhs r hr
  let I : FirstSets → Prop := fun f =>
    f.sets.size = kinds.size ∧ f.nullable = nullableSymbols rules
  have hchanged : ∀ f, I f → _ := fun f => sweep_changed impose (I := I) (l := constraints)
    (total kinds)
    (fun f hf c _ => ⟨(f.grows_impose c).size.trans hf.1, hf.2⟩)
    (fun f hf c hc => (impose_snd hf.1 (hupper c hc)).1)
    (fun f hf c hc => (impose_snd hf.1 (hupper c hc)).2)
  have hround : ∀ f, I f → (sweep impose constraints f).1 = round rules f := by
    intro f hf
    have hsweep := sweep_impose f rules
    rwa [hf.2] at hsweep
  obtain ⟨f, hf, -, rfl⟩ := Pass.exists_saturate ⟨sweep impose constraints⟩
    (I := I) (fun f => f) (total kinds)
    (fun f hf => (hchanged f hf).1) hround
    (fun f hf => (hchanged f hf).2.1) (fun f hf => (hchanged f hf).2.2)
    (c := initial kinds rules) ⟨size_initial, rfl⟩ round_compute
  simp only [byPasses, nullableByPasses_eq]
  exact hf

end FirstSets

end ShiftReduce
