import Mathlib.Algebra.Order.BigOperators.Group.Finset
import Mathlib.Data.List.Perm.Subperm
import ShiftReduce.Proofs.Grammar.Derivation

/-!
# Nullable symbols and first sets are exact

The nullable symbols are those that vanish (`mem_nullableSymbols`), and the first set of a
sequence holds the terminals that begin what is derived from it
(`FirstSets.mem_ofSequence_compute`).  Both are reached by rounds.  A round keeps what is
sound, and there are enough of them for the last one to change nothing, so that the result
has everything the rules ask for.
-/

namespace ShiftReduce

/-! ### Sizes of sets -/

namespace SymbolSet

theorem nodup_members (s : SymbolSet) :
  s.members.Nodup
  := s.ascending.imp Nat.ne_of_lt

/-- A set has no more members than a list that holds all of them. -/
theorem size_le {s : SymbolSet} {l : List SymbolId} (h : ∀ i ∈ s, i ∈ l) :
  s.size ≤ l.length
  := (s.nodup_members.subperm h).length_le

/-- A set that holds all members of another one is at least as large. -/
theorem size_mono {s t : SymbolSet} (h : ∀ i ∈ s, i ∈ t) :
  s.size ≤ t.size
  := size_le h

/-- A set that holds all members of another one is larger if it differs from it. -/
theorem size_lt {s t : SymbolSet} (h : ∀ i ∈ s, i ∈ t) (hne : t ≠ s) :
  s.size < t.size
  := by
  apply Nat.lt_of_not_le
  intro hle
  apply hne
  have hperm := (s.nodup_members.subperm h).perm_of_length_le hle
  ext i
  apply hperm.symm.mem_iff

end SymbolSet

/-! ### Nullable symbols -/

variable {rules : List Rule}

theorem nullableRound_cons (r : Rule) (rules : List Rule) (s : SymbolSet) :
  nullableRound (r :: rules) s
    = nullableRound rules (if r.rhs.all s.contains then s.insert r.lhs else s)
  := rfl

/-- What is in a set is in it after a round. -/
theorem mem_nullableRound_of_mem {s : SymbolSet} {i : SymbolId} (h : i ∈ s) :
  i ∈ nullableRound rules s
  := by
  induction rules generalizing s with
  | nil => apply h
  | cons r rest ih =>
      rw [nullableRound_cons]
      apply ih
      split
      · simp [h]
      · apply h

/-- After a round the left-hand side of each rule is there whose right-hand side was. -/
theorem lhs_mem_nullableRound {s : SymbolSet} {r : Rule} (hr : r ∈ rules)
    (h : ∀ i ∈ r.rhs, i ∈ s) :
  r.lhs ∈ nullableRound rules s
  := by
  induction rules generalizing s with
  | nil => cases hr
  | cons r' rest ih =>
      rw [nullableRound_cons]
      rcases List.mem_cons.mp hr with rfl | hr
      · apply mem_nullableRound_of_mem
        rw [if_pos (by simpa using h)]
        simp
      · apply ih hr
        intro i hi
        split
        · simp [h i hi]
        · apply h i hi

/-- A round keeps what holds of the members and carries over from the right-hand side of a
rule to its left-hand side. -/
theorem forall_mem_nullableRound {P : SymbolId → Prop} {s : SymbolSet} (hs : ∀ i ∈ s, P i)
    (hP : ∀ r ∈ rules, (∀ i ∈ r.rhs, P i) → P r.lhs) :
  ∀ i ∈ nullableRound rules s, P i
  := by
  induction rules generalizing s with
  | nil => apply hs
  | cons r rest ih =>
      obtain ⟨hr, hrest⟩ := List.forall_mem_cons.mp hP
      rw [nullableRound_cons]
      apply ih _ hrest
      split
      · rename_i hall
        intro i hi
        rcases SymbolSet.mem_insert.mp hi with rfl | hi
        · apply hr
          intro j hj
          apply hs j
          simpa using List.all_eq_true.mp hall j hj
        · apply hs i hi
      · apply hs

/-- Rounds that start with left-hand sides reach a set to which a further one adds nothing. -/
theorem nullableRound_stabilize {s : SymbolSet} (hs : ∀ i ∈ s, i ∈ rules.map Rule.lhs) :
  nullableRound rules (stabilize (nullableRound rules) (rules.length + 1) s)
    = stabilize (nullableRound rules) (rules.length + 1) s
  := by
  have hlhs : ∀ r ∈ rules, (∀ i ∈ r.rhs, i ∈ rules.map Rule.lhs) → r.lhs ∈ rules.map Rule.lhs :=
    fun r hr _ => List.mem_map_of_mem hr
  apply stabilize_fixed (I := fun s => ∀ i ∈ s, i ∈ rules.map Rule.lhs)
    (fun s hs => forall_mem_nullableRound hs hlhs) SymbolSet.size
    (fun s _ hne => SymbolSet.size_lt (fun i hi => mem_nullableRound_of_mem hi) hne)
    (k := rules.length)
  · intro s hs
    simpa using SymbolSet.size_le hs
  · apply hs
  · omega

/-- A further round adds no nullable symbols. -/
theorem nullableRound_nullableSymbols :
  nullableRound rules (nullableSymbols rules) = nullableSymbols rules
  := by
  apply nullableRound_stabilize
  intro i hi
  cases SymbolSet.not_mem_empty i hi

/-- Rounds that start with symbols that vanish add such symbols only. -/
theorem vanishes_of_mem_stabilize {s : SymbolSet} (hs : ∀ i ∈ s, Vanishes rules [i]) (n : Nat) :
  ∀ i ∈ stabilize (nullableRound rules) n s, Vanishes rules [i]
  := by
  apply stabilize_preserves (I := fun s => ∀ i ∈ s, Vanishes rules [i]) _ n hs
  intro s hs
  apply forall_mem_nullableRound hs
  intro r hr hrhs
  apply Vanishes.cons hr (Vanishes.iff_forall.mpr hrhs) .nil

/-- A set to which a round adds nothing has all symbols that vanish. -/
theorem mem_of_vanishes {s : SymbolSet} (hs : nullableRound rules s = s) {t : List SymbolId}
    (h : Vanishes rules t) :
  ∀ i ∈ t, i ∈ s
  := by
  induction h with
  | nil =>
      intro j hj
      cases hj
  | cons hr _ _ ihrhs ihrest =>
      rw [List.forall_mem_cons]
      constructor
      · rw [← hs]
        apply lhs_mem_nullableRound hr ihrhs
      · apply ihrest

/-- The nullable symbols are those that vanish. -/
theorem mem_nullableSymbols {i : SymbolId} :
  i ∈ nullableSymbols rules ↔ Vanishes rules [i]
  := by
  constructor
  · apply vanishes_of_mem_stabilize
    intro i hi
    cases SymbolSet.not_mem_empty i hi
  · intro h
    apply mem_of_vanishes nullableRound_nullableSymbols h
    simp

/-! ### First sets -/

namespace FirstSets

/-- `g` has at least the members of `f`, and the same nullable symbols. -/
structure Grows (f g : FirstSets) : Prop where
  nullable : g.nullable = f.nullable
  size : g.sets.size = f.sets.size
  first : ∀ i, ∀ a ∈ f.first i, a ∈ g.first i

theorem Grows.refl (f : FirstSets) :
  f.Grows f
  := ⟨rfl, rfl, fun _ _ h => h⟩

theorem Grows.trans {f g h : FirstSets} (hfg : f.Grows g) (hgh : g.Grows h) :
  f.Grows h
  where
  nullable := hgh.nullable.trans hfg.nullable
  size := hgh.size.trans hfg.size
  first i a ha := hgh.first i a (hfg.first i a ha)

/-- The first sets of sequences grow with those of the symbols. -/
theorem Grows.ofSequence {f g : FirstSets} (h : f.Grows g) (s : List SymbolId)
    {l : SymbolSet} {a : SymbolId} (ha : a ∈ f.ofSequence s l) :
  a ∈ g.ofSequence s l
  := by
  induction s with
  | nil => apply ha
  | cons i rest ih =>
      have hnull : g.isNullable i = f.isNullable i := by rw [isNullable, isNullable, h.nullable]
      rw [FirstSets.ofSequence] at ha ⊢
      rw [hnull]
      split
      · rename_i hi
        rw [if_pos hi] at ha
        rcases SymbolSet.mem_union.mp ha with ha | ha
        · apply SymbolSet.mem_union.mpr (.inl (h.first i a ha))
        · apply SymbolSet.mem_union.mpr (.inr (ih ha))
      · rename_i hi
        rw [if_neg hi] at ha
        apply h.first i a ha

theorem first_extend (f : FirstSets) (r : Rule) (i : SymbolId) :
  (f.extend r).first i
    = if i = r.lhs ∧ r.lhs < f.sets.size then f.first i ∪ f.ofSequence r.rhs ∅ else f.first i
  := by
  simp only [first, extend, Array.getElem?_modify]
  by_cases hi : r.lhs = i
  · subst hi
    by_cases hlt : r.lhs < f.sets.size
    · simp [hlt]
    · simp [hlt]
  · simp [hi, Ne.symm hi]

theorem grows_extend (f : FirstSets) (r : Rule) :
  f.Grows (f.extend r)
  where
  nullable := rfl
  size := by simp [extend]
  first i a ha := by
    rw [first_extend]
    split
    · apply SymbolSet.mem_union.mpr (.inl ha)
    · apply ha

theorem grows_round (f : FirstSets) (rules : List Rule) :
  f.Grows (round rules f)
  := by
  induction rules generalizing f with
  | nil => apply Grows.refl
  | cons r rest ih => apply (f.grows_extend r).trans (ih _)

/-- After a round the first set of the left-hand side of each rule has the members that the
one of the right-hand side had. -/
theorem mem_first_round {f : FirstSets} {r : Rule} (hr : r ∈ rules)
    (hlt : r.lhs < f.sets.size) {a : SymbolId} (ha : a ∈ f.ofSequence r.rhs ∅) :
  a ∈ (round rules f).first r.lhs
  := by
  induction rules generalizing f with
  | nil => cases hr
  | cons r' rest ih =>
      have hgrows := f.grows_extend r'
      rcases List.mem_cons.mp hr with rfl | hr
      · apply (grows_round _ rest).first
        rw [first_extend, if_pos ⟨rfl, hlt⟩]
        apply SymbolSet.mem_union.mpr (.inr ha)
      · apply ih hr
        · rw [hgrows.size]
          apply hlt
        · apply hgrows.ofSequence _ ha

/-- A round keeps what holds of the members and carries over from the right-hand side of a
rule to its left-hand side. -/
theorem forall_mem_first_round {P : SymbolId → SymbolId → Prop} {nullable : SymbolSet}
    {f : FirstSets} (hnull : f.nullable = nullable) (hf : ∀ i, ∀ a ∈ f.first i, P i a)
    (hP : ∀ r ∈ rules, ∀ f : FirstSets, f.nullable = nullable →
      (∀ i, ∀ a ∈ f.first i, P i a) → ∀ a ∈ f.ofSequence r.rhs ∅, P r.lhs a) :
  ∀ i, ∀ a ∈ (round rules f).first i, P i a
  := by
  induction rules generalizing f with
  | nil => apply hf
  | cons r rest ih =>
      obtain ⟨hr, hrest⟩ := List.forall_mem_cons.mp hP
      refine ih (f := f.extend r) hnull ?_ hrest
      intro i a ha
      rw [first_extend] at ha
      split at ha
      · rename_i hi
        rcases SymbolSet.mem_union.mp ha with ha | ha
        · apply hf i a ha
        · rw [hi.1]
          apply hr f hnull hf a ha
      · apply hf i a ha

/-- What begins the first symbol begins the sequence, be the symbol nullable or not. -/
theorem mem_ofSequence_cons {f : FirstSets} {i a : SymbolId} (ha : a ∈ f.first i)
    (rest : List SymbolId) (l : SymbolSet) :
  a ∈ f.ofSequence (i :: rest) l
  := by
  rw [ofSequence]
  split
  · apply SymbolSet.mem_union.mpr (.inl ha)
  · apply ha

/-- What holds of all members of first sets and of the lookaheads holds of all members of
the first set of a sequence. -/
theorem forall_mem_ofSequence {P : SymbolId → Prop} {f : FirstSets}
    (hf : ∀ i, ∀ a ∈ f.first i, P a) {l : SymbolSet} (hl : ∀ a ∈ l, P a) (s : List SymbolId) :
  ∀ a ∈ f.ofSequence s l, P a
  := by
  induction s with
  | nil => apply hl
  | cons i rest ih =>
      intro a ha
      rw [ofSequence] at ha
      split at ha
      · rcases SymbolSet.mem_union.mp ha with ha | ha
        · apply hf i a ha
        · apply ih a ha
      · apply hf i a ha

/-! ### Enough rounds -/

/-- The number of all members of the first sets of symbols of the given kinds. -/
def total (kinds : Array SymbolKind) (f : FirstSets) : Nat :=
  ∑ i ∈ Finset.range kinds.size, (f.first i).size

variable {kinds : Array SymbolKind}

theorem first_initial (i : SymbolId) :
  (initial kinds rules).first i
    = if kinds[i]? = some .terminal then SymbolSet.singleton i else ∅
  := by
  simp only [first, initial, Array.getElem?_mapIdx]
  cases hi : kinds[i]? with
  | none => simp
  | some kind =>
      cases kind with
      | terminal => simp
      | nonterminal => simp

/-- Before any rule has been considered the only member is a terminal in its own first
set. -/
theorem mem_first_initial {i a : SymbolId} (ha : a ∈ (initial kinds rules).first i) :
  a = i ∧ kinds[a]? = some .terminal
  := by
  rw [first_initial] at ha
  split at ha
  · rename_i hi
    obtain rfl := SymbolSet.mem_singleton.mp ha
    apply And.intro rfl hi
  · cases SymbolSet.not_mem_empty a ha

theorem size_initial :
  (initial kinds rules).sets.size = kinds.size
  := by simp [initial]

theorem lt_size_of_terminal {a : SymbolId} (ha : kinds[a]? = some .terminal) :
  a < kinds.size
  := by
  obtain ⟨hlt, -⟩ := Array.getElem?_eq_some_iff.mp ha
  apply hlt

/-- First sets are the same if they have the same nullable symbols and are the same at each
symbol. -/
theorem eq_of_first {f g : FirstSets} (hnull : f.nullable = g.nullable)
    (hsize : f.sets.size = g.sets.size)
    (hfirst : ∀ i, i < f.sets.size → f.first i = g.first i) :
  f = g
  := by
  have hsets : f.sets = g.sets := by
    apply Array.ext hsize
    intro i hf hg
    simpa [first, hf, hg] using hfirst i hf
  obtain ⟨_, _⟩ := f
  obtain ⟨_, _⟩ := g
  obtain rfl := hsets
  obtain rfl := hnull
  rfl

/-- First sets that are different have different totals. -/
theorem total_lt {f g : FirstSets} (hsize : f.sets.size = kinds.size) (h : f.Grows g)
    (hne : g ≠ f) :
  f.total kinds < g.total kinds
  := by
  apply Finset.sum_lt_sum
  · intro i _
    apply SymbolSet.size_mono (h.first i)
  · by_contra hall
    apply hne
    apply eq_of_first h.nullable h.size
    intro i hi
    by_contra hfirst
    apply hall
    use i, Finset.mem_range.mpr (hsize ▸ h.size ▸ hi)
    apply SymbolSet.size_lt (h.first i) hfirst

/-- A further round adds nothing to the first sets. -/
theorem round_compute :
  round rules (compute kinds rules) = compute kinds rules
  := by
  apply stabilize_fixed (I := fun f => f.sets.size = kinds.size ∧
      ∀ i, ∀ a ∈ f.first i, a < kinds.size) ?_ (total kinds)
    (fun f hf hne => total_lt hf.1 (f.grows_round rules) hne)
    (k := kinds.size * kinds.size)
  · rintro f ⟨-, hf⟩
    have hle : f.total kinds ≤ _ := Finset.sum_le_card_nsmul _ _ kinds.size fun i _ => by
      simpa using SymbolSet.size_le (l := List.range kinds.size)
        fun a ha => List.mem_range.mpr (hf i a ha)
    simpa using hle
  · constructor
    · apply size_initial
    · intro i a ha
      apply lt_size_of_terminal (mem_first_initial ha).2
  · omega
  · rintro f ⟨hsize, hf⟩
    constructor
    · rw [(f.grows_round rules).size, hsize]
    · apply forall_mem_first_round (P := fun _ a => a < kinds.size) rfl hf
      intro r _ f' _ hf'
      apply forall_mem_ofSequence hf'
      intro a ha
      cases SymbolSet.not_mem_empty a ha

theorem grows_compute :
  (initial kinds rules).Grows (compute kinds rules)
  := stabilize_preserves (I := (initial kinds rules).Grows)
    (fun f hf => hf.trans (f.grows_round rules)) _ (.refl _)

theorem nullable_compute :
  (compute kinds rules).nullable = nullableSymbols rules
  := grows_compute.nullable

theorem isNullable_compute {i : SymbolId} :
  (compute kinds rules).isNullable i = true ↔ Vanishes rules [i]
  := by rw [isNullable, nullable_compute, SymbolSet.contains_iff, mem_nullableSymbols]

/-! ### Exactness -/

/-- First sets that hold only what begins their symbols do so for sequences. -/
theorem begins_of_mem_ofSequence {f : FirstSets} (hnull : f.nullable = nullableSymbols rules)
    (hf : ∀ i, ∀ a ∈ f.first i, Begins kinds rules [i] a) {s : List SymbolId} {l : SymbolSet}
    {a : SymbolId} (ha : a ∈ f.ofSequence s l) :
  Begins kinds rules s a ∨ Vanishes rules s ∧ a ∈ l
  := by
  induction s with
  | nil => apply Or.inr ⟨.nil, ha⟩
  | cons i rest ih =>
      rw [ofSequence] at ha
      split at ha
      · rename_i hi
        rw [isNullable, hnull, SymbolSet.contains_iff, mem_nullableSymbols] at hi
        rcases SymbolSet.mem_union.mp ha with ha | ha
        · apply Or.inl ((hf i a ha).append_right rest)
        · rcases ih ha with h | ⟨hrest, ha⟩
          · apply Or.inl (.skip hi h)
          · apply Or.inr ⟨Vanishes.cons_iff.mpr ⟨hi, hrest⟩, ha⟩
      · apply Or.inl ((hf i a ha).append_right rest)

/-- The first set of a symbol holds only terminals that begin it. -/
theorem begins_of_mem_first {i a : SymbolId} (ha : a ∈ (compute kinds rules).first i) :
  Begins kinds rules [i] a
  := by
  revert i a
  have h : ∀ f : FirstSets, (f.nullable = nullableSymbols rules ∧
      ∀ i, ∀ a ∈ f.first i, Begins kinds rules [i] a) →
      (round rules f).nullable = nullableSymbols rules ∧
      ∀ i, ∀ a ∈ (round rules f).first i, Begins kinds rules [i] a := by
    rintro f ⟨hnull, hf⟩
    constructor
    · rw [(f.grows_round rules).nullable, hnull]
    · apply forall_mem_first_round (P := fun i a => Begins kinds rules [i] a) hnull hf
      intro r hr f' hnull' hf' a ha
      rcases begins_of_mem_ofSequence hnull' hf' ha with h | ⟨-, ha⟩
      · apply Begins.expand hr h
      · cases SymbolSet.not_mem_empty a ha
  refine (stabilize_preserves h _ ⟨rfl, ?_⟩).2
  intro i a ha
  obtain ⟨rfl, hi⟩ := mem_first_initial ha
  apply Begins.here hi

/-- A terminal that begins a sequence is in its first set. -/
theorem mem_ofSequence_of_begins (hlhs : ∀ r ∈ rules, r.lhs < kinds.size) {s : List SymbolId}
    {a : SymbolId} (h : Begins kinds rules s a) (l : SymbolSet) :
  a ∈ (compute kinds rules).ofSequence s l
  := by
  induction h generalizing l with
  | here ha =>
      apply mem_ofSequence_cons
      apply grows_compute.first
      rw [first_initial, if_pos ha]
      simp
  | expand hr _ ih =>
      apply mem_ofSequence_cons
      rw [← round_compute]
      apply mem_first_round hr _ (ih ∅)
      rw [grows_compute.size, size_initial]
      apply hlhs _ hr
  | skip hi _ ih =>
      rw [ofSequence]
      rw [if_pos (isNullable_compute.mpr hi)]
      apply SymbolSet.mem_union.mpr (.inr (ih l))

/-- The lookaheads are in the first set of a sequence that vanishes. -/
theorem mem_ofSequence_of_vanishes {s : List SymbolId} (hs : Vanishes rules s) {l : SymbolSet}
    {a : SymbolId} (ha : a ∈ l) :
  a ∈ (compute kinds rules).ofSequence s l
  := by
  induction s with
  | nil => apply ha
  | cons i rest ih =>
      obtain ⟨hi, hrest⟩ := Vanishes.cons_iff.mp hs
      rw [ofSequence]
      rw [if_pos (isNullable_compute.mpr hi)]
      apply SymbolSet.mem_union.mpr (.inr (ih hrest))

/-- The first set of a sequence holds the terminals that begin it, and the lookaheads if it
vanishes. -/
theorem mem_ofSequence_compute (hlhs : ∀ r ∈ rules, r.lhs < kinds.size) {s : List SymbolId}
    {l : SymbolSet} {a : SymbolId} :
  a ∈ (compute kinds rules).ofSequence s l
    ↔ Begins kinds rules s a ∨ Vanishes rules s ∧ a ∈ l
  := by
  constructor
  · apply begins_of_mem_ofSequence nullable_compute fun i a ha => begins_of_mem_first ha
  · rintro (h | ⟨hs, ha⟩)
    · apply mem_ofSequence_of_begins hlhs h
    · apply mem_ofSequence_of_vanishes hs ha

end FirstSets

end ShiftReduce
