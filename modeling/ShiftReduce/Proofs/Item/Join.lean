import ShiftReduce.Proofs.Item.Comparison

/-!
# Merging as a join

Subsets order the sets that have been built with the same cores, and two of them merge into the
least one that has both as subsets (`HashedSet.isJoin_of_merge`).  When several sets are merged,
two by two, what comes out in the end is again the least one that has all of them as subsets
(`MergeTree.Compatible.exists_value`).  So it does not matter in which order that is done and how
they are grouped (`HashedSet.merging_joins`).
-/

namespace ShiftReduce

namespace HashedSet

variable {h : Hasher} {s t u : HashedSet}

/-! ### Subsets -/

theorem isSubset_ofSet {s t : ItemSet} :
  (ofSet h s).isSubset (ofSet h t) = s.isSubset t
  := by
  rw [isSubset, ItemSet.isSubset, sameCores_ofSet, ofSet, ofSorted, ofSet, ofSorted,
    List.zip_map, List.all_map]
  rfl

/-- One set that has been built is a subset of another one if they have the same cores and it
has no lookaheads that the other one does not have. -/
theorem isSubset_iff (hs : s.Built h) (ht : t.Built h) :
  s.isSubset t = true ↔ s.sameCores t = true ∧ ∀ c i, s.Looks c i → t.Looks c i
  := by
  obtain ⟨s, rfl⟩ := hs.exists_ofSet
  obtain ⟨t, rfl⟩ := ht.exists_ofSet
  rw [isSubset_ofSet, sameCores_ofSet, ItemSet.isSubset_iff]
  simp only [looks_ofSet]

theorem sameCores_of_isSubset (hsub : s.isSubset t = true) :
  s.sameCores t = true
  := (Bool.and_eq_true_iff.mp hsub).1

theorem sameCores_refl (hs : s.Built h) :
  s.sameCores s = true
  := (comparison_exact h).sameCores_equivalence.refl ⟨s, hs⟩

theorem sameCores_symm (hs : s.Built h) (ht : t.Built h) (hst : s.sameCores t = true) :
  t.sameCores s = true
  := (comparison_exact h).sameCores_equivalence.symm (x := ⟨s, hs⟩) (y := ⟨t, ht⟩) hst

theorem sameCores_trans (hs : s.Built h) (ht : t.Built h) (hu : u.Built h)
    (hst : s.sameCores t = true) (htu : t.sameCores u = true) :
  s.sameCores u = true
  := (comparison_exact h).sameCores_equivalence.trans
    (x := ⟨s, hs⟩) (y := ⟨t, ht⟩) (z := ⟨u, hu⟩) hst htu

theorem isSubset_refl (hs : s.Built h) :
  s.isSubset s = true
  := by
  rw [isSubset_iff hs hs]
  exact ⟨sameCores_refl hs, fun _ _ => id⟩

theorem isSubset_trans (hs : s.Built h) (ht : t.Built h) (hu : u.Built h)
    (hst : s.isSubset t = true) (htu : t.isSubset u = true) :
  s.isSubset u = true
  := by
  rw [isSubset_iff hs ht] at hst
  rw [isSubset_iff ht hu] at htu
  rw [isSubset_iff hs hu]
  exact ⟨sameCores_trans hs ht hu hst.1 htu.1, fun c i hlook => htu.2 c i (hst.2 c i hlook)⟩

/-- Two sets are subsets of each other if they are the same, and only then. -/
theorem isSubset_antisymm_iff (hs : s.Built h) (ht : t.Built h) :
  s.isSubset t = true ∧ t.isSubset s = true ↔ s.same t = true
  := by
  have hcores := (comparison_exact h).sameCores_iff
  rw [isSubset_iff hs ht, isSubset_iff ht hs]
  apply Iff.trans _ ((comparison_exact h).same_iff s t hs ht).symm
  constructor
  · rintro ⟨hst, hts⟩
    exact ⟨(hcores s t hs ht).mp hst.1, fun c i => ⟨hst.2 c i, hts.2 c i⟩⟩
  · rintro ⟨hagree, hlooks⟩
    have hst := (hcores s t hs ht).mpr hagree
    exact ⟨⟨hst, fun c i => (hlooks c i).mp⟩, sameCores_symm hs ht hst, fun c i => (hlooks c i).mpr⟩

/-! ### Merging two sets -/

/-- Two sets that have been built are merged if and only if they have the same cores. -/
theorem exists_merge_iff (hs : s.Built h) (ht : t.Built h) :
  (∃ u, s.merge h t = .ok u) ↔ s.sameCores t = true
  := by
  obtain ⟨s, rfl⟩ := hs.exists_ofSet
  obtain ⟨t, rfl⟩ := ht.exists_ofSet
  rw [merge_ofSet, sameCores_ofSet]
  constructor
  · rintro ⟨u, hu⟩
    by_contra hcores
    rw [ItemSet.merge, if_neg hcores] at hu
    cases hu
  · intro hcores
    obtain ⟨u, hu, -⟩ := ItemSet.merge_spec hcores
    use ofSet h u
    rw [hu]
    rfl

/-- Two sets merge into one with their cores and the lookaheads of both. -/
theorem merge_spec (hs : s.Built h) (ht : t.Built h) (hmerge : s.merge h t = .ok u) :
  u.sameCores s = true ∧ ∀ c i, u.Looks c i ↔ s.Looks c i ∨ t.Looks c i
  := by
  have hcores := (exists_merge_iff hs ht).mp ⟨u, hmerge⟩
  obtain ⟨s, rfl⟩ := hs.exists_ofSet
  obtain ⟨t, rfl⟩ := ht.exists_ofSet
  rw [sameCores_ofSet] at hcores
  obtain ⟨v, hv, hcore, hlook⟩ := ItemSet.merge_spec hcores
  rw [merge_ofSet, hv] at hmerge
  obtain rfl : ofSet h v = u := Except.ok.inj hmerge
  rw [sameCores_ofSet, ItemSet.sameCores_iff]
  simp only [looks_ofSet]
  exact ⟨hcore, hlook⟩

/-- The set has the cores of two sets, both are subsets of it, and it is a subset of each
set that has been built and has both as subsets. -/
structure IsJoin (h : Hasher) (s t u : HashedSet) : Prop where
  sameCores_left : u.sameCores s = true
  sameCores_right : u.sameCores t = true
  left : s.isSubset u = true
  right : t.isSubset u = true
  least : ∀ v, v.Built h → s.isSubset v = true → t.isSubset v = true → u.isSubset v = true

/-- Two sets merge into the least one that has both as subsets. -/
theorem isJoin_of_merge (hs : s.Built h) (ht : t.Built h) (hmerge : s.merge h t = .ok u) :
  IsJoin h s t u
  := by
  have hu := Built.merge hs ht hmerge
  have hst := (exists_merge_iff hs ht).mp ⟨u, hmerge⟩
  obtain ⟨hus, hlook⟩ := merge_spec hs ht hmerge
  have hut := sameCores_trans hu hs ht hus hst
  constructor
  · apply hus
  · apply hut
  · rw [isSubset_iff hs hu]
    exact ⟨sameCores_symm hu hs hus, fun c i his => (hlook c i).mpr (.inl his)⟩
  · rw [isSubset_iff ht hu]
    exact ⟨sameCores_symm hu ht hut, fun c i hit => (hlook c i).mpr (.inr hit)⟩
  · intro v hv hsv htv
    rw [isSubset_iff hs hv] at hsv
    rw [isSubset_iff ht hv] at htv
    rw [isSubset_iff hu hv]
    constructor
    · apply sameCores_trans hu hs hv hus hsv.1
    · intro c i hi
      rcases (hlook c i).mp hi with his | hit
      · apply hsv.2 c i his
      · apply htv.2 c i hit

end HashedSet

/-! ### Merging many sets -/

/-- An order and a grouping in which sets are merged two by two. -/
inductive MergeTree where
  | set (s : HashedSet)
  | merge (left right : MergeTree)

namespace MergeTree

/-- The sets that are merged. -/
def sets : MergeTree → List HashedSet
  | set s => [s]
  | merge left right => left.sets ++ right.sets

/-- What the sets merge into. -/
def value (h : Hasher) : MergeTree → Except ItemError HashedSet
  | set s => .ok s
  | merge left right => do
    let s ← left.value h
    let t ← right.value h
    s.merge h t

theorem exists_mem_sets (m : MergeTree) :
  ∃ s, s ∈ m.sets
  := by
  induction m with
  | set s => exact ⟨s, List.mem_singleton_self s⟩
  | merge left right ihl ihr =>
      obtain ⟨s, hs⟩ := ihl
      exact ⟨s, List.mem_append_left _ hs⟩

/-- The sets that are merged have been built, and all have the same cores. -/
structure Compatible (h : Hasher) (m : MergeTree) : Prop where
  built : ∀ s ∈ m.sets, s.Built h
  sameCores : ∀ s ∈ m.sets, ∀ t ∈ m.sets, s.sameCores t = true

/-- The set is the least one that has been built and has all sets that are merged as subsets. -/
structure IsJoin (h : Hasher) (m : MergeTree) (u : HashedSet) : Prop where
  built : u.Built h
  isSubset : ∀ s ∈ m.sets, s.isSubset u = true
  least : ∀ v, v.Built h → (∀ s ∈ m.sets, s.isSubset v = true) → u.isSubset v = true

variable {h : Hasher}

theorem Compatible.left {left right : MergeTree} (hm : (merge left right).Compatible h) :
  left.Compatible h
  := by
  constructor
  · intro s hs
    apply hm.built s (List.mem_append_left _ hs)
  · intro s hs t ht
    apply hm.sameCores s (List.mem_append_left _ hs) t (List.mem_append_left _ ht)

theorem Compatible.right {left right : MergeTree} (hm : (merge left right).Compatible h) :
  right.Compatible h
  := by
  constructor
  · intro s hs
    apply hm.built s (List.mem_append_right _ hs)
  · intro s hs t ht
    apply hm.sameCores s (List.mem_append_right _ hs) t (List.mem_append_right _ ht)

/-- Joins of sets that have the same cores have the same cores. -/
theorem Compatible.sameCores_of_isJoin {left right : MergeTree} {s t : HashedSet}
    (hm : (merge left right).Compatible h) (hs : left.IsJoin h s) (ht : right.IsJoin h t) :
  s.sameCores t = true
  := by
  obtain ⟨x, hx⟩ := left.exists_mem_sets
  obtain ⟨y, hy⟩ := right.exists_mem_sets
  have hbuiltx := hm.left.built x hx
  have hbuilty := hm.right.built y hy
  have hxs := HashedSet.sameCores_of_isSubset (hs.isSubset x hx)
  have hyt := HashedSet.sameCores_of_isSubset (ht.isSubset y hy)
  have hxy := hm.sameCores x (List.mem_append_left _ hx) y (List.mem_append_right _ hy)
  have hsx := HashedSet.sameCores_symm hbuiltx hs.built hxs
  have hxt := HashedSet.sameCores_trans hbuiltx hbuilty ht.built hxy hyt
  apply HashedSet.sameCores_trans hs.built hbuiltx ht.built hsx hxt

/-- Sets that have the same cores merge into their join, in whatever order and grouping. -/
theorem Compatible.exists_value {m : MergeTree} (hm : m.Compatible h) :
  ∃ u, m.value h = .ok u ∧ m.IsJoin h u
  := by
  induction m with
  | set s =>
      have hs := hm.built s (List.mem_singleton_self s)
      refine ⟨s, rfl, hs, ?_, ?_⟩
      · intro t ht
        rw [List.mem_singleton.mp ht]
        apply HashedSet.isSubset_refl hs
      · intro v hv hsub
        apply hsub s (List.mem_singleton_self s)
  | merge left right ihl ihr =>
      obtain ⟨s, hleft, hs⟩ := ihl hm.left
      obtain ⟨t, hright, ht⟩ := ihr hm.right
      have hcores := hm.sameCores_of_isJoin hs ht
      obtain ⟨u, hu⟩ := (HashedSet.exists_merge_iff hs.built ht.built).mpr hcores
      have hbuilt := HashedSet.Built.merge hs.built ht.built hu
      have hjoin := HashedSet.isJoin_of_merge hs.built ht.built hu
      refine ⟨u, ?_, hbuilt, ?_, ?_⟩
      · rw [value, hleft, hright]
        apply hu
      · intro x hx
        have hx' := hm.built x hx
        rcases List.mem_append.mp hx with hx | hx
        · apply HashedSet.isSubset_trans hx' hs.built hbuilt (hs.isSubset x hx) hjoin.left
        · apply HashedSet.isSubset_trans hx' ht.built hbuilt (ht.isSubset x hx) hjoin.right
      · intro v hv hsub
        apply hjoin.least v hv
        · apply hs.least v hv
          intro x hx
          apply hsub x (List.mem_append_left _ hx)
        · apply ht.least v hv
          intro x hx
          apply hsub x (List.mem_append_right _ hx)

/-- The same sets, whatever the order, the grouping and the number of times they are taken, have
only one join. -/
theorem IsJoin.same {m m' : MergeTree} {u v : HashedSet} (hu : m.IsJoin h u)
    (hv : m'.IsJoin h v) (hsets : ∀ s, s ∈ m.sets ↔ s ∈ m'.sets) :
  u.same v = true
  := by
  apply (HashedSet.isSubset_antisymm_iff hu.built hv.built).mp
  constructor
  · apply hu.least v hv.built
    intro s hs
    apply hv.isSubset s ((hsets s).mp hs)
  · apply hv.least u hu.built
    intro s hs
    apply hu.isSubset s ((hsets s).mpr hs)

end MergeTree

namespace HashedSet

/-- For the sets that have been built, in whatever way hashes are computed: two of them merge if
and only if they have the same cores, and then into their join.  Being a subset is an order up to
sameness.  Sets that have the same cores merge two by two into their join, and if that is done
with the same sets in another order and grouping, the result is the same and has the same
hashes. -/
theorem merging_joins (h : Hasher) :
  (∀ s t : HashedSet, s.Built h → t.Built h →
      ((∃ u, s.merge h t = .ok u) ↔ s.sameCores t = true)
      ∧ ∀ u, s.merge h t = .ok u → IsJoin h s t u)
    ∧ (∀ s : HashedSet, s.Built h → s.isSubset s = true)
    ∧ (∀ s t u : HashedSet, s.Built h → t.Built h → u.Built h →
      s.isSubset t = true → t.isSubset u = true → s.isSubset u = true)
    ∧ (∀ s t : HashedSet, s.Built h → t.Built h →
      (s.isSubset t = true ∧ t.isSubset s = true ↔ s.same t = true))
    ∧ ∀ m m' : MergeTree, m.Compatible h → (∀ s, s ∈ m.sets ↔ s ∈ m'.sets) →
      ∃ u v, m.value h = .ok u ∧ m'.value h = .ok v ∧ m.IsJoin h u ∧ u.same v = true
        ∧ u.coreHash = v.coreHash ∧ u.hash = v.hash
  := by
  refine ⟨?_, ?_, ?_, ?_, ?_⟩
  · intro s t hs ht
    exact ⟨exists_merge_iff hs ht, fun u hu => isJoin_of_merge hs ht hu⟩
  · intro s hs
    apply isSubset_refl hs
  · intro s t u hs ht hu
    apply isSubset_trans hs ht hu
  · intro s t hs ht
    apply isSubset_antisymm_iff hs ht
  · intro m m' hm hsets
    have hm' : m'.Compatible h := by
      constructor
      · intro s hs
        apply hm.built s ((hsets s).mpr hs)
      · intro s hs t ht
        apply hm.sameCores s ((hsets s).mpr hs) t ((hsets t).mpr ht)
    obtain ⟨u, hu, hjoin⟩ := hm.exists_value
    obtain ⟨v, hv, hjoin'⟩ := hm'.exists_value
    have hsame := hjoin.same hjoin' hsets
    have hhashes := (comparison_exact h).hashes_of_same u v hjoin.built hjoin'.built hsame
    exact ⟨u, v, hu, hv, hjoin, hsame, hhashes⟩

/-- The closure of the item behind `A` with the given lookaheads. -/
def closureBehindA (lookaheads : List SymbolId) : HashedSet :=
  .ofSet .rotating (.closure .optional [(behindA lookaheads).item])

/-- Three sets, of which the first two are merged first. -/
def threeSets (r s t : HashedSet) : MergeTree :=
  .merge (.merge (.set r) (.set s)) (.set t)

/-- Three closures with one lookahead each merge into the same set when they are taken in the
opposite order.  It is between the closure with one of the lookaheads and the one with all. -/
theorem merging_joins_behindA :
  ∃ u v, (threeSets (closureBehindA [0]) (closureBehindA [6]) (closureBehindA [7])).value
        .rotating = .ok u
    ∧ (threeSets (closureBehindA [7]) (closureBehindA [6]) (closureBehindA [0])).value
        .rotating = .ok v
    ∧ u.same v = true ∧ u.hash = v.hash
    ∧ (closureBehindA [6]).isSubset u = true ∧ u.isSubset (closureBehindA [0, 6, 7]) = true
  := by
  obtain ⟨-, -, -, -, htrees⟩ := merging_joins .rotating
  have hproper :=
    (Grammar.encodes_of_ofLanguage Grammar.ofLanguage_optional).proper Language.optional_definable
  have hbuilt : ∀ {lookaheads}, (SymbolSet.ofList lookaheads).isEmpty = false →
      (closureBehindA lookaheads).Built .rotating := by
    intro lookaheads hne
    apply Built.closure _ (closure_eq hproper [behindA lookaheads])
    intro x hx
    rw [List.mem_singleton.mp hx]
    apply built_behindA hne
  have hcompatible : (threeSets (closureBehindA [0]) (closureBehindA [6])
      (closureBehindA [7])).Compatible .rotating := by
    constructor
    · simp only [threeSets, MergeTree.sets, List.cons_append, List.nil_append,
        List.forall_mem_cons]
      exact ⟨hbuilt rfl, hbuilt rfl, hbuilt rfl, List.forall_mem_nil _⟩
    · decide +kernel
  have hreverse : (threeSets (closureBehindA [7]) (closureBehindA [6]) (closureBehindA [0])).sets
      = (threeSets (closureBehindA [0]) (closureBehindA [6]) (closureBehindA [7])).sets.reverse :=
    rfl
  have hsets := htrees _ (threeSets (closureBehindA [7]) (closureBehindA [6]) (closureBehindA [0]))
    hcompatible
  rw [hreverse] at hsets
  obtain ⟨u, v, hu, hv, hjoin, hsame, -, hhash⟩ := hsets fun s => List.mem_reverse.symm
  refine ⟨u, v, hu, hv, hsame, hhash, ?_, ?_⟩
  · apply hjoin.isSubset
    simp [threeSets, MergeTree.sets]
  · apply hjoin.least _ (hbuilt rfl)
    decide +kernel

end HashedSet

end ShiftReduce
