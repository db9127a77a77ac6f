import Mathlib.Data.List.Induction
import ShiftReduce.Automaton.Merged
import ShiftReduce.Proofs.Automaton.Canonical
import ShiftReduce.Proofs.OrderedMap

/-!
# The merged automaton is faithful

Putting a state into a class never fails, and it puts states into the same class if they have
the same cores.  A class has the lookaheads of all its states, and its edges lead to the
classes that the edges of any of its states lead to.  So a prefix is spelled by the classes
of the states that spell it in the automaton before.
-/

namespace ShiftReduce

namespace Automaton

variable {g : Grammar}

/-! ### Classes -/

/-- The states that have been put into classes, with their classes. -/
def Classes.placed (nodes : List Node) (c : Classes) : List (Node × StateId) :=
  nodes.zip c.classOf.toList

/-- What holds of the classes of some states. -/
structure Classes.Sound (nodes : List Node) (c : Classes) : Prop where
  size : nodes.length = c.classOf.toList.length
  start : nodes ≠ [] → c.classOf[0]? = some startState
  node : ∀ {node k}, (node, k) ∈ c.placed nodes → ∃ m, c.merged[k]? = some m
    ∧ m.sameCores node.items = true ∧ ∀ b x, node.items.Looks b x → m.Looks b x
  looks : ∀ {k : StateId} {m b x}, c.merged[k]? = some m → ItemSet.Looks m b x →
    ∃ node, (node, k) ∈ c.placed nodes ∧ node.items.Looks b x
  member : ∀ {k : StateId} {m}, c.merged[k]? = some m → ∃ node, (node, k) ∈ c.placed nodes
  distinct : ∀ {k k' : StateId} {m m' : ItemSet}, c.merged[k]? = some m →
    c.merged[k']? = some m' → m.sameCores m' = true → k = k'

namespace Classes

theorem sound_empty :
  Sound [] ⟨#[], #[]⟩
  := by
  constructor <;> simp [placed]

variable {nodes : List Node} {c : Classes}

theorem Sound.placed_push (hc : c.Sound nodes) (node : Node) (merged : Array ItemSet)
    (k : StateId) :
  placed (nodes ++ [node]) ⟨merged, c.classOf.push k⟩ = c.placed nodes ++ [(node, k)]
  := by
  rw [placed, Array.toList_push, List.zip_append hc.size]
  rfl

theorem Sound.start_push (hc : c.Sound nodes) {k : StateId} (hk : nodes = [] → k = startState) :
  (c.classOf.push k)[0]? = some startState
  := by
  by_cases hnodes : nodes = []
  · have hsize := hc.size
    rw [hnodes, List.length_nil, Array.length_toList] at hsize
    rw [Array.getElem?_push, if_pos hsize, hk hnodes]
  · have hstart := hc.start hnodes
    obtain ⟨hlt, -⟩ := Array.getElem?_eq_some_iff.mp hstart
    rw [Array.getElem?_push, if_neg (Nat.ne_of_lt hlt), hstart]

/-- Some sets of items become others when a set is merged into the one with a number. -/
structure Takes (merged merged' : Array ItemSet) (k : StateId) (s : ItemSet) : Prop where
  taken : ∃ m, merged'[k]? = some m ∧ m.sameCores s = true ∧ ∀ b x, s.Looks b x → m.Looks b x
  kept : ∀ {k' : StateId} {m : ItemSet}, merged[k']? = some m → ∃ m', merged'[k']? = some m'
    ∧ m'.sameCores m = true ∧ ∀ b x, m.Looks b x → m'.Looks b x
  looks : ∀ {k' : StateId} {m b x}, merged'[k']? = some m → ItemSet.Looks m b x →
    (∃ m', merged[k']? = some m' ∧ m'.Looks b x) ∨ k' = k ∧ s.Looks b x
  member : ∀ {k' : StateId} {m : ItemSet}, merged'[k']? = some m →
    (∃ m', merged[k']? = some m') ∨ k' = k
  distinct : ∀ {k₁ k₂ : StateId} {m₁ m₂ : ItemSet}, merged'[k₁]? = some m₁ →
    merged'[k₂]? = some m₂ → m₁.sameCores m₂ = true → k₁ = k₂

/-- When a class takes a state the classes are still sound. -/
theorem Sound.of_takes (hc : c.Sound nodes) {node : Node} {k : StateId} {merged : Array ItemSet}
    (hstart : nodes = [] → k = startState) (h : Takes c.merged merged k node.items) :
  Sound (nodes ++ [node]) ⟨merged, c.classOf.push k⟩
  := by
  have hlast : (node, k) ∈ placed (nodes ++ [node]) ⟨merged, c.classOf.push k⟩ := by
    rw [hc.placed_push]
    apply List.mem_append_right _ (List.mem_singleton_self _)
  have hformer : ∀ {entry}, entry ∈ c.placed nodes →
      entry ∈ placed (nodes ++ [node]) ⟨merged, c.classOf.push k⟩ := by
    intro entry hentry
    rw [hc.placed_push]
    apply List.mem_append_left _ hentry
  constructor
  · simp [hc.size]
  · intro _
    apply hc.start_push hstart
  · intro node' k' hmem
    rw [hc.placed_push] at hmem
    rcases List.mem_append.mp hmem with hmem | hmem
    · obtain ⟨m, hm, hsame, hlook⟩ := hc.node hmem
      obtain ⟨m', hm', hsame', hlook'⟩ := h.kept hm
      use m', hm', ItemSet.sameCores_trans hsame' hsame
      intro b x hx
      apply hlook' b x (hlook b x hx)
    · cases List.mem_singleton.mp hmem
      apply h.taken
  · intro k' m b x hm hx
    rcases h.looks hm hx with ⟨m', hm', hx⟩ | ⟨rfl, hx⟩
    · obtain ⟨node', hmem, hx⟩ := hc.looks hm' hx
      exact ⟨node', hformer hmem, hx⟩
    · exact ⟨node, hlast, hx⟩
  · intro k' m hm
    rcases h.member hm with ⟨m', hm'⟩ | rfl
    · obtain ⟨node', hmem⟩ := hc.member hm'
      exact ⟨node', hformer hmem⟩
    · exact ⟨node, hlast⟩
  · intro k₁ k₂ m₁ m₂ hm₁ hm₂ hsame
    apply h.distinct hm₁ hm₂ hsame

/-- A state joins the class with its cores. -/
theorem Sound.takes_of_same (hc : c.Sound nodes) {s s' u : ItemSet} {k : StateId}
    (hk : c.merged[k]? = some s) (hsame : s.sameCores s' = true)
    (hcores : u.sameCores s = true)
    (hlook : ∀ b x, u.Looks b x ↔ s.Looks b x ∨ s'.Looks b x) :
  Takes c.merged (c.merged.setIfInBounds k u) k s'
  := by
  obtain ⟨hlt, -⟩ := Array.getElem?_eq_some_iff.mp hk
  have hset : (c.merged.setIfInBounds k u)[k]? = some u := by
    rw [Array.getElem?_setIfInBounds, if_pos rfl, if_pos hlt]
  have hother : ∀ {k' : StateId}, k' ≠ k →
      (c.merged.setIfInBounds k u)[k']? = c.merged[k']? := by
    intro k' hne
    rw [Array.getElem?_setIfInBounds, if_neg (Ne.symm hne)]
  -- the former items of a class have the same cores as the present ones
  have hformer : ∀ {k' : StateId} {m : ItemSet},
      (c.merged.setIfInBounds k u)[k']? = some m →
      ∃ m', c.merged[k']? = some m' ∧ m.sameCores m' = true := by
    intro k' m h
    by_cases hk' : k' = k
    · subst hk'
      rw [hset] at h
      cases h
      exact ⟨s, hk, hcores⟩
    · rw [hother hk'] at h
      exact ⟨m, h, ItemSet.sameCores_refl m⟩
  constructor
  · use u, hset, ItemSet.sameCores_trans hcores hsame
    intro b x hx
    apply (hlook b x).mpr (.inr hx)
  · intro k' m hm
    by_cases hk' : k' = k
    · subst hk'
      rw [hk] at hm
      cases hm
      use u, hset, hcores
      intro b x hx
      apply (hlook b x).mpr (.inl hx)
    · exact ⟨m, (hother hk').trans hm, ItemSet.sameCores_refl m, fun _ _ hx => hx⟩
  · intro k' m b x hm hx
    by_cases hk' : k' = k
    · subst hk'
      rw [hset] at hm
      cases hm
      rcases (hlook b x).mp hx with hx | hx
      · apply Or.inl ⟨s, hk, hx⟩
      · apply Or.inr ⟨rfl, hx⟩
    · apply Or.inl ⟨m, (hother hk').symm.trans hm, hx⟩
  · intro k' m hm
    obtain ⟨m', hm', -⟩ := hformer hm
    apply Or.inl ⟨m', hm'⟩
  · intro k₁ k₂ m₁ m₂ hm₁ hm₂ hsame'
    obtain ⟨m₁', hm₁', hcores₁⟩ := hformer hm₁
    obtain ⟨m₂', hm₂', hcores₂⟩ := hformer hm₂
    apply hc.distinct hm₁' hm₂'
    apply ItemSet.sameCores_trans (ItemSet.sameCores_symm hcores₁)
    apply ItemSet.sameCores_trans hsame' hcores₂

/-- A state whose cores no class has makes a class of its own. -/
theorem Sound.takes_of_none (hc : c.Sound nodes) {s : ItemSet}
    (hnone : ∀ {k : StateId} {m}, c.merged[k]? = some m → m.sameCores s = false) :
  Takes c.merged (c.merged.push s) c.merged.size s
  := by
  have hget : ∀ {k : StateId} {m : ItemSet}, (c.merged.push s)[k]? = some m →
      k = c.merged.size ∧ m = s ∨ c.merged[k]? = some m := by
    intro k m h
    rw [Array.getElem?_push] at h
    split at h
    · rename_i heq
      apply Or.inl ⟨heq, (Option.some.inj h).symm⟩
    · apply Or.inr h
  constructor
  · exact ⟨s, Array.getElem?_push_size, ItemSet.sameCores_refl s, fun _ _ hx => hx⟩
  · intro k m hm
    obtain ⟨hlt, -⟩ := Array.getElem?_eq_some_iff.mp hm
    refine ⟨m, ?_, ItemSet.sameCores_refl m, fun _ _ hx => hx⟩
    rw [Array.getElem?_push, if_neg (Nat.ne_of_lt hlt), hm]
  · intro k m b x hm hx
    rcases hget hm with ⟨rfl, rfl⟩ | hm
    · apply Or.inr ⟨rfl, hx⟩
    · apply Or.inl ⟨m, hm, hx⟩
  · intro k m hm
    rcases hget hm with ⟨rfl, -⟩ | hm
    · apply Or.inr rfl
    · apply Or.inl ⟨m, hm⟩
  · intro k₁ k₂ m₁ m₂ hm₁ hm₂ hsame
    rcases hget hm₁ with ⟨hk₁, hs₁⟩ | hold₁
    · rcases hget hm₂ with ⟨hk₂, -⟩ | hold₂
      · rw [hk₁, hk₂]
      · rw [hs₁] at hsame
        have hother := hnone hold₂
        rw [ItemSet.sameCores_symm hsame] at hother
        cases hother
    · rcases hget hm₂ with ⟨-, hs₂⟩ | hold₂
      · rw [hs₂, hnone hold₁] at hsame
        cases hsame
      · apply hc.distinct hold₁ hold₂ hsame

/-- One more state is put into a class. -/
theorem Sound.place (hc : c.Sound nodes) (node : Node) :
  ∃ c', c.place node.items = .ok c' ∧ c'.Sound (nodes ++ [node])
  := by
  rw [Classes.place]
  cases hfind : c.merged.findIdx? (·.sameCores node.items) with
  | some k =>
      obtain ⟨hlt, hsame, -⟩ := Array.findIdx?_eq_some_iff_getElem.mp hfind
      have hk := Array.getElem?_eq_getElem hlt
      obtain ⟨u, hu, hcore, hlook⟩ := ItemSet.merge_spec hsame
      have hcores := ItemSet.sameCores_iff.mpr hcore
      refine ⟨_, ?_, hc.of_takes ?_ (hc.takes_of_same hk hsame hcores hlook)⟩
      · simp only [hk, Option.getD_some, hu]
        rfl
      · rintro rfl
        obtain ⟨node', hnode'⟩ := hc.member hk
        simp [placed] at hnode'
  | none =>
      refine ⟨_, rfl, hc.of_takes ?_ (hc.takes_of_none ?_)⟩
      · rintro rfl
        apply Nat.eq_zero_of_not_pos
        intro hpos
        obtain ⟨node', hnode'⟩ := hc.member (Array.getElem?_eq_getElem hpos)
        simp [placed] at hnode'
      · intro k m hm
        have hall := Array.findIdx?_eq_none_iff.mp hfind
        apply hall m (Array.mem_of_getElem? hm)

end Classes

/-- All states are put into classes. -/
theorem exists_classes (a : Automaton) :
  ∃ c, a.classes = .ok c ∧ c.Sound a.nodes.toList
  := by
  rw [classes]
  induction a.nodes.toList using List.reverseRecOn with
  | nil => exact ⟨_, rfl, Classes.sound_empty⟩
  | append_singleton nodes node ih =>
      obtain ⟨c, hc, hsound⟩ := ih
      obtain ⟨c', hc', hsound'⟩ := hsound.place node
      refine ⟨c', ?_, hsound'⟩
      simp [List.foldlM_append, hc, hc', bind, Except.bind, pure, Except.pure]

/-! ### Edges of classes -/

/-- The edges that a class gets from the states put into it, whose targets are renamed. -/
structure EdgesOf (placed : List (Node × StateId)) (rename : StateId → StateId)
    (slots : Array (OrderedMap SymbolId StateId)) : Prop where
  sound : ∀ {k : StateId} {slot i j'}, slots[k]? = some slot → slot.get? i = some j' →
    ∃ node j, (node, k) ∈ placed ∧ node.edges.get? i = some j ∧ rename j = j'
  complete : ∀ {node k i j slot}, (node, k) ∈ placed → node.edges.get? i = some j →
    slots[k]? = some slot → ∃ j', slot.get? i = some j'

theorem edgesOf_foldl (rename : StateId → StateId) (n : Nat)
    (placed : List (Node × StateId)) :
  EdgesOf placed rename (placed.foldl
    (fun slots (node, k) => slots.modify k fun slot =>
      node.edges.entries.foldl (fun slot (i, target) => slot.put i (rename target)) slot)
    (Array.replicate n ∅))
  := by
  induction placed using List.reverseRecOn with
  | nil =>
      constructor
      · intro k slot i j' hslot hget
        rw [List.foldl_nil, Array.getElem?_replicate] at hslot
        split at hslot
        · cases hslot
          cases hget
        · cases hslot
      · intro node k i j slot hmem
        cases hmem
  | append_singleton placed entry ih =>
      obtain ⟨node, k⟩ := entry
      rw [List.foldl_append, List.foldl_cons, List.foldl_nil]
      constructor
      · intro k' slot i j' hslot hget
        rw [Array.getElem?_modify] at hslot
        split at hslot
        · rename_i heq
          subst heq
          obtain ⟨former, hformer, rfl⟩ := Option.map_eq_some_iff.mp hslot
          rw [OrderedMap.get?_foldl_put, Option.or_eq_some_iff] at hget
          rcases hget with hget | ⟨-, hget⟩
          · obtain ⟨j, hj, rfl⟩ := Option.map_eq_some_iff.mp hget
            exact ⟨node, j, List.mem_append_right _ (List.mem_singleton_self _), hj, rfl⟩
          · obtain ⟨node', j, hmem, hj⟩ := ih.sound hformer hget
            exact ⟨node', j, List.mem_append_left _ hmem, hj⟩
        · obtain ⟨node', j, hmem, hj⟩ := ih.sound hslot hget
          exact ⟨node', j, List.mem_append_left _ hmem, hj⟩
      · intro node' k' i j slot hmem hj hslot
        rw [Array.getElem?_modify] at hslot
        split at hslot
        · rename_i heq
          subst heq
          obtain ⟨former, hformer, rfl⟩ := Option.map_eq_some_iff.mp hslot
          rw [OrderedMap.get?_foldl_put]
          rcases List.mem_append.mp hmem with hmem | hmem
          · obtain ⟨j', hj'⟩ := ih.complete hmem hj hformer
            cases hnode : node.edges.get? i with
            | none => exact ⟨j', by simpa using hj'⟩
            | some j'' => exact ⟨rename j'', by simp⟩
          · cases List.mem_singleton.mp hmem
            exact ⟨rename j, by simp [hj]⟩
        · rename_i hne
          rcases List.mem_append.mp hmem with hmem | hmem
          · apply ih.complete hmem hj hslot
          · cases List.mem_singleton.mp hmem
            cases hne rfl

/-- There is a place for the edges of each class. -/
theorem size_classEdges (a : Automaton) (c : Classes) :
  (a.classEdges c).size = c.merged.size
  := by
  rw [classEdges]
  rw [← Array.foldl_toList]
  generalize (a.nodes.zip c.classOf).toList = placed
  induction placed using List.reverseRecOn with
  | nil => simp
  | append_singleton placed entry ih =>
      rw [List.foldl_append, List.foldl_cons, List.foldl_nil, Array.size_modify]
      apply ih

theorem edgesOf_classEdges (a : Automaton) (c : Classes) :
  EdgesOf (c.placed a.nodes.toList) (fun j => c.classOf[j]?.getD startState) (a.classEdges c)
  := by
  rw [classEdges]
  rw [← Array.foldl_toList, Array.toList_zip]
  apply edgesOf_foldl

/-! ### States and their classes -/

/-- The states of an automaton are merged to those of another one. -/
structure Merges (a m : Automaton) (cls : StateId → StateId) : Prop where
  start : cls startState = startState
  node : ∀ {q node}, a.node? q = some node → ∃ node', m.node? (cls q) = some node'
    ∧ node'.items.sameCores node.items = true
    ∧ ∀ c x, node.items.Looks c x → node'.items.Looks c x
  looks : ∀ {k node' c x}, m.node? k = some node' → node'.items.Looks c x →
    ∃ q node, a.node? q = some node ∧ cls q = k ∧ node.items.Looks c x
  member : ∀ {k node'}, m.node? k = some node' →
    ∃ q node, a.node? q = some node ∧ cls q = k
  distinct : ∀ {q₁ q₂ node₁ node₂}, a.node? q₁ = some node₁ → a.node? q₂ = some node₂ →
    node₁.items.sameCores node₂.items = true → cls q₁ = cls q₂
  edge_sound : ∀ {k node' i j'}, m.node? k = some node' → node'.edges.get? i = some j' →
    ∃ q node j, a.node? q = some node ∧ cls q = k ∧ node.edges.get? i = some j ∧ cls j = j'
  edge_complete : ∀ {q node i j node'}, a.node? q = some node →
    node.edges.get? i = some j → m.node? (cls q) = some node' →
    ∃ j', node'.edges.get? i = some j'

/-- The states that have been put into classes are those of the automaton. -/
theorem mem_placed {a : Automaton} {c : Classes} {node : Node} {k : StateId} :
  (node, k) ∈ c.placed a.nodes.toList
    ↔ ∃ q : StateId, a.node? q = some node ∧ c.classOf[q]? = some k
  := by
  rw [Classes.placed, ← Array.toList_zip, Array.mem_toList_iff, Array.mem_iff_getElem?]
  simp only [Array.getElem?_zip_eq_some, node?]

/-- The class of a state of the automaton. -/
theorem getD_mem_placed {a : Automaton} {c : Classes} (hc : c.Sound a.nodes.toList) {q : StateId}
    {node : Node} (hq : a.node? q = some node) :
  (node, c.classOf[q]?.getD startState) ∈ c.placed a.nodes.toList
  := by
  obtain ⟨hlt, -⟩ := Array.getElem?_eq_some_iff.mp hq
  have hsize := hc.size
  rw [Array.length_toList, Array.length_toList] at hsize
  rw [hsize] at hlt
  refine mem_placed.mpr ⟨q, hq, ?_⟩
  rw [Array.getElem?_eq_getElem hlt, Option.getD_some]

/-- The merged automaton has the items and the edges of the classes. -/
theorem exists_merged_of_classes {a : Automaton} {c : Classes} (hc : a.classes = .ok c) :
  ∃ m, a.merged = .ok m ∧ ∀ {k : StateId} {node}, m.node? k = some node
    ↔ c.merged[k]? = some node.items ∧ (a.classEdges c)[k]? = some node.edges
  := by
  rw [merged, hc]
  refine ⟨_, rfl, ?_⟩
  intro k node
  simp only [node?, Array.getElem?_map, Option.map_eq_some_iff, Array.getElem?_zip_eq_some,
    Prod.exists]
  constructor
  · rintro ⟨items, edges, ⟨hitems, hedges⟩, rfl⟩
    exact ⟨hitems, hedges⟩
  · rintro ⟨hitems, hedges⟩
    exact ⟨node.items, node.edges, ⟨hitems, hedges⟩, rfl⟩

/-- Merging does not fail, and it merges the states. -/
theorem exists_merged {a : Automaton} (ha : a.nodes ≠ #[]) :
  ∃ m cls, a.merged = .ok m ∧ Merges a m cls
  := by
  obtain ⟨c, hc, hsound⟩ := exists_classes a
  obtain ⟨m, hm, hnode⟩ := exists_merged_of_classes hc
  have hedges := edgesOf_classEdges a c
  have hmem : ∀ {node k}, (node, k) ∈ c.placed a.nodes.toList →
      ∃ q, a.node? q = some node ∧ c.classOf[q]?.getD startState = k := by
    intro node k h
    obtain ⟨q, hq, hk⟩ := mem_placed.mp h
    use q, hq
    rw [hk, Option.getD_some]
  refine ⟨m, fun q => c.classOf[q]?.getD startState, hm, ?_⟩
  constructor
  · have hnodes : a.nodes.toList ≠ [] := fun h => ha (Array.toList_eq_nil_iff.mp h)
    simp only [startState] at hsound ⊢
    rw [hsound.start hnodes, Option.getD_some]
    rfl
  · intro q node hq
    obtain ⟨s, hs, hsame, hlook⟩ := hsound.node (getD_mem_placed hsound hq)
    obtain ⟨hlt, -⟩ := Array.getElem?_eq_some_iff.mp hs
    rw [← size_classEdges] at hlt
    refine ⟨⟨s, (a.classEdges c)[_]⟩, hnode.mpr ⟨hs, Array.getElem?_eq_getElem hlt⟩, hsame,
      hlook⟩
  · intro k node' b x hk hx
    obtain ⟨node, hplace, hx⟩ := hsound.looks (hnode.mp hk).1 hx
    obtain ⟨q, hq, hqk⟩ := hmem hplace
    exact ⟨q, node, hq, hqk, hx⟩
  · intro k node' hk
    obtain ⟨node, hplace⟩ := hsound.member (hnode.mp hk).1
    obtain ⟨q, hq, hqk⟩ := hmem hplace
    exact ⟨q, node, hq, hqk⟩
  · intro q₁ q₂ node₁ node₂ hq₁ hq₂ hsame
    obtain ⟨s₁, hs₁, hsame₁, -⟩ := hsound.node (getD_mem_placed hsound hq₁)
    obtain ⟨s₂, hs₂, hsame₂, -⟩ := hsound.node (getD_mem_placed hsound hq₂)
    apply hsound.distinct hs₁ hs₂
    apply ItemSet.sameCores_trans hsame₁
    apply ItemSet.sameCores_trans hsame (ItemSet.sameCores_symm hsame₂)
  · intro k node' i j' hk hj'
    obtain ⟨node, j, hplace, hj, hjj'⟩ := hedges.sound (hnode.mp hk).2 hj'
    obtain ⟨q, hq, hqk⟩ := hmem hplace
    exact ⟨q, node, j, hq, hqk, hj, hjj'⟩
  · intro q node i j node' hq hj hk
    apply hedges.complete (getD_mem_placed hsound hq) hj (hnode.mp hk).2

/-- Sets with the same cores lead to sets with the same cores. -/
theorem sameCores_goto (hg : g.Proper) {s t : ItemSet} (h : s.sameCores t = true)
    (i : SymbolId) :
  (s.goto g i).sameCores (t.goto g i) = true
  := by
  rw [ItemSet.sameCores_iff] at h ⊢
  have hkernel : ItemSet.KernelCore (s.advance g i) = ItemSet.KernelCore (t.advance g i) := by
    funext c
    apply propext
    rw [ItemSet.kernelCore_advance, ItemSet.kernelCore_advance]
    simp only [h]
  intro c
  rw [ItemSet.goto, ItemSet.goto, ItemSet.hasCore_closure hg, ItemSet.hasCore_closure hg,
    hkernel]

theorem mem_nextSymbols_congr {s t : ItemSet} (h : s.sameCores t = true) {i : SymbolId} :
  i ∈ s.nextSymbols g ↔ i ∈ t.nextSymbols g
  := by
  rw [ItemSet.sameCores_iff] at h
  rw [ItemSet.mem_nextSymbols, ItemSet.mem_nextSymbols]
  simp only [h]

namespace Merges

variable {a m : Automaton} {cls : StateId → StateId}

/-- A class has the cores of its states, and all their lookaheads. -/
theorem includes (h : Merges a m cls) {q : StateId} {node node' : Node}
    (hq : a.node? q = some node) (hk : m.node? (cls q) = some node') :
  node'.items.sameCores node.items = true
    ∧ ∀ c x, node.items.Looks c x → node'.items.Looks c x
  := by
  obtain ⟨node'', hnode'', hincludes⟩ := h.node hq
  rw [hk] at hnode''
  cases hnode''
  apply hincludes

/-- States of the same class have the same cores. -/
theorem sameCores (h : Merges a m cls) {q₁ q₂ : StateId} {node₁ node₂ : Node}
    (hq₁ : a.node? q₁ = some node₁) (hq₂ : a.node? q₂ = some node₂)
    (hcls : cls q₁ = cls q₂) :
  node₁.items.sameCores node₂.items = true
  := by
  obtain ⟨node', hnode', hsame₁, -⟩ := h.node hq₁
  rw [hcls] at hnode'
  obtain ⟨hsame₂, -⟩ := h.includes hq₂ hnode'
  apply ItemSet.sameCores_trans (ItemSet.sameCores_symm hsame₁) hsame₂

/-- From states of the same class, edges over the same symbol lead to states of the same
class. -/
theorem cls_target (hg : g.Proper) (ha : Drawn g a) (h : Merges a m cls)
    {q₁ q₂ j₁ j₂ : StateId} {node₁ node₂ : Node} {i : SymbolId}
    (hq₁ : a.node? q₁ = some node₁) (hq₂ : a.node? q₂ = some node₂)
    (hcls : cls q₁ = cls q₂) (hj₁ : node₁.edges.get? i = some j₁)
    (hj₂ : node₂.edges.get? i = some j₂) :
  cls j₁ = cls j₂
  := by
  obtain ⟨t₁, ht₁, hitems₁⟩ := ha.target hq₁ hj₁
  obtain ⟨t₂, ht₂, hitems₂⟩ := ha.target hq₂ hj₂
  apply h.distinct ht₁ ht₂
  rw [hitems₁, hitems₂]
  apply sameCores_goto hg (h.sameCores hq₁ hq₂ hcls)

/-- The class of a state has an edge wherever the state has one. -/
theorem target?_of_target? (hg : g.Proper) (ha : Drawn g a) (h : Merges a m cls)
    {q j : StateId} {i : SymbolId} (ht : a.target? q i = some j) :
  m.target? (cls q) i = some (cls j)
  := by
  obtain ⟨node, hq, hj⟩ := Option.bind_eq_some_iff.mp ht
  obtain ⟨node', hnode', -⟩ := h.node hq
  obtain ⟨j', hj'⟩ := h.edge_complete hq hj hnode'
  obtain ⟨q₂, node₂, j₂, hq₂, hcls, hj₂, rfl⟩ := h.edge_sound hnode' hj'
  rw [h.cls_target hg ha hq hq₂ hcls.symm hj hj₂, target?_of_node hnode', hj']

/-- A state has an edge wherever its class has one. -/
theorem exists_target?_of_target? (hg : g.Proper) (ha : Drawn g a) (h : Merges a m cls)
    {q j' : StateId} {node : Node} {i : SymbolId} (hq : a.node? q = some node)
    (ht : m.target? (cls q) i = some j') :
  ∃ j, a.target? q i = some j ∧ cls j = j'
  := by
  obtain ⟨node', hnode', hj'⟩ := Option.bind_eq_some_iff.mp ht
  obtain ⟨q₂, node₂, j₂, hq₂, hcls, hj₂, rfl⟩ := h.edge_sound hnode' hj'
  have hsame := h.sameCores hq hq₂ hcls.symm
  have hnext := (mem_nextSymbols_congr hsame).mpr ((ha.edge hq₂).mp ⟨j₂, hj₂⟩)
  obtain ⟨j, hj⟩ := (ha.edge hq).mpr hnext
  refine ⟨j, ?_, h.cls_target hg ha hq hq₂ hcls.symm hj hj₂⟩
  rw [target?_of_node hq, hj]

/-- The classes of the states that spell a prefix spell it too. -/
theorem spells_map (hg : g.Proper) (ha : Drawn g a) (h : Merges a m cls)
    {stack : List StateId} {γ : List SymbolId} (hs : Spells a stack γ) :
  Spells m (stack.map cls) γ
  := by
  induction hs with
  | start =>
      rw [List.map_singleton, h.start]
      apply Spells.start
  | edge _ ht ih => apply Spells.edge ih (h.target?_of_target? hg ha ht)

/-- What the classes spell is spelled by states of these classes. -/
theorem exists_spells (hg : g.Proper) (ha : Drawn g a) (h : Merges a m cls)
    {stack : List StateId} {γ : List SymbolId} (hs : Spells m stack γ) :
  ∃ stack', Spells a stack' γ ∧ stack'.map cls = stack
  := by
  induction hs with
  | start => exact ⟨_, .start, by rw [List.map_singleton, h.start]⟩
  | edge _ ht ih =>
      obtain ⟨stack', hs', hmap⟩ := ih
      obtain ⟨q', below, node, rfl, hq', -⟩ := ha.describes hg hs'
      rw [List.map_cons] at hmap
      obtain ⟨rfl, rfl⟩ := List.cons.inj hmap
      obtain ⟨j, hj, rfl⟩ := h.exists_target?_of_target? hg ha hq' ht
      exact ⟨j :: q' :: below, .edge hs' hj, rfl⟩

/-- The merged automaton is faithful. -/
theorem faithful (hg : g.Proper) (ha : Drawn g a) (h : Merges a m cls) :
  Faithful g m
  := by
  have hfaithful := ha.faithful hg
  constructor
  · intro q stack γ hs
    obtain ⟨stack', hs', hmap⟩ := h.exists_spells hg ha hs
    obtain ⟨q', below, node, rfl, hq', hdescribes⟩ := ha.describes hg hs'
    obtain ⟨rfl, -⟩ := List.cons.inj hmap
    obtain ⟨node', hnode', hsame, -⟩ := h.node hq'
    use node', hnode'
    intro c
    rw [ItemSet.sameCores_iff.mp hsame, hdescribes.hasCore]
  · intro q stack γ node' c x hs hq hx
    obtain ⟨stack', hs', hmap⟩ := h.exists_spells hg ha hs
    obtain ⟨q', below, node, rfl, hq', hdescribes⟩ := ha.describes hg hs'
    obtain ⟨rfl, -⟩ := List.cons.inj hmap
    apply (h.includes hq' hq).2 c x ((hdescribes.looks c x).mpr hx)
  · intro k node' i hk
    obtain ⟨q, node, hq, rfl⟩ := h.member hk
    rw [mem_nextSymbols_congr (h.includes hq hk).1, ← ha.edge hq]
    constructor
    · rintro ⟨j', hj'⟩
      rw [← target?_of_node hk] at hj'
      obtain ⟨j, hj, -⟩ := h.exists_target?_of_target? hg ha hq hj'
      rw [target?_of_node hq] at hj
      exact ⟨j, hj⟩
    · rintro ⟨j, hj⟩
      apply h.edge_complete hq hj hk
  · intro k node' c x hk hx
    obtain ⟨q, node, hq, rfl, hx⟩ := h.looks hk hx
    obtain ⟨stack, γ, hs, hfollows⟩ := hfaithful.origin hq hx
    exact ⟨stack.map cls, γ, h.spells_map hg ha hs, hfollows⟩

end Merges

/-- An automaton that is drawn to the end has a start state. -/
theorem Drawn.nodes_ne {a : Automaton} (ha : Drawn g a) :
  a.nodes ≠ #[]
  := by
  intro hnodes
  obtain ⟨node, hnode, -⟩ := ha.start
  rw [node?, hnodes] at hnode
  cases hnode

/-- The canonical automaton of a grammar can be merged, to a faithful automaton. -/
theorem exists_merged_canonical (hg : g.Proper) :
  ∃ m, (canonical g).merged = .ok m ∧ Faithful g m
  := by
  have hdrawn := canonical_drawn hg
  obtain ⟨m, cls, hm, hmerges⟩ := exists_merged hdrawn.nodes_ne
  exact ⟨m, hm, hmerges.faithful hg hdrawn⟩

end Automaton

end ShiftReduce
