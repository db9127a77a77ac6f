import Mathlib.Data.Finset.Powerset
import Mathlib.Data.List.Induction
import ShiftReduce.Proofs.Automaton.Faithful

/-!
# The canonical automaton is exact

While the edges are drawn, the states found so far are all different, each of them describes
some prefix, and each but the start state has been found from one with a smaller number.
There are not more such states than sets of facts, so in the end all edges have been drawn.
-/

namespace ShiftReduce

namespace Exploration

variable {g : Grammar}

/-! ### States found -/

/-- The states found are found later as well, with the same numbers. -/
def Grows (found found' : Array ItemSet) : Prop :=
  ∀ (j : StateId) (s : ItemSet), found[j]? = some s → found'[j]? = some s

/-- The states found are different, and each describes a prefix. -/
structure Proper (g : Grammar) (found : Array ItemSet) : Prop where
  distinct : ∀ {i j : StateId} {s : ItemSet}, found[i]? = some s → found[j]? = some s → i = j
  describes : ∀ {j : StateId} {s : ItemSet}, found[j]? = some s → ∃ γ, s.Describes g γ

theorem Grows.refl (found : Array ItemSet) :
  Grows found found
  := fun _ _ h => h

theorem Grows.trans {found found' found'' : Array ItemSet} (h : Grows found found')
    (h' : Grows found' found'') :
  Grows found found''
  := fun j s hj => h' j s (h j s hj)

theorem Grows.size_le {found found' : Array ItemSet} (h : Grows found found') :
  found.size ≤ found'.size
  := by
  apply Nat.le_of_not_lt
  intro hlt
  have hget := h found'.size _ (Array.getElem?_eq_getElem hlt)
  obtain ⟨hlt, -⟩ := Array.getElem?_eq_some_iff.mp hget
  apply Nat.lt_irrefl _ hlt

theorem grows_locate (found : Array ItemSet) (s : ItemSet) :
  Grows found (locate found s).1
  := by
  rw [locate]
  cases found.findIdx? (· = s) with
  | some j => apply Grows.refl
  | none =>
      intro j t hj
      obtain ⟨hlt, -⟩ := Array.getElem?_eq_some_iff.mp hj
      rw [Array.getElem?_push_lt hlt, ← hj, Array.getElem?_eq_getElem hlt]

/-- A set of items gets a number; if it is a new one it is the last. -/
theorem locate_spec {found : Array ItemSet} (hfound : Proper g found) {s : ItemSet}
    {γ : List SymbolId} (hs : s.Describes g γ) :
  Grows found (locate found s).1 ∧ Proper g (locate found s).1
    ∧ (locate found s).1[(locate found s).2]? = some s
    ∧ ∀ j, found.size ≤ j → j < (locate found s).1.size → j = (locate found s).2
  := by
  use grows_locate found s
  rw [locate]
  cases hfind : found.findIdx? (· = s) with
  | some j =>
      obtain ⟨hlt, hj, -⟩ := Array.findIdx?_eq_some_iff_getElem.mp hfind
      refine ⟨hfound, ?_, ?_⟩
      · rw [Array.getElem?_eq_getElem hlt]
        simpa using hj
      · intro j hle hlt
        cases Nat.not_lt_of_le hle hlt
  | none =>
      have hne : ∀ {j : StateId} {t : ItemSet}, found[j]? = some t → t ≠ s := by
        intro j t hj
        have hall := Array.findIdx?_eq_none_iff.mp hfind
        simpa using hall t (Array.mem_of_getElem? hj)
      refine ⟨⟨?_, ?_⟩, Array.getElem?_push_size, ?_⟩
      · intro i j t hi hj
        rw [Array.getElem?_push] at hi hj
        split at hi
        · cases hi
          split at hj
          · simp_all
          · cases hne hj rfl
        · split at hj
          · cases hj
            cases hne hi rfl
          · apply hfound.distinct hi hj
      · intro j t hj
        rw [Array.getElem?_push] at hj
        split at hj
        · cases hj
          exact ⟨γ, hs⟩
        · apply hfound.describes hj
      · intro j hle hlt
        rw [Array.size_push] at hlt
        apply Nat.le_antisymm (Nat.le_of_lt_succ hlt) hle

/-! ### Edges of one state -/

/-- The edges drawn from a set of items over some symbols. -/
structure Leaves (g : Grammar) (s : ItemSet) (found : Array ItemSet) (symbols : List SymbolId)
    (left : Array ItemSet × OrderedMap SymbolId StateId) : Prop where
  grows : Grows found left.1
  proper : Proper g left.1
  sound : ∀ {i target}, left.2.get? i = some target →
    i ∈ symbols ∧ left.1[target]? = some (s.goto g i)
  complete : ∀ {i}, i ∈ symbols → ∃ target, left.2.get? i = some target
  fresh : ∀ {j}, found.size ≤ j → j < left.1.size → ∃ i, left.2.get? i = some j

/-- The edge over the last symbol is drawn after the others. -/
theorem leave_append_singleton (s : ItemSet) (found : Array ItemSet) (symbols : List SymbolId)
    (i : SymbolId) :
  leave g s found (symbols ++ [i])
    = ((locate (leave g s found symbols).1 (s.goto g i)).1,
      (leave g s found symbols).2.put i (locate (leave g s found symbols).1 (s.goto g i)).2)
  := by simp [leave, List.foldl_append]

/-- Each symbol gets an edge, and the states found are those found before and the targets of
these edges. -/
theorem leaves_leave (hg : g.Proper) {s : ItemSet} {γ : List SymbolId}
    (hs : s.Describes g γ) {found : Array ItemSet} (hfound : Proper g found)
    (symbols : List SymbolId) :
  Leaves g s found symbols (leave g s found symbols)
  := by
  induction symbols using List.reverseRecOn with
  | nil =>
      refine ⟨.refl found, hfound, ?_, ?_, ?_⟩
      · intro i target h
        cases h
      · intro i hi
        cases hi
      · intro j hle hlt
        cases Nat.not_lt_of_le hle hlt
  | append_singleton symbols i ih =>
      rw [leave_append_singleton]
      obtain ⟨hgrows, hproper, hget, hfresh⟩ := locate_spec ih.proper (hs.goto hg i)
      refine ⟨ih.grows.trans hgrows, hproper, ?_, ?_, ?_⟩
      · intro i' target h
        rw [OrderedMap.get?_put] at h
        split at h
        · rename_i heq
          cases h
          subst heq
          exact ⟨List.mem_append_right _ (List.mem_singleton_self _), hget⟩
        · obtain ⟨hmem, htarget⟩ := ih.sound h
          exact ⟨List.mem_append_left _ hmem, hgrows _ _ htarget⟩
      · intro i' hi'
        rw [OrderedMap.get?_put]
        split
        · exact ⟨_, rfl⟩
        · rename_i hne
          rcases List.mem_append.mp hi' with hi' | hi'
          · apply ih.complete hi'
          · cases hne (List.mem_singleton.mp hi')
      · intro j hle hlt
        by_cases hj : j < (leave g s found symbols).1.size
        · obtain ⟨i', hi'⟩ := ih.fresh hle hj
          by_cases heq : i' = i
          · subst heq
            obtain ⟨_, htarget⟩ := ih.sound hi'
            have hsame := hproper.distinct (hgrows _ _ htarget) hget
            use i'
            rw [OrderedMap.get?_put, if_pos rfl, hsame]
          · use i'
            rw [OrderedMap.get?_put, if_neg heq, hi']
        · use i
          rw [OrderedMap.get?_put, if_pos rfl, hfresh j (Nat.le_of_not_lt hj) hlt]

/-! ### Stages -/

/-- What holds at each stage of the construction. -/
structure Sound (g : Grammar) (e : Exploration) : Prop where
  proper : Proper g e.found
  start : e.found[0]? = some (ItemSet.closure g Automaton.initialKernel)
  edges_le : e.edges.size ≤ e.found.size
  target : ∀ {q j : StateId} {edges : OrderedMap SymbolId StateId} {s : ItemSet} {i : SymbolId},
    e.edges[q]? = some edges → e.found[q]? = some s → edges.get? i = some j →
    e.found[j]? = some (s.goto g i)
  edge : ∀ {q : StateId} {edges : OrderedMap SymbolId StateId} {s : ItemSet} {i : SymbolId},
    e.edges[q]? = some edges → e.found[q]? = some s →
    ((∃ j, edges.get? i = some j) ↔ i ∈ s.nextSymbols g)
  reached : ∀ {j : StateId}, 0 < j → j < e.found.size →
    ∃ (q : StateId) (edges : OrderedMap SymbolId StateId) (i : SymbolId),
      q < j ∧ e.edges[q]? = some edges ∧ edges.get? i = some j

/-- In the beginning there is the start state. -/
theorem sound_initial (hg : g.Proper) :
  Sound g ⟨#[ItemSet.closure g Automaton.initialKernel], #[]⟩
  where
  proper := by
    constructor
    · intro i j s hi hj
      obtain ⟨hi, -⟩ := Array.getElem?_eq_some_iff.mp hi
      obtain ⟨hj, -⟩ := Array.getElem?_eq_some_iff.mp hj
      simp only [List.size_toArray, List.length_singleton, Nat.lt_one_iff] at hi hj
      rw [hi, hj]
    · intro j s hj
      obtain ⟨hlt, hj⟩ := Array.getElem?_eq_some_iff.mp hj
      simp only [List.size_toArray, List.length_singleton, Nat.lt_one_iff] at hlt
      subst hlt
      subst hj
      exact ⟨[], ItemSet.describes_start hg⟩
  start := rfl
  edges_le := Nat.zero_le _
  target h := by simp at h
  edge h := by simp at h
  reached hpos hlt := by
    simp only [List.size_toArray, List.length_singleton, Nat.lt_one_iff] at hlt
    cases Nat.ne_of_gt hpos hlt

/-- When there is no state without edges left, all states have theirs. -/
theorem edges_eq_of_step {e : Exploration} (he : e.Sound g) (h : e.step g = none) :
  e.edges.size = e.found.size
  := by
  rw [step] at h
  split at h
  · rename_i hnone
    apply Nat.le_antisymm he.edges_le (Array.getElem?_eq_none_iff.mp hnone)
  · cases h

/-- After a step the edges of a state are those drawn last, or they were there before. -/
theorem edges_cases {e : Exploration} {s t : ItemSet} {symbols : List SymbolId}
    {left : Array ItemSet × OrderedMap SymbolId StateId} (h : Leaves g s e.found symbols left)
    (hs : e.found[e.edges.size]? = some s) {q : StateId} {edges : OrderedMap SymbolId StateId}
    (hedges : (e.edges.push left.2)[q]? = some edges) (ht : left.1[q]? = some t) :
  (t = s ∧ edges = left.2) ∨ (e.edges[q]? = some edges ∧ e.found[q]? = some t)
  := by
  obtain ⟨hlt, -⟩ := Array.getElem?_eq_some_iff.mp hs
  rw [Array.getElem?_push] at hedges
  split at hedges
  · left
    rename_i hq
    rw [hq, h.grows _ _ hs] at ht
    exact ⟨(Option.some.inj ht).symm, (Option.some.inj hedges).symm⟩
  · right
    obtain ⟨hq, -⟩ := Array.getElem?_eq_some_iff.mp hedges
    have hget := Array.getElem?_eq_getElem (Nat.lt_trans hq hlt)
    rw [h.grows _ _ hget, ← hget] at ht
    exact ⟨hedges, ht⟩

/-- Drawing the edges of one more state keeps a stage sound. -/
theorem Sound.step (hg : g.Proper) {e e' : Exploration} (he : e.Sound g)
    (h : e.step g = some e') :
  e'.Sound g ∧ e'.edges.size = e.edges.size + 1
  := by
  rw [Exploration.step] at h
  split at h
  · cases h
  · rename_i s hs
    cases h
    obtain ⟨γ, hγ⟩ := he.proper.describes hs
    have hleave := leaves_leave hg hγ he.proper (s.nextSymbols g)
    obtain ⟨hlt, -⟩ := Array.getElem?_eq_some_iff.mp hs
    have hsize := hleave.grows.size_le
    constructor
    · constructor
      · apply hleave.proper
      · apply hleave.grows _ _ he.start
      · simp only [Array.size_push]
        apply Nat.le_trans hlt hsize
      · intro q edges t i j hedges ht hj
        obtain ⟨rfl, rfl⟩ | ⟨hedges, ht⟩ := edges_cases hleave hs hedges ht
        · apply (hleave.sound hj).2
        · apply hleave.grows
          apply he.target hedges ht hj
      · intro q edges t i hedges ht
        obtain ⟨rfl, rfl⟩ | ⟨hedges, ht⟩ := edges_cases hleave hs hedges ht
        · constructor
          · rintro ⟨j, hj⟩
            apply (hleave.sound hj).1
          · apply hleave.complete
        · apply he.edge hedges ht
      · intro j hpos hj
        by_cases hlt' : j < e.found.size
        · obtain ⟨q, edges, i, hq, hedges, hi⟩ := he.reached hpos hlt'
          obtain ⟨hqlt, -⟩ := Array.getElem?_eq_some_iff.mp hedges
          refine ⟨q, edges, i, hq, ?_, hi⟩
          rw [Array.getElem?_push_lt hqlt, ← hedges, Array.getElem?_eq_getElem hqlt]
        · obtain ⟨i, hi⟩ := hleave.fresh (Nat.le_of_not_lt hlt') hj
          refine ⟨e.edges.size, _, i, ?_, Array.getElem?_push_size, hi⟩
          apply Nat.lt_of_lt_of_le hlt (Nat.le_of_not_lt hlt')
    · apply Array.size_push

/-- There are no more states than sets of facts. -/
theorem Proper.size_le (hg : g.Proper) {found : Array ItemSet} (hfound : Proper g found) :
  found.size ≤ Automaton.maxStates g
  := by
  have hnodup : (found.toList.map ItemSet.facts).Nodup := by
    apply List.Nodup.map ItemSet.facts_injective
    rw [List.nodup_iff_injective_get]
    intro i j hij
    apply Fin.ext
    have hi := List.getElem?_eq_getElem i.isLt
    have hj := List.getElem?_eq_getElem j.isLt
    rw [Array.getElem?_toList] at hi hj
    rw [List.get_eq_getElem, List.get_eq_getElem] at hij
    rw [← hij] at hj
    apply hfound.distinct hi hj
  have hsub : (found.toList.map ItemSet.facts).toFinset
      ⊆ (ItemSet.allFacts (Automaton.cores g) (List.range g.symbolCount)).powerset := by
    intro facts hfacts
    rw [List.mem_toFinset, List.mem_map] at hfacts
    obtain ⟨s, hs, rfl⟩ := hfacts
    obtain ⟨j, hj⟩ := List.mem_iff_getElem?.mp hs
    rw [Array.getElem?_toList] at hj
    obtain ⟨γ, hγ⟩ := hfound.describes hj
    apply Finset.mem_powerset.mpr (hγ.within hg).facts_subset
  have hcard := Finset.card_le_card hsub
  rw [List.toFinset_card_of_nodup hnodup, List.length_map, Finset.card_powerset,
    Array.length_toList] at hcard
  apply Nat.le_trans hcard
  apply Nat.pow_le_pow_right Nat.two_pos
  have hle := ItemSet.card_allFacts_le (Automaton.cores g) (List.range g.symbolCount)
  rwa [List.length_range] at hle

/-- With as many rounds as there can be states all edges are drawn. -/
theorem Sound.run (hg : g.Proper) {n : Nat} {e : Exploration} (he : e.Sound g)
    (hn : Automaton.maxStates g ≤ n + e.edges.size) :
  (e.run g n).Sound g ∧ (e.run g n).edges.size = (e.run g n).found.size
  := by
  induction n generalizing e with
  | zero =>
      have hle := he.proper.size_le hg
      have hedges := he.edges_le
      use he
      simp only [Exploration.run]
      omega
  | succ n ih =>
      rw [Exploration.run]
      cases hstep : e.step g with
      | none => apply And.intro he (edges_eq_of_step he hstep)
      | some e' =>
          obtain ⟨he', hsize⟩ := he.step hg hstep
          apply ih he'
          omega

/-- The last stage of the construction. -/
def last (g : Grammar) : Exploration :=
  run g (Automaton.maxStates g) ⟨#[ItemSet.closure g Automaton.initialKernel], #[]⟩

/-- At the end all edges have been drawn. -/
theorem last_sound (hg : g.Proper) :
  (last g).Sound g ∧ (last g).edges.size = (last g).found.size
  := (sound_initial hg).run hg (Nat.le_add_right _ _)

end Exploration

namespace Automaton

variable {g : Grammar}

/-- What the construction ensures: no two states have the same items, the edges of a state lead
over the symbols after its dots to the sets reached over them, and each state but the start
state is reached from one with a smaller number. -/
structure Drawn (g : Grammar) (a : Automaton) : Prop where
  start : ∃ node, a.node? startState = some node
    ∧ node.items = ItemSet.closure g initialKernel
  distinct : ∀ {q q' node node'}, a.node? q = some node → a.node? q' = some node' →
    node.items = node'.items → q = q'
  target : ∀ {q j node i}, a.node? q = some node → node.edges.get? i = some j →
    ∃ node', a.node? j = some node' ∧ node'.items = node.items.goto g i
  edge : ∀ {q node i}, a.node? q = some node →
    ((∃ j, node.edges.get? i = some j) ↔ i ∈ node.items.nextSymbols g)
  reached : ∀ {j node}, a.node? j = some node → 0 < j →
    ∃ q node' i, q < j ∧ a.node? q = some node' ∧ node'.edges.get? i = some j

/-- The states and the edges of the canonical automaton are those of the last stage. -/
theorem node?_canonical {q : StateId} {node : Node} :
  (canonical g).node? q = some node
    ↔ (Exploration.last g).found[q]? = some node.items
      ∧ (Exploration.last g).edges[q]? = some node.edges
  := by
  simp only [node?, canonical, Exploration.last, Array.getElem?_map, Option.map_eq_some_iff,
    Array.getElem?_zip_eq_some, Prod.exists]
  constructor
  · rintro ⟨items, edges, ⟨hitems, hedges⟩, rfl⟩
    apply And.intro hitems hedges
  · rintro ⟨hitems, hedges⟩
    exact ⟨node.items, node.edges, ⟨hitems, hedges⟩, rfl⟩

/-- The canonical automaton is drawn to the end. -/
theorem canonical_drawn (hg : g.Proper) :
  Drawn g (canonical g)
  := by
  obtain ⟨he, hsize⟩ := Exploration.last_sound hg
  have hexists : ∀ {q : StateId} {s : ItemSet}, (Exploration.last g).found[q]? = some s →
      ∃ node, (canonical g).node? q = some node ∧ node.items = s := by
    intro q s hs
    obtain ⟨hlt, -⟩ := Array.getElem?_eq_some_iff.mp hs
    rw [← hsize] at hlt
    exact ⟨⟨s, _⟩, node?_canonical.mpr ⟨hs, Array.getElem?_eq_getElem hlt⟩, rfl⟩
  constructor
  · apply hexists he.start
  · intro q q' node node' hq hq' hitems
    have hfound := (node?_canonical.mp hq').1
    rw [← hitems] at hfound
    apply he.proper.distinct (node?_canonical.mp hq).1 hfound
  · intro q j node i hq hj
    obtain ⟨hitems, hedges⟩ := node?_canonical.mp hq
    apply hexists (he.target hedges hitems hj)
  · intro q node i hq
    obtain ⟨hitems, hedges⟩ := node?_canonical.mp hq
    apply he.edge hedges hitems
  · intro j node hj hpos
    obtain ⟨hlt, -⟩ := Array.getElem?_eq_some_iff.mp (node?_canonical.mp hj).1
    obtain ⟨q, edges, i, hqj, hedges, hi⟩ := he.reached hpos hlt
    obtain ⟨node', hnode', -⟩ := hexists (Array.getElem?_eq_getElem (Nat.lt_trans hqj hlt))
    use q, node', i, hqj, hnode'
    rw [(node?_canonical.mp hnode').2] at hedges
    cases hedges
    apply hi

namespace Drawn

variable {a : Automaton}

/-- The top of a stack describes the prefix that the stack spells. -/
theorem describes (hg : g.Proper) (ha : Drawn g a) {stack : List StateId}
    {γ : List SymbolId} (hs : Spells a stack γ) :
  ∃ q below node, stack = q :: below ∧ a.node? q = some node ∧ node.items.Describes g γ
  := by
  induction hs with
  | start =>
      obtain ⟨node, hnode, hitems⟩ := ha.start
      refine ⟨_, _, node, rfl, hnode, ?_⟩
      rw [hitems]
      apply ItemSet.describes_start hg
  | @edge q target stack γ i h ht ih =>
      obtain ⟨q', below, node, hstack, hnode, hdescribes⟩ := ih
      cases hstack
      rw [target?_of_node hnode] at ht
      obtain ⟨node', hnode', hitems⟩ := ha.target hnode ht
      refine ⟨_, _, node', rfl, hnode', ?_⟩
      rw [hitems]
      apply hdescribes.goto hg

/-- A state describes every prefix that leads to it. -/
theorem describes_of_node (hg : g.Proper) (ha : Drawn g a) {q : StateId} {stack : List StateId}
    {γ : List SymbolId} {node : Node} (hs : Spells a (q :: stack) γ) (hq : a.node? q = some node) :
  node.items.Describes g γ
  := by
  obtain ⟨_, _, node', hstack, hnode', hdescribes⟩ := ha.describes hg hs
  cases hstack
  rw [hq] at hnode'
  cases hnode'
  apply hdescribes

/-- Every state is the top of a stack that spells some prefix. -/
theorem exists_spells (ha : Drawn g a) {q : StateId} {node : Node}
    (hq : a.node? q = some node) :
  ∃ stack γ, Spells a (q :: stack) γ
  := by
  induction q using Nat.strong_induction_on generalizing node with
  | _ q ih =>
      by_cases hpos : 0 < q
      · obtain ⟨q', node', i, hlt, hnode', hi⟩ := ha.reached hq hpos
        obtain ⟨stack, γ, hs⟩ := ih q' hlt hnode'
        refine ⟨q' :: stack, i :: γ, .edge hs ?_⟩
        rw [target?_of_node hnode', hi]
      · obtain rfl := Nat.eq_zero_of_not_pos hpos
        exact ⟨[], [], .start⟩

theorem exact (hg : g.Proper) (ha : Drawn g a) :
  Exact g a
  := by
  intro q stack γ node c x hs hq hx
  apply ((ha.describes_of_node hg hs hq).looks c x).mp hx

theorem faithful (hg : g.Proper) (ha : Drawn g a) :
  Faithful g a
  where
  hasCore hs := by
    obtain ⟨_, _, node, hstack, hnode, hdescribes⟩ := ha.describes hg hs
    cases hstack
    exact ⟨node, hnode, hdescribes.hasCore⟩
  looks {q stack γ node c x} hs hq hx := by
    apply ((ha.describes_of_node hg hs hq).looks c x).mpr hx
  edge hq := ha.edge hq
  origin hq hx := by
    obtain ⟨stack, γ, hs⟩ := ha.exists_spells hq
    use stack, γ, hs
    apply ha.exact hg hs hq hx

end Drawn

end Automaton

end ShiftReduce
