import ShiftReduce.Proofs.Automaton.Indexed
import ShiftReduce.Proofs.Automaton.Merged

/-!
# The merged automaton is the quotient by cores

The classes are listed in the order in which their cores first occur, since placing a state
either appends its cores or keeps the cores of all classes.  An edge of a class has the target
of the edge of each of its states, so it does not matter which of them is put last.  Without
the lookaheads the classes are the states of the automaton of cores, and as no two of them
share their cores, merging them once more changes nothing.

A class that takes a state keeps its cores, and so keeps its place in an index of the classes
by fingerprints of their cores.
-/

namespace ShiftReduce

namespace Automaton

variable {g : Grammar} {a m : Automaton} {cls : StateId → StateId}

/-! ### Cores in the order of their occurrence -/

/-- A state that is placed adds its cores to those of the classes if they are new. -/
theorem Classes.cores_place {c c' : Classes} {s : ItemSet} {l : List (List Core)}
    (hc : c.merged.toList.map ItemSet.cores = l.eraseDups) (hplace : c.place s = .ok c') :
  c'.merged.toList.map ItemSet.cores = (l ++ [s.cores]).eraseDups
  := by
  have hmem : s.cores ∈ l ↔ ∃ t ∈ c.merged, t.cores = s.cores := by
    rw [← List.mem_eraseDups, ← hc, List.mem_map]
    simp only [Array.mem_toList_iff]
  rw [place] at hplace
  cases hfind : c.merged.findIdx? (·.sameCores s) with
  | some k =>
      obtain ⟨hlt, hsame, -⟩ := Array.findIdx?_eq_some_iff_getElem.mp hfind
      obtain ⟨u, hu, hcore, -⟩ := ItemSet.merge_spec hsame
      have hcores : u.cores = c.merged[k].cores :=
        ItemSet.sameCores_iff_cores_eq.mp (ItemSet.sameCores_iff.mpr hcore)
      simp only [hfind, Array.getElem?_eq_getElem hlt, Option.getD_some, hu] at hplace
      cases hplace
      have hold := hmem.mpr
        ⟨_, Array.getElem_mem hlt, ItemSet.sameCores_iff_cores_eq.mp hsame⟩
      rw [eraseDups_append_of_mem hold, ← hc, Array.toList_setIfInBounds, List.map_set, hcores]
      apply List.ext_getElem?
      intro j
      rw [List.getElem?_set]
      split
      · rename_i heq
        subst heq
        simp [hlt]
      · rfl
  | none =>
      simp only [hfind] at hplace
      cases hplace
      have hnew : s.cores ∉ l := by
        rw [hmem]
        rintro ⟨t, ht, heq⟩
        have hother := Array.findIdx?_eq_none_iff.mp hfind t ht
        rw [ItemSet.sameCores_iff_cores_eq.mpr heq] at hother
        cases hother
      rw [eraseDups_append_of_not_mem hnew, ← hc, Array.toList_push, List.map_append]
      rfl

/-- The last state is placed after the others. -/
theorem foldlM_place_append {nodes : List Node} {node : Node} {c c' : Classes}
    (h : nodes.foldlM (fun c node => c.place node.items) c = .ok c') :
  (nodes ++ [node]).foldlM (fun c node => c.place node.items) c = c'.place node.items
  := by
  rw [List.foldlM_append, h]
  change [node].foldlM (fun c node => c.place node.items) c' = _
  rw [List.foldlM_cons]
  simp only [List.foldlM_nil, bind_pure]

/-- The cores of the classes are those of the states, in the order in which they first
occur. -/
theorem cores_classes {c : Classes} (hc : a.classes = .ok c) :
  c.merged.toList.map ItemSet.cores
    = (a.nodes.toList.map fun node => node.items.cores).eraseDups
  := by
  rw [classes] at hc
  generalize a.nodes.toList = nodes at hc ⊢
  induction nodes using List.reverseRecOn generalizing c with
  | nil =>
      cases hc
      rfl
  | append_singleton nodes node ih =>
      cases hformer : nodes.foldlM (fun c node => c.place node.items) (⟨#[], #[]⟩ : Classes) with
      | error e =>
          rw [List.foldlM_append, hformer] at hc
          cases hc
      | ok former =>
          rw [foldlM_place_append hformer] at hc
          rw [List.map_append]
          apply Classes.cores_place (ih hformer) hc

/-- The merged automaton has a state for each class. -/
theorem merged_of_classes {c : Classes} (hc : a.classes = .ok c) :
  a.merged = .ok ⟨(c.merged.zip (a.classEdges c)).map fun (items, edges) => ⟨items, edges⟩⟩
  := by
  rw [merged, hc]
  rfl

/-- The cores of the merged states are those of the states, in the order in which they first
occur. -/
theorem cores_merged (hm : a.merged = .ok m) :
  (m.nodes.toList.map fun node => node.items.cores)
    = (a.nodes.toList.map fun node => node.items.cores).eraseDups
  := by
  obtain ⟨c, hc, -⟩ := exists_classes a
  rw [merged_of_classes hc] at hm
  cases hm
  have hsize : c.merged.toList.length ≤ (a.classEdges c).toList.length := by
    rw [Array.length_toList, Array.length_toList, size_classEdges]
  have hitems := congrArg (List.map ItemSet.cores) (List.map_fst_zip hsize)
  rw [List.map_map] at hitems
  rw [← cores_classes hc, ← hitems, Array.toList_map, Array.toList_zip, List.map_map]
  rfl

/-! ### The quotient -/

/-- The states of an automaton become those of another one, which are in order the different
cores of the former.  Each of these has the lookaheads of all states that become it, and the
edges that the edges of these become. -/
structure IsQuotient (a m : Automaton) (cls : StateId → StateId) : Prop where
  cores : (m.nodes.toList.map fun node => node.items.cores)
    = (a.nodes.toList.map fun node => node.items.cores).eraseDups
  node : ∀ {q node}, a.node? q = some node →
    ∃ node', m.node? (cls q) = some node' ∧ node'.items.cores = node.items.cores
  looks : ∀ {k node' c x}, m.node? k = some node' →
    (node'.items.Looks c x
      ↔ ∃ q node, a.node? q = some node ∧ cls q = k ∧ node.items.Looks c x)
  target : ∀ {q j i}, a.target? q i = some j → m.target? (cls q) i = some (cls j)
  origin : ∀ {k j' i}, m.target? k i = some j' →
    ∃ q j, a.target? q i = some j ∧ cls q = k ∧ cls j = j'

/-- Merging the states of an automaton that is drawn to the end makes its quotient. -/
theorem Merges.isQuotient (hg : g.Proper) (ha : Drawn g a) (hm : a.merged = .ok m)
    (h : Merges a m cls) :
  IsQuotient a m cls
  where
  cores := cores_merged hm
  node hq := by
    obtain ⟨node', hnode', hsame, -⟩ := h.node hq
    exact ⟨node', hnode', ItemSet.sameCores_iff_cores_eq.mp hsame⟩
  looks {k node' c x} hk := by
    use h.looks hk
    rintro ⟨q, node, hq, rfl, hx⟩
    apply (h.includes hq hk).2 c x hx
  target ht := h.target?_of_target? hg ha ht
  origin ht := by
    obtain ⟨node', hk, hj'⟩ := Option.bind_eq_some_iff.mp ht
    obtain ⟨q, node, j, hq, hcls, hj, hcls'⟩ := h.edge_sound hk hj'
    refine ⟨q, j, ?_, hcls, hcls'⟩
    rw [target?_of_node hq, hj]

/-! ### The automaton of cores -/

/-- The cores that follow from those reached over a symbol. -/
def coreGoto (g : Grammar) (cores : Core → Prop) (i : SymbolId) : Core → Prop :=
  Called g fun c => ∃ b rest, cores b ∧ b.after g = i :: rest ∧ c = b.advance

/-- Without lookaheads the states are the sets of cores that are reached from those of the
accepting rule over the symbols after their dots, each of them once, and the edges lead to the
sets that are reached. -/
structure IsCoreAutomaton (g : Grammar) (m : Automaton) : Prop where
  start : ∃ node, m.node? startState = some node
    ∧ node.items.HasCore = Called g fun c => c = ⟨.accept, 0⟩
  distinct : ∀ {p q node node'}, m.node? p = some node → m.node? q = some node' →
    node.items.HasCore = node'.items.HasCore → p = q
  reachable : ∀ {q node}, m.node? q = some node →
    Relation.ReflTransGen (fun p q => ∃ i, m.target? p i = some q) startState q
  edge : ∀ {q node i}, m.node? q = some node →
    ((∃ target, node.edges.get? i = some target)
      ↔ ∃ c rest, node.items.HasCore c ∧ c.after g = i :: rest)
  target : ∀ {q target node i}, m.node? q = some node → node.edges.get? i = some target →
    ∃ node', m.node? target = some node'
      ∧ node'.items.HasCore = coreGoto g node.items.HasCore i

/-- The cores of the start state follow from the accepting rule. -/
theorem hasCore_initial (hg : g.Proper) :
  (ItemSet.closure g initialKernel).HasCore = Called g fun c => c = ⟨.accept, 0⟩
  := by
  have hkernel : ItemSet.KernelCore initialKernel = fun c => c = ⟨.accept, 0⟩ := by
    funext c
    simp [ItemSet.KernelCore, initialKernel, eq_comm]
  funext c
  rw [ItemSet.hasCore_closure hg, hkernel]

/-- The cores reached over a symbol do not depend on the lookaheads. -/
theorem hasCore_goto (hg : g.Proper) (s : ItemSet) (i : SymbolId) :
  (s.goto g i).HasCore = coreGoto g s.HasCore i
  := by
  have hkernel : ItemSet.KernelCore (s.advance g i)
      = fun c => ∃ b rest, s.HasCore b ∧ b.after g = i :: rest ∧ c = b.advance := by
    funext c
    rw [ItemSet.kernelCore_advance]
  funext c
  rw [ItemSet.goto, ItemSet.hasCore_closure hg, hkernel, coreGoto]

/-- Without its lookaheads the merged automaton is the automaton of cores. -/
theorem Merges.isCoreAutomaton (hg : g.Proper) (ha : Drawn g a) (h : Merges a m cls) :
  IsCoreAutomaton g m
  where
  start := by
    obtain ⟨node, hnode, hitems⟩ := ha.start
    obtain ⟨node', hnode', hsame, -⟩ := h.node hnode
    rw [h.start] at hnode'
    use node', hnode'
    rw [ItemSet.hasCore_congr hsame, hitems, hasCore_initial hg]
  distinct hp hq hcores := by
    obtain ⟨p, node₁, hnode₁, rfl⟩ := h.member hp
    obtain ⟨q, node₂, hnode₂, rfl⟩ := h.member hq
    apply h.distinct hnode₁ hnode₂
    apply ItemSet.sameCores_iff.mpr
    intro c
    rw [← ItemSet.hasCore_congr (h.includes hnode₁ hp).1, hcores,
      ItemSet.hasCore_congr (h.includes hnode₂ hq).1]
  reachable hk := by
    obtain ⟨q, node, hq, rfl⟩ := h.member hk
    obtain ⟨below, γ, hs⟩ := ha.exists_spells hq
    apply (h.spells_map hg ha hs).reaches
  edge hk := by
    rw [(h.faithful hg ha).edge hk, ItemSet.mem_nextSymbols]
  target hk hj' := by
    obtain ⟨q, node, j, hq, rfl, hj, rfl⟩ := h.edge_sound hk hj'
    obtain ⟨t, ht, hitems⟩ := ha.target hq hj
    obtain ⟨t', ht', hsame, -⟩ := h.node ht
    use t', ht'
    rw [ItemSet.hasCore_congr hsame, hitems, hasCore_goto hg,
      ItemSet.hasCore_congr (h.includes hq hk).1]

/-! ### Looking classes up -/

namespace IndexedClasses

variable {fingerprint : List Core → UInt64} {c : IndexedClasses}

/-- Each class is listed under the fingerprint of its cores. -/
def Listed (fingerprint : List Core → UInt64) (c : IndexedClasses) : Prop :=
  OrderedMap.Lists (fun s => fingerprint s.cores) c.index c.merged

/-- The first candidate with the cores of a set is the first class with these cores. -/
theorem Listed.find?_candidates (h : c.Listed fingerprint) (s : ItemSet) :
  ((c.candidates (fingerprint s.cores)).find? fun k => (c.itemsOf k).sameCores s)
    = c.merged.findIdx? (·.sameCores s)
  := by
  apply OrderedMap.Lists.find?_eq h
  · intro k hk
    rw [itemsOf, Array.getElem?_eq_getElem hk, Option.getD_some]
  · intro t _ hsame
    rw [ItemSet.sameCores_iff_cores_eq.mp hsame]

/-- A state is put into the same class as if its cores were compared with those of all
classes. -/
theorem Listed.exists_place (h : c.Listed fingerprint) (s : ItemSet) :
  ∃ c', c.place fingerprint s = .ok c' ∧ c.toClasses.place s = .ok c'.toClasses
    ∧ c'.Listed fingerprint
  := by
  rw [place, Classes.place, h.find?_candidates]
  cases hfind : c.merged.findIdx? (·.sameCores s) with
  | some k =>
      obtain ⟨hlt, hsame, -⟩ := Array.findIdx?_eq_some_iff_getElem.mp hfind
      obtain ⟨u, hu, hcore, -⟩ := ItemSet.merge_spec hsame
      have hcores : u.cores = c.merged[k].cores :=
        ItemSet.sameCores_iff_cores_eq.mp (ItemSet.sameCores_iff.mpr hcore)
      refine ⟨⟨⟨c.merged.setIfInBounds k u, c.classOf.push k⟩, c.index⟩, ?_, ?_,
        OrderedMap.Lists.set h hlt (congrArg fingerprint hcores)⟩
      · simp only [itemsOf, Array.getElem?_eq_getElem hlt, Option.getD_some, hu]
        rfl
      · simp only [Array.getElem?_eq_getElem hlt, Option.getD_some, hu]
        rfl
  | none => exact ⟨_, rfl, rfl, OrderedMap.Lists.push h s⟩

/-- So are all states of a list. -/
theorem Listed.exists_foldlM (h : c.Listed fingerprint) (nodes : List Node) :
  ∃ c', nodes.foldlM (fun c node => c.place fingerprint node.items) c = .ok c'
    ∧ nodes.foldlM (fun c node => c.place node.items) c.toClasses = .ok c'.toClasses
  := by
  induction nodes generalizing c with
  | nil => exact ⟨c, rfl, rfl⟩
  | cons node nodes ih =>
      obtain ⟨c₁, hplace, hclasses, h₁⟩ := h.exists_place node.items
      obtain ⟨c', hplaces, hclasses'⟩ := ih h₁
      use c'
      rw [List.foldlM_cons, List.foldlM_cons, hplace, hclasses]
      exact ⟨hplaces, hclasses'⟩

end IndexedClasses

/-- The merged automaton does not depend on the fingerprints. -/
theorem mergedByIndex_eq_merged (fingerprint : List Core → UInt64) (a : Automaton) :
  mergedByIndex fingerprint a = a.merged
  := by
  have hlisted : IndexedClasses.empty.Listed fingerprint := OrderedMap.lists_empty
  obtain ⟨c, hc, hclasses⟩ := hlisted.exists_foldlM a.nodes.toList
  rw [mergedByIndex, hc, merged_of_classes hclasses]
  rfl

/-! ### Merging once more -/

/-- States with different cores make a class each. -/
theorem foldlM_place_of_pairwise {nodes : List Node}
    (h : nodes.Pairwise fun x y => x.items.sameCores y.items = false) :
  nodes.foldlM (fun c node => c.place node.items) (⟨#[], #[]⟩ : Classes)
    = .ok ⟨(nodes.map Node.items).toArray, Array.range nodes.length⟩
  := by
  induction nodes using List.reverseRecOn with
  | nil => rfl
  | append_singleton nodes node ih =>
      obtain ⟨hnodes, -, hnode⟩ := List.pairwise_append.mp h
      have hnone : (nodes.map Node.items).toArray.findIdx? (·.sameCores node.items) = none := by
        apply Array.findIdx?_eq_none_iff.mpr
        intro s hs
        obtain ⟨node', hmem, rfl⟩ := List.mem_map.mp (List.mem_toArray.mp hs)
        apply hnode node' hmem node (List.mem_singleton_self _)
      rw [foldlM_place_append (ih hnodes), Classes.place, hnone, List.map_append,
        List.length_append, List.length_singleton, Array.range_succ]
      simp

/-- The edges of a state, with their targets renamed. -/
def renamedEdges (rename : StateId → StateId) (node : Node) : OrderedMap SymbolId StateId :=
  node.edges.entries.foldl (fun slot (i, target) => slot.put i (rename target)) ∅

/-- If each state makes a class of its own, a class gets the edges of its state. -/
theorem getElem?_foldl_modify (rename : StateId → StateId) (n : Nat) (nodes : List Node)
    (k : StateId) :
  ((nodes.zip (List.range nodes.length)).foldl
      (fun slots (node, k) => slots.modify k fun slot =>
        node.edges.entries.foldl (fun slot (i, target) => slot.put i (rename target)) slot)
      (Array.replicate n ∅))[k]?
    = if k < n then some ((nodes[k]?.map (renamedEdges rename)).getD ∅) else none
  := by
  induction nodes using List.reverseRecOn with
  | nil => simp [Array.getElem?_replicate]
  | append_singleton nodes node ih =>
      rw [List.length_append, List.length_singleton, List.range_succ,
        List.zip_append (List.length_range).symm, List.foldl_append, List.zip_cons_cons,
        List.foldl_cons, List.zip_nil_left, List.foldl_nil, Array.getElem?_modify, ih]
      by_cases hk : nodes.length = k
      · subst hk
        simp [renamedEdges]
      · rw [if_neg hk]
        by_cases hlt : k < nodes.length
        · rw [List.getElem?_append_left hlt]
        · have hle : (nodes ++ [node]).length ≤ k := by
            rw [List.length_append, List.length_singleton]
            apply Nat.lt_of_le_of_ne (Nat.le_of_not_lt hlt) hk
          rw [List.getElem?_eq_none (Nat.le_of_not_lt hlt), List.getElem?_eq_none hle]

/-- Edges whose targets keep their numbers are the same. -/
theorem renamedEdges_eq_self {rename : StateId → StateId} {node : Node}
    (h : ∀ {i j}, node.edges.get? i = some j → rename j = j) :
  renamedEdges rename node = node.edges
  := by
  rw [renamedEdges]
  apply Eq.trans _ (OrderedMap.foldl_put_empty node.edges)
  apply List.foldl_ext
  rintro slot ⟨i, j⟩ hentry
  dsimp only
  rw [h (OrderedMap.get?_eq_some_iff.mpr hentry)]

/-- An automaton whose states have different cores is its own quotient. -/
theorem merged_eq_self
    (hdistinct : a.nodes.toList.Pairwise fun x y => x.items.sameCores y.items = false)
    (htarget : ∀ {q i j}, a.target? q i = some j → ∃ node, a.node? j = some node) :
  a.merged = .ok a
  := by
  have hclasses : a.classes = .ok ⟨a.nodes.map Node.items, Array.range a.nodes.size⟩ := by
    rw [classes, foldlM_place_of_pairwise hdistinct, ← Array.toList_map, Array.toArray_toList]
    simp
  have hedges : a.classEdges ⟨a.nodes.map Node.items, Array.range a.nodes.size⟩
      = a.nodes.map Node.edges := by
    apply Array.ext_getElem?
    intro k
    rw [classEdges, ← Array.foldl_toList, Array.toList_zip, Array.toList_range,
      ← Array.length_toList, getElem?_foldl_modify
        fun j => (Array.range a.nodes.toList.length)[j]?.getD startState]
    rw [Array.getElem?_toList, Array.getElem?_map, Array.size_map]
    cases hk : a.nodes[k]? with
    | none => rw [if_neg (Nat.not_lt_of_le (Array.getElem?_eq_none_iff.mp hk)), Option.map_none]
    | some node =>
        obtain ⟨hlt, -⟩ := Array.getElem?_eq_some_iff.mp hk
        rw [if_pos hlt, Option.map_some, Option.getD_some, Option.map_some]
        rw [renamedEdges_eq_self]
        intro i j hj
        have ht : a.target? k i = some j := by
          rw [target?_of_node hk, hj]
        obtain ⟨node', hnode'⟩ := htarget ht
        obtain ⟨hlt', -⟩ := Array.getElem?_eq_some_iff.mp hnode'
        rw [Array.getElem?_range, Array.length_toList, if_pos hlt', Option.getD_some]
  rw [merged_of_classes hclasses, hedges, Array.zip_map', Array.map_map]
  congr 2
  apply Array.map_id

/-- The merged states have different cores, and their edges lead to merged states. -/
theorem Merges.merged_eq_self (hg : g.Proper) (ha : Drawn g a) (h : Merges a m cls) :
  m.merged = .ok m
  := by
  have hcores := h.isCoreAutomaton hg ha
  apply Automaton.merged_eq_self
  · rw [List.pairwise_iff_getElem]
    intro p q hp hq hlt
    rw [← Bool.not_eq_true]
    intro hsame
    have hnode : ∀ {k : StateId} (hk : k < m.nodes.toList.length),
        m.node? k = some m.nodes.toList[k] := by
      intro k hk
      rw [node?, ← Array.getElem?_toList, List.getElem?_eq_getElem hk]
    have heq := hcores.distinct (hnode hp) (hnode hq) (ItemSet.hasCore_congr hsame)
    apply Nat.ne_of_lt hlt heq
  · intro q i j ht
    obtain ⟨node, hq, hj⟩ := Option.bind_eq_some_iff.mp ht
    obtain ⟨node', hnode', -⟩ := hcores.target hq hj
    exact ⟨node', hnode'⟩

/-- The canonical automaton of a language can be merged.  That makes its quotient by cores,
which without its lookaheads is the automaton of cores of the grammar, and merging this once
more changes nothing.  Whatever fingerprints the classes are looked up by, they are the same. -/
theorem merged_isQuotient {V E : Type} {language : Language V E}
    (hl : language.Definable) (hg : Grammar.ofLanguage language = .ok g) :
  ∃ m cls, (canonical g).merged = .ok m ∧ IsQuotient (canonical g) m cls
    ∧ IsCoreAutomaton g m ∧ m.merged = .ok m
    ∧ ∀ fingerprint : List Core → UInt64, (canonical g).mergedByIndex fingerprint = .ok m
  := by
  have hproper := (Grammar.encodes_of_ofLanguage hg).proper hl
  have hdrawn := canonical_drawn hproper
  obtain ⟨m, cls, hm, hmerges⟩ := exists_merged hdrawn.nodes_ne
  exact ⟨m, cls, hm, hmerges.isQuotient hproper hdrawn hm,
    hmerges.isCoreAutomaton hproper hdrawn, hmerges.merged_eq_self hproper hdrawn,
    fun fingerprint => (mergedByIndex_eq_merged fingerprint _).trans hm⟩

/-- The crossed language has two states in which `e` has just been read, and they become
one, also if all cores have the same fingerprint. -/
theorem merged_isQuotient_crossed :
  ∃ m cls, (canonical .crossed).merged = .ok m ∧ IsQuotient (canonical .crossed) m cls
    ∧ IsCoreAutomaton .crossed m ∧ (canonical .crossed).size = 14 ∧ m.size = 13
    ∧ (canonical .crossed).mergedByIndex (fun _ => 0) = .ok m
  := by
  obtain ⟨m, cls, hm, hquotient, hcores, -, hindexed⟩ :=
    merged_isQuotient Language.crossed_definable Grammar.ofLanguage_crossed
  have hsize : (canonical .crossed).merged.toOption.map size = some 13 := by decide +kernel
  rw [hm] at hsize
  exact ⟨m, cls, hm, hquotient, hcores, by decide +kernel, Option.some.inj hsize, hindexed _⟩

end Automaton

end ShiftReduce
