import ShiftReduce.Proofs.Automaton.Quotient
import ShiftReduce.Proofs.Item.Union

/-!
# Merged states are consistent

No closure is taken when states are merged.  A merged state is the union of states that are
closed, so it is closed as well.  What is reached from it over a symbol is the union of what is
reached from these states, and each of these targets becomes part of the merged target.  So the
merged edge leads to a state that has the same cores and no fewer lookaheads, and each lookahead
of this state is reached from some merged state with the same edge
(`Automaton.merged_consistent`).
-/

namespace ShiftReduce

variable {g : Grammar}

/-! ### Transitions -/

namespace ItemSet

/-- What is reached over a symbol from a union is reached from one of its sets. -/
theorem IsUnion.goto (hg : g.Proper) {ι : Type} {s : ItemSet} {family : ι → ItemSet}
    (h : s.IsUnion family) (i : SymbolId) :
  (s.goto g i).IsUnion fun j => (family j).goto g i
  := by
  apply IsUnion.closure hg
  constructor
  · intro c
    simp only [← kernelCore_eq, kernelCore_advance, h.hasCore]
    constructor
    · rintro ⟨b, rest, ⟨j, hb⟩, hafter, hc⟩
      exact ⟨j, b, rest, hb, hafter, hc⟩
    · rintro ⟨j, b, rest, hb, hafter, hc⟩
      exact ⟨b, rest, ⟨j, hb⟩, hafter, hc⟩
  · intro c a
    simp only [← kernelLook_eq, kernelLook_advance, h.looks]
    constructor
    · rintro ⟨b, rest, ⟨j, hb⟩, hafter, hc⟩
      exact ⟨j, b, rest, hb, hafter, hc⟩
    · rintro ⟨j, b, rest, hb, hafter, hc⟩
      exact ⟨b, rest, ⟨j, hb⟩, hafter, hc⟩

/-- Behind a symbol that may be read next there is a core in which it has been read. -/
theorem exists_hasCore_advance (hg : g.Proper) {s : ItemSet} {i : SymbolId}
    (hi : i ∈ s.nextSymbols g) :
  ∃ (b : Core) (rest : List SymbolId), b.after g = i :: rest ∧ (s.goto g i).HasCore b.advance
  := by
  obtain ⟨b, rest, hb, hafter⟩ := mem_nextSymbols.mp hi
  use b, rest, hafter
  apply (hasCore_closure hg).mpr
  apply Called.kernel
  apply kernelCore_advance.mpr ⟨b, rest, hb, hafter, rfl⟩

/-- A core in which a symbol has been read is in a closure only if it is in the kernel. -/
theorem kernelCore_of_hasCore_advance (hg : g.Proper) {kernel : List Item} {b : Core}
    (h : (closure g kernel).HasCore b.advance) :
  KernelCore kernel b.advance
  := by
  have hcalled := (hasCore_closure hg).mp h
  generalize hc : b.advance = c at hcalled
  cases hcalled with
  | kernel h => apply h
  | call _ _ _ => cases hc

/-- What is reached over a symbol does not have the cores of what is reached over another
one. -/
theorem symbol_eq_of_sameCores (hg : g.Proper) {s t : ItemSet} {i j : SymbolId}
    (hi : i ∈ s.nextSymbols g) (h : (s.goto g i).sameCores (t.goto g j) = true) :
  i = j
  := by
  obtain ⟨b, rest, hafter, hb⟩ := exists_hasCore_advance hg hi
  have hkernel := kernelCore_of_hasCore_advance hg ((sameCores_iff.mp h _).mp hb)
  obtain ⟨b', rest', -, hafter', hadvance⟩ := kernelCore_advance.mp hkernel
  obtain rfl : b = b' := by
    cases b
    cases b'
    simpa [Core.advance] using hadvance
  rw [hafter] at hafter'
  apply (List.cons.inj hafter').1

/-- Over no symbol one comes back to the cores of the start state. -/
theorem not_sameCores_initial (hg : g.Proper) {s : ItemSet} {i : SymbolId}
    (hi : i ∈ s.nextSymbols g) :
  ¬ (s.goto g i).sameCores (closure g Automaton.initialKernel) = true
  := by
  intro h
  obtain ⟨b, rest, -, hb⟩ := exists_hasCore_advance hg hi
  obtain ⟨item, hitem, hcore⟩ :=
    kernelCore_of_hasCore_advance hg ((sameCores_iff.mp h _).mp hb)
  obtain rfl := List.mem_singleton.mp hitem
  have hdot := congrArg Core.dot hcore
  cases hdot

end ItemSet

namespace Automaton

variable {a m : Automaton} {cls : StateId → StateId}

/-- A state of the canonical automaton is the start state, or it is reached over an edge. -/
theorem Drawn.items_cases (ha : Drawn g a) {q : StateId} {node : Node}
    (hq : a.node? q = some node) :
  node.items = ItemSet.closure g initialKernel
    ∨ ∃ p source i, a.node? p = some source ∧ source.edges.get? i = some q
      ∧ node.items = source.items.goto g i
  := by
  rcases Nat.eq_zero_or_pos q with rfl | hpos
  · left
    obtain ⟨start, hstart, hitems⟩ := ha.start
    cases hq.symm.trans hstart
    apply hitems
  · right
    obtain ⟨p, source, i, -, hp, hi⟩ := ha.reached hq hpos
    obtain ⟨node', hq', hitems⟩ := ha.target hp hi
    cases hq.symm.trans hq'
    exact ⟨p, source, i, hp, hi, hitems⟩

/-- The states of the canonical automaton are closed. -/
theorem Drawn.closed (hg : g.Proper) (ha : Drawn g a) {q : StateId} {node : Node}
    (hq : a.node? q = some node) :
  ItemSet.Closed g node.items
  := by
  rcases ha.items_cases hq with hitems | ⟨p, source, i, -, -, hitems⟩
  · rw [hitems]
    apply ItemSet.closed_closure hg
  · rw [hitems]
    apply ItemSet.closed_closure hg

/-- A state with the cores that are reached from somewhere over a symbol is the target of an
edge over this symbol. -/
theorem Drawn.exists_source (hg : g.Proper) (ha : Drawn g a) {q : StateId} {node : Node}
    (hq : a.node? q = some node) {s : ItemSet} {i : SymbolId} (hi : i ∈ s.nextSymbols g)
    (hsame : (s.goto g i).sameCores node.items = true) :
  ∃ p source, a.node? p = some source ∧ source.edges.get? i = some q
    ∧ node.items = source.items.goto g i
  := by
  rcases ha.items_cases hq with hitems | ⟨p, source, i', hp, hi', hitems⟩
  · rw [hitems] at hsame
    cases ItemSet.not_sameCores_initial hg hi hsame
  · rw [hitems] at hsame
    obtain rfl := ItemSet.symbol_eq_of_sameCores hg hi hsame
    exact ⟨p, source, hp, hi', hitems⟩

/-! ### Members of merged states -/

/-- The states that are merged to a state, with their numbers. -/
def Member (a : Automaton) (cls : StateId → StateId) (k : StateId) : Type :=
  { p : StateId × Node // a.node? p.1 = some p.2 ∧ cls p.1 = k }

/-- The items of a state that is merged to another one. -/
def Member.items {k : StateId} (p : Member a cls k) : ItemSet :=
  p.val.2.items

/-- A merged state is the union of the states that are merged to it. -/
theorem Merges.isUnion (h : Merges a m cls) {k : StateId} {node : Node}
    (hk : m.node? k = some node) :
  node.items.IsUnion fun p : Member a cls k => p.items
  := by
  constructor
  · intro c
    constructor
    · intro hc
      obtain ⟨q, member, hq, rfl⟩ := h.member hk
      use ⟨(q, member), hq, rfl⟩
      apply (ItemSet.sameCores_iff.mp (h.includes hq hk).1 c).mp hc
    · rintro ⟨⟨⟨q, member⟩, hq, rfl⟩, hc⟩
      apply (ItemSet.sameCores_iff.mp (h.includes hq hk).1 c).mpr hc
  · intro c x
    constructor
    · intro hx
      obtain ⟨q, member, hq, hcls, hx⟩ := h.looks hk hx
      exact ⟨⟨(q, member), hq, hcls⟩, hx⟩
    · rintro ⟨⟨⟨q, member⟩, hq, rfl⟩, hx⟩
      apply (h.includes hq hk).2 c x hx

/-! ### Consistency -/

/-- A state is closed, and it has an edge over a symbol exactly if the symbol follows a dot.
The target of the edge has the cores of the closure of what is reached over the symbol, and no
fewer lookaheads.  Each of these lookaheads is reached over the symbol from some state with an
edge to the target. -/
structure Consistent (g : Grammar) (m : Automaton) (node : Node) : Prop where
  closed : ItemSet.closure g node.items.items = node.items
  edge : ∀ i, (∃ t, node.edges.get? i = some t) ↔ ∃ item ∈ node.items.items, item.next? g = some i
  target : ∀ i t, node.edges.get? i = some t → ∃ target, m.node? t = some target
    ∧ (ItemSet.closure g (node.items.advance g i)).sameCores target.items = true
    ∧ (ItemSet.closure g (node.items.advance g i)).isSubset target.items = true
  origin : ∀ i t target c x, node.edges.get? i = some t → m.node? t = some target →
    target.items.Looks c x → ∃ p source, m.node? p = some source
      ∧ source.edges.get? i = some t
      ∧ (ItemSet.closure g (source.items.advance g i)).Looks c x

/-- A merged state is closed. -/
theorem Merges.closed (hg : g.Proper) (ha : Drawn g a) (h : Merges a m cls) {k : StateId}
    {node : Node} (hk : m.node? k = some node) :
  ItemSet.Closed g node.items
  := by
  apply (h.isUnion hk).closed hg
  rintro ⟨⟨q, member⟩, hq, -⟩
  apply ha.closed hg hq

/-- The target of a merged edge includes what is reached from its source. -/
theorem Merges.goto_includes (hg : g.Proper) (ha : Drawn g a) (h : Merges a m cls) {k t : StateId}
    {node : Node} {i : SymbolId} (hk : m.node? k = some node)
    (ht : node.edges.get? i = some t) :
  ∃ target, m.node? t = some target
    ∧ (node.items.goto g i).sameCores target.items = true
    ∧ ∀ c x, (node.items.goto g i).Looks c x → target.items.Looks c x
  := by
  obtain ⟨q, member, j, hq, rfl, hj, rfl⟩ := h.edge_sound hk ht
  obtain ⟨node', hnode', hitems⟩ := ha.target hq hj
  obtain ⟨target, htarget, hsame, -⟩ := h.node hnode'
  use target, htarget
  constructor
  · apply ItemSet.sameCores_trans _ (ItemSet.sameCores_symm hsame)
    rw [hitems]
    apply sameCores_goto hg (h.includes hq hk).1
  · intro c x hx
    -- the lookahead is reached from one of the merged states, whose edge leads to the same class
    obtain ⟨⟨⟨q', member'⟩, hq', hcls⟩, hx⟩ := (((h.isUnion hk).goto hg i).looks c x).mp hx
    obtain ⟨t', ht', hcls'⟩ := h.exists_target?_of_target? hg ha hq' (by
      rw [hcls, target?_of_node hk, ht])
    rw [target?_of_node hq'] at ht'
    obtain ⟨node'', hnode'', hitems''⟩ := ha.target hq' ht'
    rw [← hcls'] at htarget
    apply (h.includes hnode'' htarget).2
    rw [hitems'']
    apply hx

/-- A lookahead of the target of a merged edge is reached from some merged state with an edge
over the same symbol to the target. -/
theorem Merges.exists_source (hg : g.Proper) (ha : Drawn g a) (h : Merges a m cls) {k t : StateId}
    {node target : Node} {i : SymbolId} (hk : m.node? k = some node)
    (ht : node.edges.get? i = some t) (htarget : m.node? t = some target) {c : Core}
    {x : SymbolId} (hx : target.items.Looks c x) :
  ∃ p source, m.node? p = some source ∧ source.edges.get? i = some t
    ∧ (source.items.goto g i).Looks c x
  := by
  have hnext : i ∈ node.items.nextSymbols g := ((h.faithful hg ha).edge hk).mp ⟨t, ht⟩
  obtain ⟨target', htarget', hsame, -⟩ := h.goto_includes hg ha hk ht
  rw [htarget] at htarget'
  cases htarget'
  -- the lookahead comes from a state that is reached over the same symbol
  obtain ⟨j, member, hj, rfl, hx⟩ := h.looks htarget hx
  have hsame' := ItemSet.sameCores_trans hsame (h.includes hj htarget).1
  obtain ⟨q, source, hq, hedge, hitems⟩ := ha.exists_source hg hj hnext hsame'
  obtain ⟨merged, hmerged, -⟩ := h.node hq
  have hmergedEdge : m.target? (cls q) i = some (cls j) := by
    apply h.target?_of_target? hg ha
    rw [target?_of_node hq, hedge]
  rw [target?_of_node hmerged] at hmergedEdge
  use cls q, merged, hmerged, hmergedEdge
  apply (((h.isUnion hmerged).goto hg i).looks c x).mpr
  use ⟨(q, source), hq, rfl⟩
  rw [hitems] at hx
  apply hx

theorem Merges.consistent (hg : g.Proper) (ha : Drawn g a) (h : Merges a m cls) {k : StateId}
    {node : Node} (hk : m.node? k = some node) :
  Consistent g m node
  where
  closed := h.closed hg ha hk
  edge i := by
    rw [(h.faithful hg ha).edge hk]
    simp [ItemSet.nextSymbols]
  target i t ht := by
    obtain ⟨target, htarget, hsame, hlook⟩ := h.goto_includes hg ha hk ht
    exact ⟨target, htarget, hsame, ItemSet.isSubset_iff.mpr ⟨hsame, hlook⟩⟩
  origin i t target c x ht htarget hx := h.exists_source hg ha hk ht htarget hx

/-- The canonical automaton of a language can be merged, and all merged states are closed and
consistent with their edges. -/
theorem merged_consistent {V E : Type} {language : Language V E} (hl : language.Definable)
    (hg : Grammar.ofLanguage language = .ok g) :
  ∃ m, (canonical g).merged = .ok m
    ∧ ∀ k node, m.node? k = some node → Consistent g m node
  := by
  have hproper := (Grammar.encodes_of_ofLanguage hg).proper hl
  have hdrawn := canonical_drawn hproper
  obtain ⟨m, cls, hm, hmerges⟩ := exists_merged hdrawn.nodes_ne
  use m, hm
  intro k node hk
  apply hmerges.consistent hproper hdrawn hk

/-- When `e` has just been read in the crossed language, `E` may be followed by `d` although this
is not reached from the state behind `a`.  It is reached from another state. -/
theorem merged_consistent_crossed :
  ∃ m source target, (canonical .crossed).merged = .ok m ∧ m.node? 2 = some source
    ∧ m.node? 6 = some target ∧ source.edges.get? 9 = some 6
    ∧ (ItemSet.closure .crossed (source.items.advance .crossed 9)).isSubset target.items = true
    ∧ ¬ target.items.isSubset (ItemSet.closure .crossed (source.items.advance .crossed 9)) = true
    ∧ ∃ p other, p ≠ 2 ∧ m.node? p = some other ∧ other.edges.get? 9 = some 6
      ∧ (ItemSet.closure .crossed (other.items.advance .crossed 9)).Looks ⟨.user 4, 1⟩ 7
  := by
  have hstate : ∃ m ∈ (canonical .crossed).merged.toOption, ∃ source ∈ m.node? 2,
      ∃ target ∈ m.node? 6, source.edges.get? 9 = some 6
      ∧ ¬ target.items.isSubset
        (ItemSet.closure .crossed (source.items.advance .crossed 9)) = true
      ∧ (∃ item ∈ target.items.items, item.core = ⟨.user 4, 1⟩ ∧ 7 ∈ item.lookaheads)
      ∧ ¬ ∃ item ∈ (ItemSet.closure .crossed (source.items.advance .crossed 9)).items,
        item.core = ⟨.user 4, 1⟩ ∧ 7 ∈ item.lookaheads := by
    decide +kernel
  obtain ⟨m, hm, hconsistent⟩ :=
    merged_consistent Language.crossed_definable Grammar.ofLanguage_crossed
  rw [hm] at hstate
  obtain ⟨_, hm', source, hsource, target, htarget, hedge, hsubset, hlook, hfewer⟩ := hstate
  cases hm'
  have hsourceConsistent := hconsistent 2 source hsource
  obtain ⟨target', htarget', -, hincludes⟩ := hsourceConsistent.target 9 6 hedge
  cases htarget.symm.trans htarget'
  obtain ⟨p, other, hp, hedge', hother⟩ :=
    hsourceConsistent.origin 9 6 target _ _ hedge htarget hlook
  refine ⟨m, source, target, hm, hsource, htarget, hedge, hincludes, hsubset, p, other, ?_, hp,
    hedge', hother⟩
  rintro rfl
  cases hp.symm.trans hsource
  apply hfewer hother

end Automaton

end ShiftReduce
