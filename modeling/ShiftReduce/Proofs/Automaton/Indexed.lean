import Mathlib.Logic.Relation
import ShiftReduce.Automaton.Indexed
import ShiftReduce.Proofs.Automaton.Canonical
import ShiftReduce.Proofs.OrderedMap

/-!
# The canonical automaton is the canonical collection

A worklist goes through the same stages as the construction that compares a set of items with
all states found.  For the states with a fingerprint are listed in the order in which they have
been found, and so the first of them with the same items is the first of all.  In the end the
queue is empty, and the automaton is the same whatever the fingerprints are.

Its states are the sets that are reached from the closure of the accepting rule, each of them
once.
-/

namespace ShiftReduce

namespace Worklist

variable {fingerprint : ItemSet → UInt64} {g : Grammar} {w : Worklist} {found : Array ItemSet}
  {edges : Array (OrderedMap SymbolId StateId)}

/-! ### Stages -/

/-- A worklist is at the stage where some states have been found and the edges of the first
ones have been drawn: the others wait, and each state is listed under its fingerprint. -/
structure Mirrors (fingerprint : ItemSet → UInt64) (w : Worklist) (found : Array ItemSet)
    (edges : Array (OrderedMap SymbolId StateId)) : Prop where
  node : ∀ q : StateId, w.nodes[q]? = found[q]?.map fun s => ⟨s, edges[q]?.getD ∅⟩
  candidates : ∀ print, w.candidates print
    = (List.range found.size).filter fun q => found[q]?.map fingerprint = some print
  edges_le : edges.size ≤ found.size
  pending : w.pending = List.range' edges.size (found.size - edges.size)

theorem mirrors_empty :
  Mirrors fingerprint empty #[] #[]
  := by
  constructor
  · intro q
    rfl
  · intro print
    rfl
  · apply Nat.le_refl
  · rfl

theorem Mirrors.size_nodes (h : Mirrors fingerprint w found edges) :
  w.nodes.size = found.size
  := by
  apply Nat.le_antisymm
  · rw [← Array.getElem?_eq_none_iff, h.node, Array.getElem?_eq_none (Nat.le_refl _)]
    rfl
  · have hnone := Array.getElem?_eq_none (Nat.le_refl w.nodes.size)
    rw [h.node, Option.map_eq_none_iff] at hnone
    apply Array.getElem?_eq_none_iff.mp hnone

theorem Mirrors.itemsOf_eq (h : Mirrors fingerprint w found edges) {q : StateId} {s : ItemSet}
    (hs : found[q]? = some s) :
  w.itemsOf q = s
  := by
  rw [itemsOf, h.node, hs]
  rfl

/-- A state that has edges may have none before they are drawn. -/
theorem Mirrors.push (h : Mirrors fingerprint w found edges) (hlt : edges.size < found.size) :
  Mirrors fingerprint ⟨w.nodes, w.index, w.pending.tail⟩ found (edges.push ∅)
  where
  node q := by
    rw [h.node, Array.getElem?_push]
    split
    · rename_i hq
      rw [hq, Array.getElem?_eq_none (Nat.le_refl _)]
      rfl
    · rfl
  candidates := h.candidates
  edges_le := by
    rw [Array.size_push]
    apply hlt
  pending := by
    rw [h.pending, List.tail_range', Array.size_push, Nat.sub_sub]

/-! ### Looking a set up -/

/-- The first candidate with the items of a set is the first state with these items. -/
theorem Mirrors.find?_candidates (h : Mirrors fingerprint w found edges) (s : ItemSet) :
  ((w.candidates (fingerprint s)).find? fun q => w.itemsOf q = s) = found.findIdx? (· = s)
  := by
  apply OrderedMap.Lists.find?_eq h.candidates
  · intro q hq
    rw [h.itemsOf_eq (Array.getElem?_eq_getElem hq)]
  · intro t _ ht
    rw [of_decide_eq_true ht]

theorem Mirrors.insert (h : Mirrors fingerprint w found edges) (s : ItemSet) :
  Mirrors fingerprint (w.insert fingerprint s) (found.push s) edges
  where
  node q := by
    simp only [Worklist.insert, Array.getElem?_push, h.size_nodes]
    split
    · rename_i hq
      rw [hq, Array.getElem?_eq_none h.edges_le]
      rfl
    · apply h.node
  candidates := by
    rw [Worklist.insert, h.size_nodes]
    apply OrderedMap.Lists.push h.candidates
  edges_le := by
    rw [Array.size_push]
    apply Nat.le_succ_of_le h.edges_le
  pending := by
    have hlast : edges.size + (found.size - edges.size) = found.size :=
      Nat.add_sub_cancel' h.edges_le
    rw [Worklist.insert, h.pending, h.size_nodes, Array.size_push, Nat.succ_sub h.edges_le,
      List.range'_1_concat, hlast]

/-- A set of items gets the same number as if it were compared with all states. -/
theorem Mirrors.locate (h : Mirrors fingerprint w found edges) (s : ItemSet) :
  (w.locate fingerprint s).2 = (Exploration.locate found s).2
    ∧ Mirrors fingerprint (w.locate fingerprint s).1 (Exploration.locate found s).1 edges
  := by
  rw [Worklist.locate, Exploration.locate, h.find?_candidates]
  cases found.findIdx? (· = s) with
  | some q => exact ⟨rfl, h⟩
  | none => exact ⟨h.size_nodes, h.insert s⟩

/-! ### Drawing edges -/

/-- The edge of the state that is left is drawn over one more symbol. -/
theorem Mirrors.draw {drawn : OrderedMap SymbolId StateId}
    (h : Mirrors fingerprint w found (edges.push drawn)) {s : ItemSet}
    (hs : found[edges.size]? = some s) (i : SymbolId) :
  Mirrors fingerprint (w.draw fingerprint g edges.size i)
    (Exploration.locate found (s.goto g i)).1
    (edges.push (drawn.put i (Exploration.locate found (s.goto g i)).2))
  := by
  obtain ⟨htarget, hlocate⟩ := h.locate (s.goto g i)
  rw [Worklist.draw, h.itemsOf_eq hs]
  constructor
  · intro q
    rw [Array.getElem?_modify, hlocate.node, htarget, Array.getElem?_push, Array.getElem?_push]
    by_cases hq : q = edges.size
    · simp [hq, Function.comp_def]
    · simp [hq, Ne.symm hq]
  · apply hlocate.candidates
  · rw [Array.size_push, ← Array.size_push drawn]
    apply hlocate.edges_le
  · rw [Array.size_push, ← Array.size_push drawn]
    apply hlocate.pending

/-- The edges of a state are drawn over some symbols. -/
theorem Mirrors.leave (h : Mirrors fingerprint w found (edges.push ∅)) {s : ItemSet}
    (hs : found[edges.size]? = some s) (symbols : List SymbolId) :
  (Exploration.leave g s found symbols).1[edges.size]? = some s
    ∧ Mirrors fingerprint (symbols.foldl (Worklist.draw fingerprint g edges.size) w)
      (Exploration.leave g s found symbols).1
      (edges.push (Exploration.leave g s found symbols).2)
  := by
  induction symbols using List.reverseRecOn with
  | nil => exact ⟨hs, h⟩
  | append_singleton symbols i ih =>
      obtain ⟨hget, hmirrors⟩ := ih
      rw [Exploration.leave_append_singleton, List.foldl_append]
      use Exploration.grows_locate _ _ _ _ hget
      apply hmirrors.draw hget

/-- A worklist makes a step whenever the construction does. -/
theorem Mirrors.step {e : Exploration} (h : Mirrors fingerprint w e.found e.edges) :
  (w.step fingerprint g = none ∧ e.step g = none)
    ∨ ∃ w' e', w.step fingerprint g = some w' ∧ e.step g = some e'
      ∧ Mirrors fingerprint w' e'.found e'.edges
  := by
  cases hnext : e.found[e.edges.size]? with
  | none =>
      left
      have hpending := h.pending
      rw [Nat.sub_eq_zero_of_le (Array.getElem?_eq_none_iff.mp hnext)] at hpending
      rw [Worklist.step, Exploration.step, hpending, hnext]
      apply And.intro rfl rfl
  | some s =>
      right
      obtain ⟨hlt, -⟩ := Array.getElem?_eq_some_iff.mp hnext
      have hpush := h.push hlt
      obtain ⟨n, hn⟩ := Nat.exists_eq_succ_of_ne_zero (Nat.sub_ne_zero_of_lt hlt)
      have hpending := h.pending
      rw [hn, List.range'_succ] at hpending
      rw [hpending] at hpush
      refine ⟨_, ⟨_, _⟩, ?_, ?_, (hpush.leave (g := g) hnext (s.nextSymbols g)).2⟩
      · rw [Worklist.step, hpending]
        simp only [h.itemsOf_eq hnext]
        rfl
      · rw [Exploration.step, hnext]
        rfl

theorem Mirrors.run (n : Nat) {e : Exploration} (h : Mirrors fingerprint w e.found e.edges) :
  Mirrors fingerprint (w.run fingerprint g n) (e.run g n).found (e.run g n).edges
  := by
  induction n generalizing w e with
  | zero => apply h
  | succ n ih =>
      rw [Worklist.run, Exploration.run]
      rcases h.step (g := g) with ⟨hw, he⟩ | ⟨w', e', hw, he, h'⟩
      · rw [hw, he]
        apply h
      · rw [hw, he]
        apply ih h'

/-- The worklist ends at the last stage of the construction. -/
theorem mirrors_complete (fingerprint : ItemSet → UInt64) (g : Grammar) :
  Mirrors fingerprint (complete fingerprint g) (Exploration.last g).found
    (Exploration.last g).edges
  := by
  have hempty : Mirrors fingerprint empty #[] #[] := mirrors_empty
  have hstart := (hempty.locate (ItemSet.closure g Automaton.initialKernel)).2
  have hfirst : Exploration.locate #[] (ItemSet.closure g Automaton.initialKernel)
      = (#[ItemSet.closure g Automaton.initialKernel], 0) := by
    simp [Exploration.locate]
  rw [hfirst] at hstart
  apply Mirrors.run (e := ⟨_, _⟩) _ hstart

/-- In the end no state waits for its edges. -/
theorem pending_complete (hg : g.Proper) (fingerprint : ItemSet → UInt64) :
  (complete fingerprint g).pending = []
  := by
  have hsize := (Exploration.last_sound hg).2
  rw [(mirrors_complete fingerprint g).pending, hsize, Nat.sub_self]
  rfl

end Worklist

namespace Automaton

variable {g : Grammar}

/-- The automaton does not depend on the fingerprints. -/
theorem indexed_eq_canonical (hg : g.Proper) (fingerprint : ItemSet → UInt64) :
  indexed fingerprint g = canonical g
  := by
  have hsize := (Exploration.last_sound hg).2
  have hnode := (Worklist.mirrors_complete fingerprint g).node
  suffices hnodes : (Worklist.complete fingerprint g).nodes = (canonical g).nodes by
    rw [indexed, hnodes]
  apply Array.ext_getElem?
  intro q
  apply Option.ext
  intro node
  rw [hnode, ← node?, node?_canonical, Option.map_eq_some_iff]
  constructor
  · rintro ⟨s, hs, rfl⟩
    obtain ⟨hlt, -⟩ := Array.getElem?_eq_some_iff.mp hs
    rw [← hsize] at hlt
    rw [Array.getElem?_eq_getElem hlt]
    exact ⟨hs, rfl⟩
  · rintro ⟨hs, hedges⟩
    refine ⟨node.items, hs, ?_⟩
    rw [hedges]
    rfl

/-! ### The canonical collection -/

/-- The states are the sets of items that are reached from the closure of the accepting rule
over the symbols after their dots, each of them once, and the edges lead to the sets that are
reached. -/
structure IsCollection (g : Grammar) (a : Automaton) : Prop where
  start : ∃ node, a.node? startState = some node
    ∧ node.items = ItemSet.closure g [⟨⟨.accept, 0⟩, .singleton endOfInputId⟩]
  distinct : ∀ {p q node node'}, a.node? p = some node → a.node? q = some node' →
    node.items = node'.items → p = q
  reachable : ∀ {q node}, a.node? q = some node →
    Relation.ReflTransGen (fun p q => ∃ i, a.target? p i = some q) startState q
  edge : ∀ {q node i}, a.node? q = some node →
    ((∃ target, node.edges.get? i = some target)
      ↔ ∃ item ∈ node.items.items, item.next? g = some i)
  target : ∀ {q target node i}, a.node? q = some node → node.edges.get? i = some target →
    ∃ node', a.node? target = some node'
      ∧ node'.items = ItemSet.closure g (node.items.advance g i)
  noReturn : ∀ {q i}, a.target? q i ≠ some startState
  startOnly : ∀ {q node}, a.node? q = some node → node.items.HasCore ⟨.accept, 0⟩ →
    q = startState

/-- A stack of states is a path from the start state to its top. -/
theorem Spells.reaches {a : Automaton} {q : StateId} {below : List StateId}
    {γ : List SymbolId} (hs : Spells a (q :: below) γ) :
  Relation.ReflTransGen (fun p q => ∃ i, a.target? p i = some q) startState q
  := by
  induction γ generalizing q below with
  | nil =>
      cases hs
      apply Relation.ReflTransGen.refl
  | cons i γ ih =>
      cases hs with
      | edge hs ht => apply (ih hs).tail ⟨i, ht⟩

/-- Only a stack of the start state alone has a top that calls for the accepting rule. -/
theorem Drawn.eq_nil_of_accept {a : Automaton} (hg : g.Proper) (ha : Drawn g a) {q : StateId}
    {below : List StateId} {γ : List SymbolId} {node : Node} (hs : Spells a (q :: below) γ)
    (hq : a.node? q = some node) (hc : node.items.HasCore ⟨.accept, 0⟩) :
  γ = []
  := ((ha.faithful hg).viable_of_hasCore hs hq hc).eq_nil_of_accept hg

/-- An automaton that is drawn to the end is the canonical collection. -/
theorem Drawn.isCollection {a : Automaton} (hg : g.Proper) (ha : Drawn g a) :
  IsCollection g a
  where
  start := ha.start
  distinct := ha.distinct
  reachable hq := by
    obtain ⟨below, γ, hs⟩ := ha.exists_spells hq
    apply hs.reaches
  edge hq := by
    rw [ha.edge hq, ItemSet.nextSymbols, List.mem_eraseDups, List.mem_filterMap]
  target := ha.target
  noReturn {q i} ht := by
    obtain ⟨node, hq, -⟩ := Option.bind_eq_some_iff.mp ht
    obtain ⟨below, γ, hs⟩ := ha.exists_spells hq
    obtain ⟨node', hnode', hitems⟩ := ha.start
    have hc : node'.items.HasCore ⟨.accept, 0⟩ := by
      rw [hitems, ItemSet.hasCore_start hg]
      apply Viable.start
    cases ha.eq_nil_of_accept hg (.edge hs ht) hnode' hc
  startOnly hq hc := by
    obtain ⟨below, γ, hs⟩ := ha.exists_spells hq
    obtain rfl := ha.eq_nil_of_accept hg hs hq hc
    cases hs
    rfl

/-- The automaton of a language is the canonical collection of its grammar.  It is the same
with every choice of fingerprints, where in the end no state waits for its edges. -/
theorem canonical_isCollection {V E : Type} {language : Language V E}
    (hl : language.Definable) (hg : Grammar.ofLanguage language = .ok g) :
  IsCollection g (canonical g)
    ∧ ∀ fingerprint : ItemSet → UInt64, indexed fingerprint g = canonical g
      ∧ (Worklist.complete fingerprint g).pending = []
  := by
  have hproper := (Grammar.encodes_of_ofLanguage hg).proper hl
  use (canonical_drawn hproper).isCollection hproper
  intro fingerprint
  use indexed_eq_canonical hproper fingerprint
  apply Worklist.pending_complete hproper

end Automaton

/-! ### A language with states that share their cores -/

/-- A language in which the symbol before `e` and the symbol after it tell by which rule `e`
is reduced. -/
def Language.crossed : Language Unit Empty where
  lexRules := []
  rules :=
    [{ lhs := .label "S", rhs := [.label "a", .label "E", .label "c"] },
     { lhs := .label "S", rhs := [.label "a", .label "F", .label "d"] },
     { lhs := .label "S", rhs := [.label "b", .label "F", .label "c"] },
     { lhs := .label "S", rhs := [.label "b", .label "E", .label "d"] },
     { lhs := .label "E", rhs := [.label "e"] },
     { lhs := .label "F", rhs := [.label "e"] }]
  start := .label "S"

theorem Language.crossed_definable :
  crossed.Definable
  := definable_of_addRules rfl rfl

/-- Its grammar. -/
def Grammar.crossed : Grammar :=
  (Grammar.ofLanguage Language.crossed).toOption.get (by decide)

theorem Grammar.ofLanguage_crossed :
  Grammar.ofLanguage Language.crossed = .ok crossed
  := rfl

/-- If all sets of items have the same fingerprint, the automaton is still the canonical
collection. -/
theorem Automaton.canonical_isCollection_crossed :
  IsCollection .crossed (indexed (fun _ => 0) .crossed)
    ∧ (Worklist.complete (fun _ => 0) .crossed).pending = []
  := by
  obtain ⟨h, hindexed⟩ :=
    canonical_isCollection Language.crossed_definable Grammar.ofLanguage_crossed
  obtain ⟨heq, hpending⟩ := hindexed fun _ => 0
  rw [heq]
  exact ⟨h, hpending⟩

end ShiftReduce
