import ShiftReduce.Proofs.Automaton.Merged
import ShiftReduce.Proofs.Grammar.Renumbering

/-!
# Renumbering automata

When the symbols and the rules of a grammar get other numbers, the states of its automata do too,
as they are found in another order.  But what is viable after a prefix and what follows it are
the same, and these tell the states apart: in the canonical automaton both of them, and in the
merged one only the viable cores (`Automaton.Separates`).  So the states over the same prefixes
are matched with each other, and matched states have the same items and the same edges, under the
other numbers (`Automaton.exists_renumbered`).
-/

namespace ShiftReduce

variable {f : Renumbering} {g g' : Grammar} {γ δ : List SymbolId}

/-! ### Viable cores and lookaheads -/

namespace Grammar.Renumbered

theorem viable (h : g.Renumbered f g') {c : Core} (hc : Viable g γ c) :
  Viable g' (γ.map f.symbol) (f.core c)
  := by
  induction hc with
  | start => apply Viable.start
  | call _ hc hid ih => apply Viable.call ih (h.after_eq_cons hc) (h.mem_rulesFor hid)
  | read _ hc ih => apply Viable.read ih (h.after_eq_cons hc)

theorem follows (h : g.Renumbered f g') {c : Core} {a : SymbolId} (ha : Follows g γ c a) :
  Follows g' (γ.map f.symbol) (f.core c) (f.symbol a)
  := by
  induction ha with
  | start =>
      rw [h.endOfInput]
      apply Follows.start
  | first hc hafter hid hbegins =>
      apply Follows.first (h.viable hc) (h.after_eq_cons hafter) (h.mem_rulesFor hid)
        (h.begins hbegins)
  | pass _ hafter hid hrest ih =>
      apply Follows.pass ih (h.after_eq_cons hafter) (h.mem_rulesFor hid) (h.vanishes hrest)
  | read _ hafter ih => apply Follows.read ih (h.after_eq_cons hafter)

/-- The same cores are viable after the same prefixes. -/
theorem viable_iff (h : g.Renumbered f g') {c : Core} :
  Viable g' (γ.map f.symbol) (f.core c) ↔ Viable g γ c
  := by
  constructor
  · intro hc
    have hback := h.symm.viable hc
    rwa [f.map_symm_map_symbol, f.symm_core_core] at hback
  · apply h.viable

/-- They are followed by the same lookaheads. -/
theorem follows_iff (h : g.Renumbered f g') {c : Core} {a : SymbolId} :
  Follows g' (γ.map f.symbol) (f.core c) (f.symbol a) ↔ Follows g γ c a
  := by
  constructor
  · intro ha
    have hback := h.symm.follows ha
    rwa [f.map_symm_map_symbol, f.symm_core_core, f.symm_symbol_symbol] at hback
  · apply h.follows

end Grammar.Renumbered

/-- The same cores are viable after two prefixes. -/
def SameViable (g : Grammar) (γ δ : List SymbolId) : Prop :=
  ∀ c, Viable g γ c ↔ Viable g δ c

/-- The same cores are viable after two prefixes, and they are followed by the same
lookaheads. -/
def SameFollows (g : Grammar) (γ δ : List SymbolId) : Prop :=
  SameViable g γ δ ∧ ∀ c a, Follows g γ c a ↔ Follows g δ c a

theorem Grammar.Renumbered.sameViable_iff (h : g.Renumbered f g') :
  SameViable g' (γ.map f.symbol) (δ.map f.symbol) ↔ SameViable g γ δ
  := by
  rw [SameViable, f.core_surjective.forall]
  simp only [h.viable_iff, SameViable]

theorem Grammar.Renumbered.sameFollows_iff (h : g.Renumbered f g') :
  SameFollows g' (γ.map f.symbol) (δ.map f.symbol) ↔ SameFollows g γ δ
  := by
  have hfollows : ∀ c, (∀ a, Follows g' (γ.map f.symbol) (f.core c) a
      ↔ Follows g' (δ.map f.symbol) (f.core c) a) ↔ ∀ a, Follows g γ c a ↔ Follows g δ c a := by
    intro c
    rw [f.symbol.surjective.forall]
    simp only [h.follows_iff]
  rw [SameFollows, h.sameViable_iff, f.core_surjective.forall]
  simp only [hfollows, SameFollows]

namespace Automaton

variable {a a' : Automaton} {Same Same' : List SymbolId → List SymbolId → Prop}

/-! ### What tells states apart -/

/-- All states of a faithful automaton are reached, and two prefixes lead to the same state just
if they are the same in some respect. -/
structure Separates (g : Grammar) (Same : List SymbolId → List SymbolId → Prop) (a : Automaton) :
    Prop where
  faithful : a.Faithful g
  reached : ∀ {q node}, a.node? q = some node → ∃ below γ, a.Spells (q :: below) γ
  same : ∀ {q q' below below' γ δ}, a.Spells (q :: below) γ → a.Spells (q' :: below') δ →
    (q = q' ↔ Same γ δ)

/-- Canonical states are told apart by the viable cores and the lookaheads that follow them. -/
theorem Drawn.separates (hg : g.Proper) (ha : Drawn g a) :
  a.Separates g (SameFollows g)
  where
  faithful := ha.faithful hg
  reached := ha.exists_spells
  same {q q' below below' γ δ} hs hs' := by
    obtain ⟨node, hq, -⟩ := (ha.faithful hg).hasCore hs
    obtain ⟨node', hq', -⟩ := (ha.faithful hg).hasCore hs'
    have hdescribes := ha.describes_of_node hg hs hq
    have hdescribes' := ha.describes_of_node hg hs' hq'
    constructor
    · rintro rfl
      rw [hq] at hq'
      cases hq'
      constructor
      · intro c
        rw [← hdescribes.hasCore, hdescribes'.hasCore]
      · intro c x
        rw [← hdescribes.looks, hdescribes'.looks]
    · rintro ⟨hviable, hfollows⟩
      apply ha.distinct hq hq'
      apply ItemSet.ext_facts
      · intro c
        rw [hdescribes.hasCore, hdescribes'.hasCore, hviable]
      · intro c x
        rw [hdescribes.looks, hdescribes'.looks, hfollows]

/-- Merged states are told apart by the viable cores. -/
theorem Merges.separates {m : Automaton} {cls : StateId → StateId} (hg : g.Proper)
    (ha : Drawn g a) (h : Merges a m cls) :
  m.Separates g (SameViable g)
  where
  faithful := h.faithful hg ha
  reached hk := by
    obtain ⟨q, node, hq, rfl⟩ := h.member hk
    obtain ⟨below, γ, hs⟩ := ha.exists_spells hq
    exact ⟨_, γ, h.spells_map hg ha hs⟩
  same {k k' below below' γ δ} hs hs' := by
    obtain ⟨stack, hq, hmap⟩ := h.exists_spells hg ha hs
    obtain ⟨stack', hq', hmap'⟩ := h.exists_spells hg ha hs'
    obtain ⟨q, _, node, rfl, hnode, hdescribes⟩ := ha.describes hg hq
    obtain ⟨q', _, node', rfl, hnode', hdescribes'⟩ := ha.describes hg hq'
    obtain ⟨rfl, -⟩ := List.cons.inj hmap
    obtain ⟨rfl, -⟩ := List.cons.inj hmap'
    have hsame : node.items.sameCores node'.items = true ↔ SameViable g γ δ := by
      rw [ItemSet.sameCores_iff]
      simp only [hdescribes.hasCore, hdescribes'.hasCore, SameViable]
    rw [← hsame]
    use h.sameCores hnode hnode', h.distinct hnode hnode'

/-! ### Matched states -/

/-- States of two automata that are reached over the same prefix. -/
def Meet (f : Renumbering) (a a' : Automaton) (q q' : StateId) : Prop :=
  ∃ below below' γ, a.Spells (q :: below) γ ∧ a'.Spells (q' :: below') (γ.map f.symbol)

theorem Meet.symm {q q' : StateId} (h : Meet f a a' q q') :
  Meet f.symm a' a q' q
  := by
  obtain ⟨below, below', γ, hs, hs'⟩ := h
  refine ⟨below', below, γ.map f.symbol, hs', ?_⟩
  rw [f.map_symm_map_symbol]
  apply hs

/-- Prefixes that lead to a state of the one automaton lead to one of the other. -/
theorem Faithful.exists_spells_map (h : g.Renumbered f g') (ha : a.Faithful g)
    (ha' : a'.Faithful g') {stack : List StateId} (hs : a.Spells stack γ) :
  ∃ q' below', a'.Spells (q' :: below') (γ.map f.symbol)
  := by
  obtain ⟨c, hc⟩ := ha.exists_viable hs
  obtain ⟨stack', hs'⟩ := ha'.exists_spells (h.viable hc)
  obtain ⟨q', below', rfl⟩ := hs'.exists_eq_cons
  exact ⟨q', below', hs'⟩

theorem lt_size_of_node? {q : StateId} {node : Node} (hq : a.node? q = some node) :
  q < a.size
  := (Array.getElem?_eq_some_iff.mp hq).1

theorem Faithful.lt_size (ha : a.Faithful g) {q : StateId} {below : List StateId}
    (hs : a.Spells (q :: below) γ) :
  q < a.size
  := by
  obtain ⟨node, hq, -⟩ := ha.hasCore hs
  apply lt_size_of_node? hq

/-- Each state meets one of the other automaton. -/
theorem Separates.exists_meet (h : g.Renumbered f g') (ha : a.Separates g Same)
    (ha' : a'.Faithful g') {q : StateId} (hq : q < a.size) :
  ∃ q' < a'.size, Meet f a a' q q'
  := by
  obtain ⟨below, γ, hs⟩ := ha.reached (Array.getElem?_eq_getElem hq)
  obtain ⟨q', below', hs'⟩ := ha.faithful.exists_spells_map h ha' hs
  exact ⟨q', ha'.lt_size hs', below, below', γ, hs, hs'⟩

/-- The second automaton has the states of the first one under other numbers. -/
structure Renumbered (f : Renumbering) (states : Equiv.Perm StateId) (g g' : Grammar)
    (a a' : Automaton) : Prop where
  grammar : g.Renumbered f g'
  faithful : a.Faithful g
  faithful' : a'.Faithful g'
  lt_iff : ∀ q, states q < a'.size ↔ q < a.size
  meet : ∀ {q}, q < a.size → Meet f a a' q (states q)
  unique : ∀ {q q'}, Meet f a a' q q' → q' = states q

/-- If the states of two automata are told apart in the same respect, they are the same under
other numbers. -/
theorem exists_renumbered (h : g.Renumbered f g') (ha : a.Separates g Same)
    (ha' : a'.Separates g' Same')
    (hsame : ∀ γ δ, Same' (γ.map f.symbol) (δ.map f.symbol) ↔ Same γ δ) :
  a'.size = a.size ∧ ∃ states, Renumbered f states g g' a a'
  := by
  -- States that meet are reached over matched prefixes, so they are told apart alike.
  have hunique : ∀ {q₁ q₂ q₁' q₂'}, Meet f a a' q₁ q₁' → Meet f a a' q₂ q₂' →
      (q₁ = q₂ ↔ q₁' = q₂') := by
    rintro q₁ q₂ q₁' q₂' ⟨_, _, γ, hs₁, hs₁'⟩ ⟨_, _, δ, hs₂, hs₂'⟩
    rw [ha.same hs₁ hs₂, ha'.same hs₁' hs₂', hsame γ δ]
  have hright : ∀ q' < a'.size, ∃ q < a.size, Meet f a a' q q' := by
    intro q' hq'
    obtain ⟨q, hq, hmeet⟩ := ha'.exists_meet h.symm ha.faithful hq'
    exact ⟨q, hq, hmeet.symm⟩
  obtain ⟨hsize, states, hlt, hmeet⟩ :=
    exists_perm_of_matching (fun q => ha.exists_meet h ha'.faithful) hright hunique
  use hsize, states
  constructor
  · apply h
  · apply ha.faithful
  · apply ha'.faithful
  · apply hlt
  · apply hmeet
  · intro q q' hqq'
    obtain ⟨_, _, _, hs, -⟩ := id hqq'
    apply (hunique hqq' (hmeet q (ha.faithful.lt_size hs))).mp rfl

namespace Renumbered

variable {states : Equiv.Perm StateId} {q : StateId} {node node' : Node}

/-- The first automaton is the second one under the former numbers. -/
theorem symm (h : Renumbered f states g g' a a') :
  Renumbered f.symm states.symm g' g a' a
  where
  grammar := h.grammar.symm
  faithful := h.faithful'
  faithful' := h.faithful
  lt_iff q' := by rw [← h.lt_iff, Equiv.apply_symm_apply]
  meet {q'} hq' := by
    rw [← states.apply_symm_apply q', h.lt_iff] at hq'
    have hmeet := (h.meet hq').symm
    rwa [Equiv.apply_symm_apply] at hmeet
  unique {q' q} hmeet := by
    rw [Equiv.eq_symm_apply]
    apply (h.unique hmeet.symm).symm

theorem start_eq (h : Renumbered f states g g' a a') :
  states startState = startState
  := (h.unique ⟨[], [], [], .start, .start⟩).symm

theorem exists_node (h : Renumbered f states g g' a a') (hq : a.node? q = some node) :
  ∃ node', a'.node? (states q) = some node'
  := by
  have hlt := (h.lt_iff q).mpr (lt_size_of_node? hq)
  exact ⟨_, Array.getElem?_eq_getElem hlt⟩

/-- A state has the cores that its match has. -/
theorem hasCore (h : Renumbered f states g g' a a') (hq : a.node? q = some node)
    (hq' : a'.node? (states q) = some node') {c : Core} (hc : node.items.HasCore c) :
  node'.items.HasCore (f.core c)
  := by
  obtain ⟨_, _, γ, hs, hs'⟩ := h.meet (lt_size_of_node? hq)
  have hviable := h.faithful.viable_of_hasCore hs hq hc
  obtain ⟨node'', hnode'', hcore⟩ := h.faithful'.hasCore hs'
  rw [hq'] at hnode''
  cases hnode''
  apply (hcore _).mpr (h.grammar.viable hviable)

/-- A state has the lookaheads that its match has. -/
theorem looks (h : Renumbered f states g g' a a') (hq : a.node? q = some node)
    (hq' : a'.node? (states q) = some node') {c : Core} {x : SymbolId}
    (hx : node.items.Looks c x) :
  node'.items.Looks (f.core c) (f.symbol x)
  := by
  obtain ⟨below, γ, hs, hfollows⟩ := h.faithful.origin hq hx
  obtain ⟨q', below', hs'⟩ := h.faithful.exists_spells_map h.grammar h.faithful' hs
  obtain rfl := h.unique ⟨below, below', γ, hs, hs'⟩
  apply h.faithful'.looks hs' hq' (h.grammar.follows hfollows)

/-- Edges lead to matched states. -/
theorem edge (h : Renumbered f states g g' a a') (hq : a.node? q = some node)
    (hq' : a'.node? (states q) = some node') {i : SymbolId} {target : StateId}
    (hi : node.edges.get? i = some target) :
  node'.edges.get? (f.symbol i) = some (states target)
  := by
  obtain ⟨below, _, γ, hs, -⟩ := h.meet (lt_size_of_node? hq)
  rw [← target?_of_node hq] at hi
  -- The longer prefix leads to the match of the target, and there is no way to it but through
  -- the match of the state.
  have hread := Spells.edge hs hi
  obtain ⟨target', stack', hread'⟩ := h.faithful.exists_spells_map h.grammar h.faithful' hread
  rw [← h.unique ⟨_, _, _, hread, hread'⟩]
  cases hread' with
  | edge hs' hi' =>
      obtain rfl := h.unique ⟨_, _, _, hs, hs'⟩
      rw [← target?_of_node hq', hi']

end Renumbered

/-! ### Canonical and merged automata -/

/-- The canonical automata of grammars that differ only in numbers differ only in numbers. -/
theorem canonical_renumbered (h : g.Renumbered f g') (hg : g.Proper) (hg' : g'.Proper) :
  (canonical g').size = (canonical g).size
    ∧ ∃ states, Renumbered f states g g' (canonical g) (canonical g')
  := by
  have hseparates := (canonical_drawn hg).separates hg
  have hseparates' := (canonical_drawn hg').separates hg'
  apply exists_renumbered h hseparates hseparates' fun _ _ => h.sameFollows_iff

/-- So do the merged automata. -/
theorem merged_renumbered (h : g.Renumbered f g') (hg : g.Proper) (hg' : g'.Proper) :
  ∃ m m', (canonical g).merged = .ok m ∧ (canonical g').merged = .ok m' ∧ m'.size = m.size
    ∧ ∃ states, Renumbered f states g g' m m'
  := by
  have hdrawn := canonical_drawn hg
  have hdrawn' := canonical_drawn hg'
  obtain ⟨m, cls, hm, hmerges⟩ := exists_merged hdrawn.nodes_ne
  obtain ⟨m', cls', hm', hmerges'⟩ := exists_merged hdrawn'.nodes_ne
  use m, m', hm, hm'
  apply exists_renumbered h (hmerges.separates hg hdrawn) (hmerges'.separates hg' hdrawn')
    fun _ _ => h.sameViable_iff

end Automaton

end ShiftReduce
