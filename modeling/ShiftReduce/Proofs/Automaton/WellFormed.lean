import ShiftReduce.Proofs.Automaton.Merged
import ShiftReduce.Proofs.Table.Conflicts

/-!
# Items of states

Closing a set of items, moving dots and merging states make items without checking them
(`Item.make`).  The check would refuse none of them for its rule or its dot, since the cores of
a state are viable after the prefixes that lead to it.  It refuses those whose rule nothing
follows after any of these prefixes.  There are none if each symbol that stands behind another
one in a rule vanishes or begins with a terminal, and the start state of the barren language
has one.
-/

namespace ShiftReduce

/-! ### The check of an item -/

/-- The check lets the parts of an item pass. -/
def Item.Accepted (g : Grammar) (item : Item) : Prop :=
  Item.make g item.core.rule item.core.dot item.lookaheads = .ok item

instance (g : Grammar) (item : Item) : Decidable (item.Accepted g) :=
  inferInstanceAs (Decidable (_ = _))

/-- The dot of a core is in a rule of the grammar. -/
def Core.InRule (g : Grammar) (c : Core) : Prop :=
  ∃ r, g.rule? c.rule = some r ∧ c.dot ≤ r.rhs.length

/-- The dot of a viable core is in a rule. -/
theorem Viable.inRule {g : Grammar} {γ : List SymbolId} {c : Core} (h : Viable g γ c) :
  c.InRule g
  := by
  obtain ⟨δ, r, ⟨hr, hle, -⟩, -⟩ := h.unread
  exact ⟨r, hr, hle⟩

theorem SymbolSet.isEmpty_iff {s : SymbolSet} :
  s.isEmpty = true ↔ ∀ x, x ∉ s
  := by
  simp only [isEmpty, List.isEmpty_iff, mem_def, List.eq_nil_iff_forall_not_mem]

namespace Item

variable {g : Grammar} {item : Item}

/-- If the dot is in a rule the check only asks for a lookahead. -/
theorem make_of_inRule (h : item.core.InRule g) :
  Item.make g item.core.rule item.core.dot item.lookaheads
    = if item.lookaheads.isEmpty then .error (.emptyLookaheads item.core.rule item.core.dot)
      else .ok item
  := by
  obtain ⟨r, hr, hle⟩ := h
  simp only [make, hr, if_neg (Nat.not_lt_of_le hle)]

theorem accepted_iff (h : item.core.InRule g) :
  item.Accepted g ↔ ∃ x, x ∈ item.lookaheads
  := by
  rw [Accepted, make_of_inRule h]
  split
  · rename_i hempty
    simp [SymbolSet.isEmpty_iff.mp hempty]
  · rename_i hempty
    simpa [SymbolSet.isEmpty_iff] using hempty

/-- Otherwise the lookaheads are missing. -/
theorem make_of_not_accepted (h : item.core.InRule g) (hrefused : ¬ item.Accepted g) :
  Item.make g item.core.rule item.core.dot item.lookaheads
    = .error (.emptyLookaheads item.core.rule item.core.dot)
  := by
  rw [Accepted] at hrefused
  rw [make_of_inRule h] at hrefused ⊢
  split
  · rfl
  · rename_i hempty
    rw [if_neg hempty] at hrefused
    cases hrefused rfl

end Item

namespace Automaton

variable {g : Grammar} {a m : Automaton} {cls : StateId → StateId}

/-! ### Items of one state -/

/-- The items of a state are in the order of their cores, their dots are in rules of the grammar
and their lookaheads are terminals.  The check lets those pass whose rules are followed by
something after a prefix that leads to the state, and misses the lookaheads of the others. -/
structure WellFormedAt (g : Grammar) (a : Automaton) (q : StateId) (s : ItemSet) : Prop where
  ascending : s.items.Pairwise fun x y => x.core < y.core
  inRule : ∀ item ∈ s.items, item.core.InRule g
  terminal : ∀ item ∈ s.items, ∀ x ∈ item.lookaheads, x < g.symbolCount ∧ g.isTerminal x = true
  accepted : ∀ item ∈ s.items, item.Accepted g
    ↔ ∃ stack γ x, Spells a (q :: stack) γ ∧ Follows g γ item.core x
  refused : ∀ item ∈ s.items, ¬ item.Accepted g →
    Item.make g item.core.rule item.core.dot item.lookaheads
      = .error (.emptyLookaheads item.core.rule item.core.dot)

/-- In a faithful automaton the items of a state that some prefix leads to are of this form. -/
theorem Faithful.wellFormedAt (hg : g.Proper) (ha : Faithful g a) {q : StateId} {node : Node}
    (hq : a.node? q = some node) (hs : ∃ stack γ, Spells a (q :: stack) γ) :
  WellFormedAt g a q node.items
  := by
  obtain ⟨stack, γ, hs⟩ := hs
  have hrule : ∀ item ∈ node.items.items, item.core.InRule g := by
    intro item hitem
    exact (ha.viable_of_hasCore hs hq ⟨item, hitem, rfl⟩).inRule
  constructor
  · apply node.items.ascending
  · apply hrule
  · intro item hitem x hx
    obtain ⟨_, _, _, hfollows⟩ := ha.origin hq ((ItemSet.looks_core_iff hitem).mpr hx)
    apply hfollows.isTerminal hg
  · intro item hitem
    rw [Item.accepted_iff (hrule item hitem)]
    constructor
    · rintro ⟨x, hx⟩
      obtain ⟨stack', γ', hs', hfollows⟩ := ha.origin hq ((ItemSet.looks_core_iff hitem).mpr hx)
      exact ⟨stack', γ', x, hs', hfollows⟩
    · rintro ⟨stack', γ', x, hs', hfollows⟩
      use x
      apply (ItemSet.looks_core_iff hitem).mp (ha.looks hs' hq hfollows)
  · intro item hitem
    apply Item.make_of_not_accepted (hrule item hitem)

/-- A merged state is led to by the prefixes that lead to the states it has been made of. -/
theorem Merges.exists_spells_top (hg : g.Proper) (ha : Drawn g a) (h : Merges a m cls)
    {k : StateId} {node : Node} (hk : m.node? k = some node) :
  ∃ stack γ, Spells m (k :: stack) γ
  := by
  obtain ⟨q, _, hq, rfl⟩ := h.member hk
  obtain ⟨stack, γ, hs⟩ := ha.exists_spells hq
  exact ⟨stack.map cls, γ, h.spells_map hg ha hs⟩

/-! ### Items of all states -/

/-- The check lets all items of all states pass. -/
def AllAccepted (g : Grammar) (a : Automaton) : Prop :=
  ∀ q node, a.node? q = some node → ∀ item ∈ node.items.items, item.Accepted g

/-- The items of the canonical states pass exactly if everything viable is followed by
something. -/
theorem Drawn.allAccepted_iff (hg : g.Proper) (ha : Drawn g a) :
  AllAccepted g a ↔ ∀ γ c, Viable g γ c → ∃ x, Follows g γ c x
  := by
  have hfaithful := ha.faithful hg
  constructor
  · intro hall γ c hc
    obtain ⟨stack, hs⟩ := hfaithful.exists_spells hc
    obtain ⟨q, below, rfl⟩ := hs.exists_eq_cons
    obtain ⟨node, hq, hcores⟩ := hfaithful.hasCore hs
    obtain ⟨item, hitem, rfl⟩ := (hcores c).mpr hc
    obtain ⟨x, hx⟩ := (Item.accepted_iff hc.inRule).mp (hall q node hq item hitem)
    exact ⟨x, ha.exact hg hs hq ((ItemSet.looks_core_iff hitem).mpr hx)⟩
  · intro hall q node hq item hitem
    obtain ⟨stack, γ, hs⟩ := ha.exists_spells hq
    obtain ⟨x, hx⟩ := hall γ item.core (hfaithful.viable_of_hasCore hs hq ⟨item, hitem, rfl⟩)
    apply ((hfaithful.wellFormedAt hg hq ⟨stack, γ, hs⟩).accepted item hitem).mpr
    exact ⟨stack, γ, x, hs, hx⟩

/-- Then those of the merged states pass as well. -/
theorem Merges.allAccepted (hg : g.Proper) (ha : Drawn g a) (h : Merges a m cls)
    (hall : AllAccepted g a) :
  AllAccepted g m
  := by
  have hfaithful := h.faithful hg ha
  intro k node hk item hitem
  obtain ⟨stack, γ, hs⟩ := h.exists_spells_top hg ha hk
  have hc := hfaithful.viable_of_hasCore hs hk ⟨item, hitem, rfl⟩
  obtain ⟨x, hx⟩ := (ha.allAccepted_iff hg).mp hall γ item.core hc
  apply ((hfaithful.wellFormedAt hg hk ⟨stack, γ, hs⟩).accepted item hitem).mpr
  exact ⟨stack, γ, x, hs, hx⟩

/-- In a fruitful grammar everything viable is followed by something. -/
theorem exists_follows_of_fruitful (hg : g.Fruitful) {γ : List SymbolId} {c : Core}
    (h : Viable g γ c) :
  ∃ x, Follows g γ c x
  := by
  obtain ⟨x, hx⟩ := h.exists_held hg
  exact ⟨x, hx.follows⟩

/-- The items of the states of a language, merged or not, are in the order of their cores, their
dots are in rules of the grammar and their lookaheads are terminals, and an item has one exactly
if its rule is followed by something after a prefix that leads to the state.  All of them have
one if everything viable is followed by something, as in a fruitful grammar; in the canonical
automaton only then. -/
theorem states_wellFormed {V E : Type} {language : Language V E} (hl : language.Definable)
    (hg : Grammar.ofLanguage language = .ok g) :
  ∃ m, (canonical g).merged = .ok m
    ∧ (∀ {q node}, (canonical g).node? q = some node →
        WellFormedAt g (canonical g) q node.items)
    ∧ (∀ {q node}, m.node? q = some node → WellFormedAt g m q node.items)
    ∧ (AllAccepted g (canonical g) ↔ ∀ γ c, Viable g γ c → ∃ x, Follows g γ c x)
    ∧ (AllAccepted g (canonical g) → AllAccepted g m)
    ∧ (g.Fruitful → AllAccepted g (canonical g) ∧ AllAccepted g m)
  := by
  have hproper := (Grammar.encodes_of_ofLanguage hg).proper hl
  have hdrawn := canonical_drawn hproper
  obtain ⟨m, cls, hm, hmerges⟩ := exists_merged hdrawn.nodes_ne
  have hiff := hdrawn.allAccepted_iff hproper
  refine ⟨m, hm, ?_, ?_, hiff, hmerges.allAccepted hproper hdrawn, ?_⟩
  · intro q node hq
    apply (hdrawn.faithful hproper).wellFormedAt hproper hq (hdrawn.exists_spells hq)
  · intro k node hk
    apply (hmerges.faithful hproper hdrawn).wellFormedAt hproper hk
    apply hmerges.exists_spells_top hproper hdrawn hk
  · intro hfruitful
    have hall := hiff.mpr fun γ c hc => exists_follows_of_fruitful hfruitful hc
    exact ⟨hall, hmerges.allAccepted hproper hdrawn hall⟩

/-- In the start state of the barren language the rule for `B` has no lookahead, merged or
not. -/
theorem states_wellFormed_barren :
  ∃ m, (canonical .barren).merged = .ok m
    ∧ ¬ AllAccepted .barren (canonical .barren) ∧ ¬ AllAccepted .barren m
    ∧ ¬ ∀ γ c, Viable .barren γ c → ∃ x, Follows .barren γ c x
  := by
  obtain ⟨m, hm, -, -, hiff, -⟩ :=
    states_wellFormed Language.barren_definable Grammar.ofLanguage_barren
  have hrefused : ∃ node ∈ (canonical .barren).node? startState, ∃ item ∈ node.items.items,
      ¬ item.Accepted .barren := by
    decide +kernel
  have hmerged : ∃ a ∈ (canonical .barren).merged.toOption, ∃ node ∈ a.node? startState,
      ∃ item ∈ node.items.items, ¬ item.Accepted .barren := by
    decide +kernel
  obtain ⟨node, hnode, item, hitem, hitem'⟩ := hrefused
  have hall : ¬ AllAccepted .barren (canonical .barren) := by
    intro hall
    apply hitem' (hall _ node hnode item hitem)
  refine ⟨m, hm, hall, ?_, fun h => hall (hiff.mpr h)⟩
  rw [hm] at hmerged
  obtain ⟨a, ha, node, hnode, item, hitem, hitem'⟩ := hmerged
  cases ha
  intro hall
  apply hitem' (hall _ node hnode item hitem)

end Automaton

end ShiftReduce
