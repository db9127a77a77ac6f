import ShiftReduce.Proofs.Grammar.Proper
import ShiftReduce.Proofs.Item.Facts

/-!
# The closure is the least closed set

An item whose next symbol is a nonterminal calls for the rules of that symbol, and expects
what may follow it.  `Called` and `Awaited` say which cores and lookaheads follow from those
of a kernel by finitely many such steps, and the closure of the kernel has exactly these
(`ItemSet.hasCore_closure`, `ItemSet.looks_closure`).
-/

namespace ShiftReduce

/-! ### Cores -/

namespace Core

/-- The symbols after the dot. -/
def after (g : Grammar) (c : Core) : List SymbolId :=
  match g.rule? c.rule with
  | some r => r.rhs.drop c.dot
  | none => []

/-- The core with the dot moved over one symbol. -/
def advance (c : Core) : Core :=
  ⟨c.rule, c.dot + 1⟩

variable {g : Grammar}

theorem after_of_rule {id : RuleId} {r : Rule} (hr : g.rule? id = some r) (dot : Nat) :
  (Core.mk id dot).after g = r.rhs.drop dot
  := by simp [after, hr]

/-- At its front a rule has its whole right-hand side to read. -/
theorem after_front {id : RuleId} {r : Rule} (hr : g.rule? id = some r) :
  (Core.mk id 0).after g = r.rhs ++ []
  := by rw [after_of_rule hr, List.drop_zero, List.append_nil]

/-- Behind the next symbol come the symbols that were behind it before. -/
theorem after_advance {c : Core} {i : SymbolId} {rest : List SymbolId}
    (h : c.after g = i :: rest) :
  c.advance.after g = rest
  := by
  rw [after] at h ⊢
  cases hr : g.rule? c.rule with
  | none =>
      rw [hr] at h
      cases h
  | some r =>
      simp only [hr] at h
      simp only [advance, hr]
      rw [← List.drop_drop, h]
      rfl

/-- What comes after a dot is on the right-hand side of a rule. -/
theorem mem_rhs_of_mem_after {c : Core} {i : SymbolId} (h : i ∈ c.after g) :
  ∃ r, g.rule? c.rule = some r ∧ i ∈ r.rhs
  := by
  rw [after] at h
  cases hr : g.rule? c.rule with
  | none =>
      rw [hr] at h
      cases h
  | some r =>
      simp only [hr] at h
      exact ⟨r, rfl, List.mem_of_mem_drop h⟩

end Core

theorem Item.remaining_eq (g : Grammar) (item : Item) :
  item.remaining g = item.core.after g
  := rfl

/-! ### What follows from a kernel -/

/-- The cores that follow from those of a kernel: when the next symbol is a nonterminal, its
rules with the dot at the front. -/
inductive Called (g : Grammar) (kernel : Core → Prop) : Core → Prop where
  | kernel {c : Core} (h : kernel c) : Called g kernel c
  | call {c : Core} {i : SymbolId} {rest : List SymbolId} {id : RuleId}
      (h : Called g kernel c) (hc : c.after g = i :: rest) (hid : id ∈ g.rulesFor i) :
      Called g kernel ⟨id, 0⟩

/-- The lookaheads that follow from those of a kernel: the rules that a core calls for expect
what begins the symbols behind the one they expand, and if these vanish what the core itself
expects. -/
inductive Awaited (g : Grammar) (kernel : Core → Prop) (looks : Core → SymbolId → Prop) :
    Core → SymbolId → Prop where
  | kernel {c : Core} {a : SymbolId} (h : looks c a) : Awaited g kernel looks c a
  | first {c : Core} {i a : SymbolId} {rest : List SymbolId} {id : RuleId}
      (h : Called g kernel c) (hc : c.after g = i :: rest) (hid : id ∈ g.rulesFor i)
      (ha : g.Begins rest a) : Awaited g kernel looks ⟨id, 0⟩ a
  | pass {c : Core} {i a : SymbolId} {rest : List SymbolId} {id : RuleId}
      (h : Awaited g kernel looks c a) (hc : c.after g = i :: rest) (hid : id ∈ g.rulesFor i)
      (hrest : g.Vanishes rest) : Awaited g kernel looks ⟨id, 0⟩ a

namespace ItemSet

variable {g : Grammar}

/-! ### One round -/

/-- An item calls for the rules of its next symbol. -/
theorem mem_predicted (hg : g.Proper) {item p : Item} :
  p ∈ item.predicted g ↔ ∃ i rest id, item.core.after g = i :: rest ∧ id ∈ g.rulesFor i
    ∧ p = ⟨⟨id, 0⟩, g.firstSets.ofSequence rest item.lookaheads⟩
  := by
  rw [← Item.remaining_eq]
  rw [Item.predicted]
  cases hafter : item.remaining g with
  | nil => simp
  | cons i rest =>
      by_cases hi : g.isNonterminal i = true
      · simp [hi, eq_comm]
      · have hnone : ∀ id, id ∉ g.rulesFor i := by
          intro id hid
          obtain ⟨r, hr, hlhs⟩ := Grammar.mem_rulesFor.mp hid
          apply hi
          apply hg.isNonterminal_iff.mpr ⟨id, r, hr, hlhs⟩
        simp [hi, hnone]

/-- A round adds the cores that the present ones call for. -/
theorem hasCore_expand (hg : g.Proper) {s : ItemSet} {c : Core} :
  (s.expand g).HasCore c ↔ s.HasCore c
    ∨ ∃ b i rest id, s.HasCore b ∧ b.after g = i :: rest ∧ id ∈ g.rulesFor i ∧ c = ⟨id, 0⟩
  := by
  rw [expand, hasCore_addMany]
  simp only [List.mem_flatMap, mem_predicted hg]
  constructor
  · rintro (h | ⟨p, ⟨item, hitem, i, rest, id, hafter, hid, rfl⟩, rfl⟩)
    · apply Or.inl h
    · apply Or.inr ⟨item.core, i, rest, id, ⟨item, hitem, rfl⟩, hafter, hid, rfl⟩
  · rintro (h | ⟨b, i, rest, id, ⟨item, hitem, rfl⟩, hafter, hid, rfl⟩)
    · apply Or.inl h
    · apply Or.inr ⟨_, ⟨item, hitem, i, rest, id, hafter, hid, rfl⟩, rfl⟩

/-- A round adds the lookaheads that the present cores call for. -/
theorem looks_expand (hg : g.Proper) {s : ItemSet} {c : Core} {a : SymbolId} :
  (s.expand g).Looks c a ↔ s.Looks c a
    ∨ ∃ b i rest id, b.after g = i :: rest ∧ id ∈ g.rulesFor i ∧ c = ⟨id, 0⟩
      ∧ (s.HasCore b ∧ g.Begins rest a ∨ s.Looks b a ∧ g.Vanishes rest)
  := by
  rw [expand, looks_addMany]
  simp only [List.mem_flatMap, mem_predicted hg]
  constructor
  · rintro (h | ⟨p, ⟨item, hitem, i, rest, id, hafter, hid, rfl⟩, rfl, ha⟩)
    · apply Or.inl h
    · refine Or.inr ⟨item.core, i, rest, id, hafter, hid, rfl, ?_⟩
      rcases hg.mem_ofSequence.mp ha with ha | ⟨hrest, ha⟩
      · apply Or.inl ⟨⟨item, hitem, rfl⟩, ha⟩
      · apply Or.inr ⟨⟨item, hitem, rfl, ha⟩, hrest⟩
  · rintro (h | ⟨b, i, rest, id, hafter, hid, rfl, h⟩)
    · apply Or.inl h
    · right
      rcases h with ⟨⟨item, hitem, rfl⟩, ha⟩ | ⟨⟨item, hitem, rfl, ha⟩, hrest⟩
      · refine ⟨_, ⟨item, hitem, i, rest, id, hafter, hid, rfl⟩, rfl, ?_⟩
        apply hg.mem_ofSequence.mpr (.inl ha)
      · refine ⟨_, ⟨item, hitem, i, rest, id, hafter, hid, rfl⟩, rfl, ?_⟩
        apply hg.mem_ofSequence.mpr (.inr ⟨hrest, ha⟩)

/-! ### Enough rounds -/

/-- The cores of a kernel, and all rules with the dot at the front. -/
def reachableCores (g : Grammar) (kernel : List Item) : List Core :=
  kernel.map Item.core ++ g.numberedRules.map fun p => ⟨p.1, 0⟩

/-- The symbols of the grammar, and the lookaheads of a kernel. -/
def reachableLookaheads (g : Grammar) (kernel : List Item) : List SymbolId :=
  g.symbolIds ++ kernel.flatMap fun item => item.lookaheads.members

theorem length_numberedRules :
  g.numberedRules.length = g.rules.size + 1
  := by simp [Grammar.numberedRules]

/-- A round stays within the cores that have the dot at the front and the symbols of the
grammar. -/
theorem within_expand (hg : g.Proper) {cores : List Core} {lookaheads : List SymbolId}
    (hcores : ∀ id r, g.rule? id = some r → ⟨id, 0⟩ ∈ cores)
    (hlook : ∀ a, a < g.symbolCount → a ∈ lookaheads) {s : ItemSet}
    (hs : s.Within cores lookaheads) :
  (s.expand g).Within cores lookaheads
  := by
  constructor
  · intro c hc
    rcases (hasCore_expand hg).mp hc with hc | ⟨b, i, rest, id, _, _, hid, rfl⟩
    · apply hs.1 c hc
    · obtain ⟨r, hr, -⟩ := Grammar.mem_rulesFor.mp hid
      apply hcores id r hr
  · intro c a ha
    rcases (looks_expand hg).mp ha with ha | ⟨b, i, rest, id, _, _, rfl, ha | ⟨ha, _⟩⟩
    · apply hs.2 c a ha
    · apply hlook a (Grammar.lt_symbolCount_of_begins ha.2).1
    · apply hs.2 b a ha

theorem within_ofList (kernel : List Item) :
  (ofList kernel).Within (reachableCores g kernel) (reachableLookaheads g kernel)
  := by
  constructor
  · intro c hc
    obtain ⟨item, hitem, rfl⟩ := hasCore_ofList.mp hc
    apply List.mem_append_left
    apply List.mem_map_of_mem hitem
  · intro c a ha
    obtain ⟨item, hitem, -, ha⟩ := looks_ofList.mp ha
    apply List.mem_append_right
    apply List.mem_flatMap.mpr ⟨item, hitem, ha⟩

theorem zero_mem_reachableCores (kernel : List Item) {id : RuleId} {r : Rule}
    (hr : g.rule? id = some r) :
  ⟨id, 0⟩ ∈ reachableCores g kernel
  := by
  apply List.mem_append_right
  apply List.mem_map.mpr ⟨(id, r), Grammar.mem_numberedRules.mpr hr, rfl⟩

theorem mem_reachableLookaheads (kernel : List Item) {a : SymbolId} (ha : a < g.symbolCount) :
  a ∈ reachableLookaheads g kernel
  := by
  apply List.mem_append_left
  apply List.mem_range.mpr ha

/-- A set that changes in a round has more facts afterwards. -/
theorem card_facts_lt (hg : g.Proper) {s : ItemSet} (hne : s.expand g ≠ s) :
  s.facts.card < (s.expand g).facts.card
  := by
  apply card_facts_lt_of_ne
  · intro c hc
    apply (hasCore_expand hg).mpr (.inl hc)
  · intro c a ha
    apply (looks_expand hg).mpr (.inl ha)
  · apply hne

/-- A further round adds nothing to the closure. -/
theorem expand_closure (hg : g.Proper) (kernel : List Item) :
  (closure g kernel).expand g = closure g kernel
  := by
  apply stabilize_fixed
    (I := Within (reachableCores g kernel) (reachableLookaheads g kernel))
    (fun s hs => within_expand hg (fun _ _ => zero_mem_reachableCores kernel)
      (fun _ => mem_reachableLookaheads kernel) hs)
    (fun s => s.facts.card) (fun s _ hne => card_facts_lt hg hne)
    (fun s hs => Finset.card_le_card hs.facts_subset) (within_ofList kernel)
  apply Nat.le_trans (card_allFacts_le _ _)
  have hcores : (reachableCores g kernel).length = kernel.length + g.rules.size + 1 := by
    simp [reachableCores, length_numberedRules, Nat.add_assoc]
  have hlook : (reachableLookaheads g kernel).length
      = g.symbolCount + (kernel.flatMap fun item => item.lookaheads.members).length := by
    simp [reachableLookaheads, Grammar.symbolIds]
  rw [hcores, hlook, maxRounds]
  omega

/-! ### Exactness -/

variable {kernel : List Item}

/-- A core of a kernel. -/
def KernelCore (kernel : List Item) (c : Core) : Prop :=
  ∃ item ∈ kernel, item.core = c

/-- A lookahead of a core of a kernel. -/
def KernelLook (kernel : List Item) (c : Core) (a : SymbolId) : Prop :=
  ∃ item ∈ kernel, item.core = c ∧ a ∈ item.lookaheads

/-- Rounds add only what follows from the kernel. -/
theorem closure_sound (hg : g.Proper) :
  (∀ c, (closure g kernel).HasCore c → Called g (KernelCore kernel) c)
    ∧ ∀ c a, (closure g kernel).Looks c a →
      Awaited g (KernelCore kernel) (KernelLook kernel) c a
  := by
  apply stabilize_preserves (I := fun s : ItemSet =>
    (∀ c, s.HasCore c → Called g (KernelCore kernel) c)
    ∧ ∀ c a, s.Looks c a → Awaited g (KernelCore kernel) (KernelLook kernel) c a)
  · rintro s ⟨hcore, hlook⟩
    constructor
    · intro c hc
      rcases (hasCore_expand hg).mp hc with hc | ⟨b, i, rest, id, hb, hafter, hid, rfl⟩
      · apply hcore c hc
      · apply Called.call (hcore b hb) hafter hid
    · intro c a hc
      rcases (looks_expand hg).mp hc with hc | ⟨b, i, rest, id, hafter, hid, rfl, h⟩
      · apply hlook c a hc
      · rcases h with ⟨hb, ha⟩ | ⟨ha, hrest⟩
        · apply Awaited.first (hcore b hb) hafter hid ha
        · apply Awaited.pass (hlook b a ha) hafter hid hrest
  · constructor
    · intro c hc
      apply Called.kernel (hasCore_ofList.mp hc)
    · intro c a ha
      apply Awaited.kernel (looks_ofList.mp ha)

theorem closure_extends (hg : g.Proper) :
  (∀ c, (ofList kernel).HasCore c → (closure g kernel).HasCore c)
    ∧ ∀ c a, (ofList kernel).Looks c a → (closure g kernel).Looks c a
  := by
  apply stabilize_preserves (I := fun s : ItemSet =>
    (∀ c, (ofList kernel).HasCore c → s.HasCore c)
    ∧ ∀ c a, (ofList kernel).Looks c a → s.Looks c a)
  · rintro s ⟨hcore, hlook⟩
    constructor
    · intro c hc
      apply (hasCore_expand hg).mpr (.inl (hcore c hc))
    · intro c a ha
      apply (looks_expand hg).mpr (.inl (hlook c a ha))
  · apply And.intro (fun _ h => h) (fun _ _ h => h)

/-- The cores of a closure are those that follow from the kernel. -/
theorem hasCore_closure (hg : g.Proper) {c : Core} :
  (closure g kernel).HasCore c ↔ Called g (KernelCore kernel) c
  := by
  constructor
  · apply (closure_sound hg).1
  · intro h
    induction h with
    | kernel h => apply (closure_extends hg).1 _ (hasCore_ofList.mpr h)
    | call _ hc hid ih =>
        rw [← expand_closure hg]
        apply (hasCore_expand hg).mpr (.inr ⟨_, _, _, _, ih, hc, hid, rfl⟩)

/-- The lookaheads of a closure are those that follow from the kernel. -/
theorem looks_closure (hg : g.Proper) {c : Core} {a : SymbolId} :
  (closure g kernel).Looks c a ↔ Awaited g (KernelCore kernel) (KernelLook kernel) c a
  := by
  constructor
  · apply (closure_sound hg).2
  · intro h
    induction h with
    | kernel h => apply (closure_extends hg).2 _ _ (looks_ofList.mpr h)
    | first h hc hid ha =>
        rw [← expand_closure hg]
        have hcore := (hasCore_closure hg).mpr h
        apply (looks_expand hg).mpr (.inr ⟨_, _, _, _, hc, hid, rfl, .inl ⟨hcore, ha⟩⟩)
    | pass _ hc hid hrest ih =>
        rw [← expand_closure hg]
        apply (looks_expand hg).mpr (.inr ⟨_, _, _, _, hc, hid, rfl, .inr ⟨ih, hrest⟩⟩)

end ItemSet

end ShiftReduce
