import Mathlib.Data.Finset.Card
import Mathlib.Data.List.ProdSigma
import Mathlib.Data.List.Sort
import ShiftReduce.Item.Set

/-!
# What a set of items says

A set of items says which cores it has and which lookaheads go with them.  These facts
determine the set (`ItemSet.ext_facts`), there are finitely many of them, and every operation
is known by what it does to them.
-/

namespace ShiftReduce

instance : Std.Irrefl fun a b : Core => a < b :=
  ⟨Core.lt_irrefl⟩

instance : Std.Antisymm fun a b : Core => a < b :=
  ⟨fun a _ hab hba => absurd (Core.lt_trans hab hba) (Core.lt_irrefl a)⟩

instance : Std.Irrefl fun a b : Item => a.core < b.core :=
  ⟨fun a => Core.lt_irrefl a.core⟩

instance : Std.Antisymm fun a b : Item => a.core < b.core :=
  ⟨fun a _ hab hba => absurd (Core.lt_trans hab hba) (Core.lt_irrefl a.core)⟩

namespace ItemSet

/-- Some item of the set has the core. -/
def HasCore (s : ItemSet) (c : Core) : Prop :=
  ∃ item ∈ s.items, item.core = c

/-- The item with the core has the lookahead. -/
def Looks (s : ItemSet) (c : Core) (a : SymbolId) : Prop :=
  ∃ item ∈ s.items, item.core = c ∧ a ∈ item.lookaheads

theorem Looks.hasCore {s : ItemSet} {c : Core} {a : SymbolId} (h : s.Looks c a) :
  s.HasCore c
  := by
  obtain ⟨item, hitem, hc, -⟩ := h
  exact ⟨item, hitem, hc⟩

/-- Items of one set with the same core are the same. -/
theorem eq_of_core_eq {s : ItemSet} {x y : Item} (hx : x ∈ s.items) (hy : y ∈ s.items)
    (h : x.core = y.core) :
  x = y
  := by
  have hne : ∀ {a b : Item}, a.core < b.core → a.core ≠ b.core := by
    intro a b hlt heq
    rw [heq] at hlt
    apply Core.lt_irrefl _ hlt
  have hall := List.Pairwise.forall_of_forall_of_flip
    (R := fun a b : Item => a.core = b.core → a = b) (fun _ _ _ => rfl)
    (s.ascending.imp fun hlt heq => absurd heq (hne hlt))
    (s.ascending.imp fun hlt heq => absurd heq.symm (hne hlt))
  apply hall hx hy h

theorem looks_core_iff {s : ItemSet} {item : Item} (hitem : item ∈ s.items) {a : SymbolId} :
  s.Looks item.core a ↔ a ∈ item.lookaheads
  := by
  constructor
  · rintro ⟨x, hx, hcore, ha⟩
    rw [← eq_of_core_eq hx hitem hcore]
    apply ha
  · intro ha
    exact ⟨item, hitem, rfl, ha⟩

/-- A set of items is determined by its cores and their lookaheads. -/
theorem ext_facts {s t : ItemSet} (hcore : ∀ c, s.HasCore c ↔ t.HasCore c)
    (hlook : ∀ c a, s.Looks c a ↔ t.Looks c a) :
  s = t
  := by
  have hsub : ∀ {s t : ItemSet}, (∀ c, s.HasCore c ↔ t.HasCore c) →
      (∀ c a, s.Looks c a ↔ t.Looks c a) → ∀ item ∈ s.items, item ∈ t.items := by
    intro s t hcore hlook item hitem
    obtain ⟨other, hother, hc⟩ := (hcore item.core).mp ⟨item, hitem, rfl⟩
    have hl : item.lookaheads = other.lookaheads := by
      ext a
      rw [← looks_core_iff hitem, ← looks_core_iff hother, hc, hlook]
    obtain ⟨c, l⟩ := item
    obtain ⟨c', l'⟩ := other
    cases hc
    cases hl
    apply hother
  obtain ⟨l, hl⟩ := s
  obtain ⟨l', hl'⟩ := t
  have hitems : l = l' := by
    apply hl.eq_of_mem_iff hl'
    intro item
    constructor
    · apply hsub hcore hlook
    · apply hsub (fun c => (hcore c).symm) (fun c a => (hlook c a).symm)
  subst hitems
  rfl

/-- Two sets have the same cores as lists if they have the same cores. -/
theorem sameCores_iff {s t : ItemSet} :
  s.sameCores t = true ↔ ∀ c, s.HasCore c ↔ t.HasCore c
  := by
  have hmem : ∀ (s : ItemSet) c, c ∈ s.cores ↔ s.HasCore c := by
    intro s c
    simp [cores, HasCore]
  have hasc : ∀ s : ItemSet, s.cores.Pairwise (· < ·) := by
    intro s
    rw [cores, List.pairwise_map]
    apply s.ascending
  rw [sameCores]
  rw [decide_eq_true_iff]
  constructor
  · intro h c
    rw [← hmem, ← hmem, h]
  · intro h
    apply (hasc s).eq_of_mem_iff (hasc t)
    intro c
    rw [hmem, hmem, h]

theorem sameCores_iff_cores_eq {s t : ItemSet} :
  s.sameCores t = true ↔ s.cores = t.cores
  := decide_eq_true_iff

theorem sameCores_refl (s : ItemSet) :
  s.sameCores s = true
  := sameCores_iff_cores_eq.mpr rfl

theorem sameCores_symm {s t : ItemSet} (h : s.sameCores t = true) :
  t.sameCores s = true
  := by
  rw [sameCores_iff_cores_eq] at h ⊢
  rw [h]

theorem sameCores_trans {s t u : ItemSet} (h : s.sameCores t = true)
    (h' : t.sameCores u = true) :
  s.sameCores u = true
  := by
  rw [sameCores_iff_cores_eq] at h h' ⊢
  rw [h, h']

theorem hasCore_congr {s t : ItemSet} (h : s.sameCores t = true) :
  s.HasCore = t.HasCore
  := by
  funext c
  apply propext (sameCores_iff.mp h c)

/-- Two sets have the same cores as lists if items in the same places have the same core. -/
theorem cores_eq_iff {s t : ItemSet} :
  s.cores = t.cores ↔ List.Forall₂ (fun x y => x.core = y.core) s.items t.items
  := by
  rw [← List.forall₂_map_left_iff (f := Item.core) (R := fun c (y : Item) => c = y.core),
    ← List.forall₂_map_right_iff (f := Item.core) (R := fun c c' : Core => c = c'),
    List.forall₂_eq_eq_eq]
  exact Iff.rfl

/-- Items in the same places of two sets with the same cores have the same core. -/
theorem forall₂_items {s t : ItemSet} (h : s.sameCores t = true) :
  List.Forall₂ (fun x y => x.core = y.core) s.items t.items
  := cores_eq_iff.mp (sameCores_iff_cores_eq.mp h)

/-- One set is a subset of another one if they have the same cores and it has no lookaheads that
the other one does not have. -/
theorem isSubset_iff {s t : ItemSet} :
  s.isSubset t = true ↔ s.sameCores t = true ∧ ∀ c a, s.Looks c a → t.Looks c a
  := by
  rw [isSubset, Bool.and_eq_true]
  apply and_congr_right
  intro h
  obtain ⟨hlength, hcore⟩ := List.forall₂_iff_zip.mp (forall₂_items h)
  simp only [List.all_eq_true, SymbolSet.isSubset_iff]
  constructor
  · rintro hall c a ⟨x, hx, rfl, ha⟩
    obtain ⟨n, hn, rfl⟩ := List.mem_iff_getElem.mp hx
    have hlt : n < (s.items.zip t.items).length := by simpa [← hlength] using hn
    have hmem := List.getElem_mem hlt
    rw [List.getElem_zip] at hmem
    exact ⟨_, (List.of_mem_zip hmem).2, (hcore hmem).symm, hall _ hmem a ha⟩
  · rintro hlook ⟨x, y⟩ hmem a ha
    obtain ⟨hx, hy⟩ := List.of_mem_zip hmem
    apply (looks_core_iff hy).mp
    rw [← hcore hmem]
    apply hlook _ _ ((looks_core_iff hx).mpr ha)

/-! ### Operations -/

theorem hasCore_insertItem {item : Item} {l : List Item} {c : Core} :
  (∃ x ∈ insertItem item l, x.core = c) ↔ c = item.core ∨ ∃ x ∈ l, x.core = c
  := by
  induction l with
  | nil => simp [insertItem, eq_comm]
  | cons first rest ih =>
      rw [insertItem]
      split
      · simp [eq_comm]
      · split
        · rename_i hcore
          simp only [List.exists_mem_cons_iff, hcore]
          constructor
          · rintro (h | h)
            · apply Or.inl h.symm
            · apply Or.inr (.inr h)
          · rintro (h | h | h)
            · apply Or.inl h.symm
            · apply Or.inl h
            · apply Or.inr h
        · simp only [List.exists_mem_cons_iff, ih, or_left_comm]

theorem looks_insertItem {item : Item} {l : List Item} {c : Core} {a : SymbolId} :
  (∃ x ∈ insertItem item l, x.core = c ∧ a ∈ x.lookaheads)
    ↔ (c = item.core ∧ a ∈ item.lookaheads) ∨ ∃ x ∈ l, x.core = c ∧ a ∈ x.lookaheads
  := by
  induction l with
  | nil => simp [insertItem, eq_comm]
  | cons first rest ih =>
      rw [insertItem]
      split
      · simp [eq_comm]
      · split
        · rename_i hcore
          simp only [List.exists_mem_cons_iff, SymbolSet.mem_union, hcore, eq_comm (a := c)]
          constructor
          · rintro (⟨hc, h | h⟩ | h)
            · apply Or.inr (.inl ⟨hc, h⟩)
            · apply Or.inl ⟨hc, h⟩
            · apply Or.inr (.inr h)
          · rintro (⟨hc, h⟩ | ⟨hc, h⟩ | h)
            · apply Or.inl ⟨hc, .inr h⟩
            · apply Or.inl ⟨hc, .inl h⟩
            · apply Or.inr h
        · simp only [List.exists_mem_cons_iff, ih, or_left_comm]

theorem hasCore_add {s : ItemSet} {item : Item} {c : Core} :
  (s.add item).HasCore c ↔ c = item.core ∨ s.HasCore c
  := hasCore_insertItem

theorem looks_add {s : ItemSet} {item : Item} {c : Core} {a : SymbolId} :
  (s.add item).Looks c a ↔ (c = item.core ∧ a ∈ item.lookaheads) ∨ s.Looks c a
  := looks_insertItem

theorem hasCore_addMany {s : ItemSet} {l : List Item} {c : Core} :
  (s.addMany l).HasCore c ↔ s.HasCore c ∨ ∃ item ∈ l, item.core = c
  := by
  rw [addMany]
  induction l generalizing s with
  | nil => simp
  | cons item rest ih =>
      rw [List.foldl_cons, ih, hasCore_add, List.exists_mem_cons_iff]
      rw [or_comm (a := c = _), or_assoc, eq_comm (a := c)]

theorem looks_addMany {s : ItemSet} {l : List Item} {c : Core} {a : SymbolId} :
  (s.addMany l).Looks c a ↔ s.Looks c a ∨ ∃ item ∈ l, item.core = c ∧ a ∈ item.lookaheads
  := by
  rw [addMany]
  induction l generalizing s with
  | nil => simp
  | cons item rest ih =>
      rw [List.foldl_cons, ih, looks_add, List.exists_mem_cons_iff]
      rw [or_comm (a := c = _ ∧ _), or_assoc, eq_comm (a := c)]

theorem not_hasCore_empty (c : Core) :
  ¬ HasCore ∅ c
  := by
  rintro ⟨item, hitem, -⟩
  cases hitem

theorem hasCore_ofList {l : List Item} {c : Core} :
  (ofList l).HasCore c ↔ ∃ item ∈ l, item.core = c
  := by
  rw [ofList, hasCore_addMany]
  simp [not_hasCore_empty]

theorem looks_ofList {l : List Item} {c : Core} {a : SymbolId} :
  (ofList l).Looks c a ↔ ∃ item ∈ l, item.core = c ∧ a ∈ item.lookaheads
  := by
  rw [ofList, looks_addMany]
  constructor
  · rintro (h | h)
    · cases not_hasCore_empty c h.hasCore
    · apply h
  · apply Or.inr

/-- An item is in a set if its core is there with just its lookaheads. -/
theorem mem_items_iff {s : ItemSet} {item : Item} :
  item ∈ s.items ↔ s.HasCore item.core ∧ ∀ a, s.Looks item.core a ↔ a ∈ item.lookaheads
  := by
  constructor
  · intro hitem
    exact ⟨⟨item, hitem, rfl⟩, fun a => looks_core_iff hitem⟩
  · rintro ⟨⟨other, hother, hcore⟩, hlook⟩
    have hlookaheads : other.lookaheads = item.lookaheads := by
      ext a
      rw [← looks_core_iff hother, hcore, hlook]
    obtain ⟨c, l⟩ := item
    obtain ⟨c', l'⟩ := other
    cases hcore
    cases hlookaheads
    apply hother

/-- Adding the items of a list depends only on the set that they make. -/
theorem addMany_congr {l l' : List Item} (h : ofList l = ofList l') (s : ItemSet) :
  s.addMany l = s.addMany l'
  := by
  apply ext_facts
  · intro c
    rw [hasCore_addMany, hasCore_addMany, ← hasCore_ofList, ← hasCore_ofList, h]
  · intro c a
    rw [looks_addMany, looks_addMany, ← looks_ofList, ← looks_ofList, h]

/-- Sets with the same cores are merged, and the lookaheads are those of both. -/
theorem merge_spec {s t : ItemSet} (h : s.sameCores t = true) :
  ∃ u, s.merge t = .ok u ∧ (∀ c, u.HasCore c ↔ s.HasCore c)
    ∧ ∀ c a, u.Looks c a ↔ s.Looks c a ∨ t.Looks c a
  := by
  refine ⟨s.addMany t.items, ?_, ?_, ?_⟩
  · rw [merge, if_pos h]
  · intro c
    rw [hasCore_addMany]
    constructor
    · rintro (hs | ht)
      · apply hs
      · apply (sameCores_iff.mp h c).mpr ht
    · apply Or.inl
  · intro c a
    apply looks_addMany

/-! ### Finitely many facts -/

/-- The facts of a set: its cores, and its cores with their lookaheads. -/
def facts (s : ItemSet) : Finset (Core × Option SymbolId) :=
  (s.items.flatMap fun item =>
    (item.core, none) :: item.lookaheads.members.map fun a => (item.core, some a)).toFinset

theorem mem_facts_none {s : ItemSet} {c : Core} :
  (c, none) ∈ s.facts ↔ s.HasCore c
  := by simp [facts, HasCore, eq_comm]

theorem mem_facts_some {s : ItemSet} {c : Core} {a : SymbolId} :
  (c, some a) ∈ s.facts ↔ s.Looks c a
  := by simp [facts, Looks, SymbolSet.mem_def, and_comm, eq_comm]

/-- A set of items is determined by its facts. -/
theorem facts_injective :
  Function.Injective facts
  := by
  intro s t h
  apply ext_facts
  · intro c
    rw [← mem_facts_none, ← mem_facts_none, h]
  · intro c a
    rw [← mem_facts_some, ← mem_facts_some, h]

/-- A set has more facts than another one whose cores and lookaheads it has, and from which
it differs. -/
theorem card_facts_lt_of_ne {s t : ItemSet} (hcore : ∀ c, s.HasCore c → t.HasCore c)
    (hlook : ∀ c a, s.Looks c a → t.Looks c a) (hne : t ≠ s) :
  s.facts.card < t.facts.card
  := by
  apply Finset.card_lt_card
  apply Finset.ssubset_iff_subset_ne.mpr
  constructor
  · rintro ⟨c, a?⟩ hfact
    cases a? with
    | none =>
        rw [mem_facts_none] at hfact ⊢
        apply hcore c hfact
    | some a =>
        rw [mem_facts_some] at hfact ⊢
        apply hlook c a hfact
  · intro heq
    apply hne
    apply facts_injective heq.symm

/-- All facts about the given cores and lookaheads. -/
def allFacts (cores : List Core) (lookaheads : List SymbolId) :
    Finset (Core × Option SymbolId) :=
  (cores ×ˢ (none :: lookaheads.map some)).toFinset

/-- The cores and the lookaheads of a set are among the given ones. -/
def Within (cores : List Core) (lookaheads : List SymbolId) (s : ItemSet) : Prop :=
  (∀ c, s.HasCore c → c ∈ cores) ∧ ∀ c a, s.Looks c a → a ∈ lookaheads

theorem Within.facts_subset {cores : List Core} {lookaheads : List SymbolId} {s : ItemSet}
    (h : s.Within cores lookaheads) :
  s.facts ⊆ allFacts cores lookaheads
  := by
  rintro ⟨c, a?⟩ hfact
  rw [allFacts, List.mem_toFinset, List.mem_product]
  cases a? with
  | none =>
      rw [mem_facts_none] at hfact
      simpa using h.1 c hfact
  | some a =>
      rw [mem_facts_some] at hfact
      simpa using And.intro (h.1 c hfact.hasCore) (h.2 c a hfact)

theorem card_allFacts_le (cores : List Core) (lookaheads : List SymbolId) :
  (allFacts cores lookaheads).card ≤ cores.length * (lookaheads.length + 1)
  := by
  apply Nat.le_trans (List.toFinset_card_le _)
  simp [List.length_product]

end ItemSet

end ShiftReduce
