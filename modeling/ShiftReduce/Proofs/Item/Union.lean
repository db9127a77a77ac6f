import ShiftReduce.Proofs.Item.Closure

/-!
# Closures of unions

What a kernel calls for is called for by one of its cores, and what it expects is expected by
one of its items.  So the closure of the items of several kernels has the cores and the
lookaheads of the closures of these kernels, and no others (`ItemSet.IsUnion.closure`).  What a
closure calls for it has already (`ItemSet.closed_closure`), and so has a union of such sets
(`ItemSet.IsUnion.closed`).
-/

namespace ShiftReduce

variable {g : Grammar}

/-! ### What follows from several kernels -/

section

variable {ι : Type} {kernels : ι → Core → Prop} {looks : ι → Core → SymbolId → Prop} {c : Core}

theorem Called.mono {kernel kernel' : Core → Prop} (hsub : ∀ c, kernel c → kernel' c)
    (h : Called g kernel c) :
  Called g kernel' c
  := by
  induction h with
  | kernel h => apply Called.kernel (hsub _ h)
  | call _ hc hid ih => apply Called.call ih hc hid

/-- The cores that follow from several kernels follow from one of them. -/
theorem called_exists_iff :
  Called g (fun c => ∃ j, kernels j c) c ↔ ∃ j, Called g (kernels j) c
  := by
  constructor
  · intro h
    induction h with
    | kernel h =>
        obtain ⟨j, h⟩ := h
        exact ⟨j, .kernel h⟩
    | call _ hc hid ih =>
        obtain ⟨j, ih⟩ := ih
        exact ⟨j, .call ih hc hid⟩
  · rintro ⟨j, h⟩
    apply h.mono
    intro c hc
    exact ⟨j, hc⟩

theorem Awaited.mono {kernel kernel' : Core → Prop} {expects expects' : Core → SymbolId → Prop}
    (hcores : ∀ c, kernel c → kernel' c) (hlooks : ∀ c a, expects c a → expects' c a)
    {a : SymbolId} (h : Awaited g kernel expects c a) :
  Awaited g kernel' expects' c a
  := by
  induction h with
  | kernel h => apply Awaited.kernel (hlooks _ _ h)
  | first h hc hid ha => apply Awaited.first (h.mono hcores) hc hid ha
  | pass _ hc hid hrest ih => apply Awaited.pass ih hc hid hrest

/-- The lookaheads that follow from several kernels follow from one of them. -/
theorem awaited_exists_iff {a : SymbolId} :
  Awaited g (fun c => ∃ j, kernels j c) (fun c a => ∃ j, looks j c a) c a
    ↔ ∃ j, Awaited g (kernels j) (looks j) c a
  := by
  constructor
  · intro h
    induction h with
    | kernel h =>
        obtain ⟨j, h⟩ := h
        exact ⟨j, .kernel h⟩
    | first h hc hid ha =>
        obtain ⟨j, h⟩ := called_exists_iff.mp h
        exact ⟨j, .first h hc hid ha⟩
    | pass _ hc hid hrest ih =>
        obtain ⟨j, ih⟩ := ih
        exact ⟨j, .pass ih hc hid hrest⟩
  · rintro ⟨j, h⟩
    apply h.mono
    · intro c hc
      exact ⟨j, hc⟩
    · intro c a ha
      exact ⟨j, ha⟩

end

/-! ### What follows from what follows -/

section

variable {kernel : Core → Prop} {looks : Core → SymbolId → Prop} {c : Core}

/-- What follows from the cores that follow from a kernel follows from the kernel. -/
theorem called_called_iff :
  Called g (Called g kernel) c ↔ Called g kernel c
  := by
  constructor
  · intro h
    induction h with
    | kernel h => apply h
    | call _ hc hid ih => apply Called.call ih hc hid
  · apply Called.kernel

theorem awaited_awaited_iff {a : SymbolId} :
  Awaited g (Called g kernel) (Awaited g kernel looks) c a ↔ Awaited g kernel looks c a
  := by
  constructor
  · intro h
    induction h with
    | kernel h => apply h
    | first h hc hid ha => apply Awaited.first (called_called_iff.mp h) hc hid ha
    | pass _ hc hid hrest ih => apply Awaited.pass ih hc hid hrest
  · apply Awaited.kernel

end

namespace ItemSet

/-! ### Kernels that make the same set -/

theorem kernelCore_eq (l : List Item) :
  KernelCore l = (ofList l).HasCore
  := by
  funext c
  apply propext hasCore_ofList.symm

theorem kernelLook_eq (l : List Item) :
  KernelLook l = (ofList l).Looks
  := by
  funext c a
  apply propext looks_ofList.symm

theorem ofList_items (s : ItemSet) :
  ofList s.items = s
  := by
  apply ext_facts
  · intro c
    apply hasCore_ofList
  · intro c a
    apply looks_ofList

/-- The closure of a kernel depends only on the set that its items make. -/
theorem closure_congr (hg : g.Proper) {kernel kernel' : List Item}
    (h : ofList kernel = ofList kernel') :
  closure g kernel = closure g kernel'
  := by
  apply ext_facts
  · intro c
    rw [hasCore_closure hg, hasCore_closure hg, kernelCore_eq, kernelCore_eq, h]
  · intro c a
    rw [looks_closure hg, looks_closure hg, kernelCore_eq, kernelLook_eq, h, ← kernelCore_eq,
      ← kernelLook_eq]

/-- The order of the items of a kernel does not matter. -/
theorem ofList_perm {l l' : List Item} (h : l.Perm l') :
  ofList l = ofList l'
  := by
  apply ext_facts
  · intro c
    rw [hasCore_ofList, hasCore_ofList]
    simp only [h.mem_iff]
  · intro c a
    rw [looks_ofList, looks_ofList]
    simp only [h.mem_iff]

/-- Items with the core of another one have together its lookaheads. -/
structure Splits (item : Item) (parts : List Item) : Prop where
  ne_nil : parts ≠ []
  core : ∀ part ∈ parts, part.core = item.core
  lookaheads : ∀ a, a ∈ item.lookaheads ↔ ∃ part ∈ parts, a ∈ part.lookaheads

/-- In place of an item there may be several that split it. -/
theorem ofList_split {item : Item} {parts : List Item} (h : Splits item parts)
    (before after : List Item) :
  ofList (before ++ item :: after) = ofList (before ++ parts ++ after)
  := by
  have hcore : ∀ c, item.core = c ↔ ∃ part ∈ parts, part.core = c := by
    intro c
    constructor
    · intro hc
      obtain ⟨part, hpart⟩ := List.exists_mem_of_ne_nil parts h.ne_nil
      exact ⟨part, hpart, (h.core part hpart).trans hc⟩
    · rintro ⟨part, hpart, rfl⟩
      rw [h.core part hpart]
  have hlook : ∀ c a, item.core = c ∧ a ∈ item.lookaheads
      ↔ ∃ part ∈ parts, part.core = c ∧ a ∈ part.lookaheads := by
    intro c a
    rw [h.lookaheads]
    constructor
    · rintro ⟨hc, part, hpart, ha⟩
      exact ⟨part, hpart, (h.core part hpart).trans hc, ha⟩
    · rintro ⟨part, hpart, hc, ha⟩
      exact ⟨(h.core part hpart).symm.trans hc, part, hpart, ha⟩
  apply ext_facts
  · intro c
    simp only [hasCore_ofList, List.mem_append, List.mem_cons, or_and_right, exists_or,
      exists_eq_left, hcore, or_assoc]
  · intro c a
    simp only [looks_ofList, List.mem_append, List.mem_cons, or_and_right, exists_or,
      exists_eq_left, hlook, or_assoc]

/-! ### Unions -/

/-- A set has the cores and the lookaheads of the sets of a family, and no others. -/
structure IsUnion {ι : Type} (s : ItemSet) (family : ι → ItemSet) : Prop where
  hasCore : ∀ c, s.HasCore c ↔ ∃ j, (family j).HasCore c
  looks : ∀ c a, s.Looks c a ↔ ∃ j, (family j).Looks c a

variable {ι : Type} {family : ι → ItemSet}

theorem IsUnion.unique {s t : ItemSet} (hs : s.IsUnion family) (ht : t.IsUnion family) :
  s = t
  := by
  apply ext_facts
  · intro c
    rw [hs.hasCore, ht.hasCore]
  · intro c a
    rw [hs.looks, ht.looks]

/-- The closure of a union is the union of the closures. -/
theorem IsUnion.closure (hg : g.Proper) {kernel : List Item} {kernels : ι → List Item}
    (h : (ofList kernel).IsUnion fun j => ofList (kernels j)) :
  (closure g kernel).IsUnion fun j => ItemSet.closure g (kernels j)
  := by
  have hcores : KernelCore kernel = fun c => ∃ j, KernelCore (kernels j) c := by
    funext c
    simp only [kernelCore_eq, h.hasCore]
  have hlooks : KernelLook kernel = fun c a => ∃ j, KernelLook (kernels j) c a := by
    funext c a
    simp only [kernelLook_eq, h.looks]
  constructor
  · intro c
    simp only [hasCore_closure hg, hcores, called_exists_iff]
  · intro c a
    simp only [looks_closure hg, hcores, hlooks, awaited_exists_iff]

/-- The items of two kernels in a row make the union of the sets that these make. -/
theorem isUnion_append (l l' : List Item) :
  (ofList (l ++ l')).IsUnion fun second : Bool => ofList (bif second then l' else l)
  := by
  constructor
  · intro c
    simp only [Bool.exists_bool, cond_false, cond_true, hasCore_ofList, List.mem_append,
      or_and_right, exists_or]
  · intro c a
    simp only [Bool.exists_bool, cond_false, cond_true, looks_ofList, List.mem_append,
      or_and_right, exists_or]

/-- The closure of two kernels in a row has the cores of both closures. -/
theorem hasCore_closure_append (hg : g.Proper) {l l' : List Item} {c : Core} :
  (ItemSet.closure g (l ++ l')).HasCore c
    ↔ (ItemSet.closure g l).HasCore c ∨ (ItemSet.closure g l').HasCore c
  := by
  have hunion := (isUnion_append l l').closure hg
  simpa only [Bool.exists_bool, cond_false, cond_true] using hunion.hasCore c

theorem looks_closure_append (hg : g.Proper) {l l' : List Item} {c : Core} {a : SymbolId} :
  (ItemSet.closure g (l ++ l')).Looks c a
    ↔ (ItemSet.closure g l).Looks c a ∨ (ItemSet.closure g l').Looks c a
  := by
  have hunion := (isUnion_append l l').closure hg
  simpa only [Bool.exists_bool, cond_false, cond_true] using hunion.looks c a

/-! ### Closed sets -/

/-- The items of a set call only for what it has. -/
def Closed (g : Grammar) (s : ItemSet) : Prop :=
  closure g s.items = s

/-- A closure is closed. -/
theorem closed_closure (hg : g.Proper) (kernel : List Item) :
  Closed g (closure g kernel)
  := by
  have hcores : KernelCore (closure g kernel).items = Called g (KernelCore kernel) := by
    funext c
    apply propext (hasCore_closure hg)
  have hlooks : KernelLook (closure g kernel).items
      = Awaited g (KernelCore kernel) (KernelLook kernel) := by
    funext c a
    apply propext (looks_closure hg)
  apply ext_facts
  · intro c
    rw [hasCore_closure hg, hasCore_closure hg, hcores, called_called_iff]
  · intro c a
    rw [looks_closure hg, looks_closure hg, hcores, hlooks, awaited_awaited_iff]

/-- A union of closed sets is closed. -/
theorem IsUnion.closed (hg : g.Proper) {s : ItemSet} (h : s.IsUnion family)
    (hclosed : ∀ j, Closed g (family j)) :
  Closed g s
  := by
  have hitems : (ofList s.items).IsUnion fun j => ofList (family j).items := by
    simpa only [ofList_items] using h
  have hclosure := hitems.closure hg
  simp only [Closed] at hclosed
  simp only [hclosed] at hclosure
  apply hclosure.unique h

end ItemSet

end ShiftReduce
