import ShiftReduce.Proofs.Item.Passes

/-!
# The items of a closure

When the passes over a kernel have ended, the items gathered are sorted by their cores.  What
comes out has exactly one item for each core that follows from the kernel, in ascending order,
and its lookaheads are those that follow from the kernel (`Gathering.sorted_least`).
-/

namespace ShiftReduce

namespace Gathering

/-- The items in the order of their cores. -/
def sorted (m : Gathering) : List Item :=
  m.items.mergeSort fun a b => ¬ b.core < a.core

theorem mem_sorted {m : Gathering} {item : Item} :
  item ∈ m.sorted ↔ item ∈ m.items
  := List.mem_mergeSort

/-- No core comes twice, so each item has a smaller core than those behind it. -/
theorem pairwise_sorted (m : Gathering) :
  m.sorted.Pairwise fun a b => a.core < b.core
  := by
  have htrans : ∀ a b c : Item, decide (¬ b.core < a.core) = true →
      decide (¬ c.core < b.core) = true → decide (¬ c.core < a.core) = true := by
    simp only [decide_eq_true_eq, Core.lt_def]
    omega
  have htotal : ∀ a b : Item,
      (decide (¬ b.core < a.core) || decide (¬ a.core < b.core)) = true := by
    simp only [Bool.or_eq_true, decide_eq_true_eq, Core.lt_def]
    omega
  have hle : m.sorted.Pairwise fun a b => ¬ b.core < a.core := by
    apply (List.pairwise_mergeSort htrans htotal m.items).imp
    intro a b hab
    apply of_decide_eq_true hab
  have hne : m.sorted.Pairwise fun a b => a.core ≠ b.core := by
    apply (List.mergeSort_perm m.items _).symm.pairwise _ fun hab => Ne.symm hab
    rw [← List.pairwise_map (f := Item.core) (R := (· ≠ ·)), items, List.map_map]
    apply m.distinct
  apply (hle.and hne).imp
  rintro a b ⟨hab, hab'⟩
  apply Core.lt_of_not_lt hab (Ne.symm hab')

/-- Sorting makes the set of the items gathered. -/
theorem sorted_eq (m : Gathering) :
  m.sorted = m.toSet.items
  := by
  apply m.pairwise_sorted.eq_of_mem_iff m.toSet.ascending
  intro item
  rw [mem_sorted, mem_items_toSet]

variable {V E : Type} {language : Language V E} {g : Grammar}

/-- The passes over a kernel end, and the items gathered then, in the order of their cores,
are the closure of the kernel.  They have ascending cores; each core that follows from the
kernel is that of exactly one of them, and no other core is; and a symbol is a lookahead of a
core exactly when this follows from the kernel. -/
theorem sorted_least (hl : language.Definable) (hg : Grammar.ofLanguage language = .ok g)
    (kernel : List Item) :
  ∃ m, (pass g).saturate (ofList kernel) = some m
    ∧ m.sorted = (ItemSet.closure g kernel).items
    ∧ (m.sorted.Pairwise fun a b => a.core < b.core)
    ∧ (∀ c, Called g (ItemSet.KernelCore kernel) c → ∃! item, item ∈ m.sorted ∧ item.core = c)
    ∧ (∀ item ∈ m.sorted, Called g (ItemSet.KernelCore kernel) item.core)
    ∧ ∀ c a, (∃ item ∈ m.sorted, item.core = c ∧ a ∈ item.lookaheads)
      ↔ Awaited g (ItemSet.KernelCore kernel) (ItemSet.KernelLook kernel) c a
  := by
  have hproper := (Grammar.encodes_of_ofLanguage hg).proper hl
  have hpasses := ItemSet.closureByPasses_eq hproper kernel
  obtain ⟨m, hm, hset⟩ := Option.map_eq_some_iff.mp hpasses
  have hsorted : m.sorted = (ItemSet.closure g kernel).items := by
    rw [sorted_eq, ← hset]
    rfl
  use m, hm, hsorted, m.pairwise_sorted
  rw [hsorted]
  refine ⟨?_, ?_, fun c a => ItemSet.looks_closure hproper⟩
  · intro c hc
    obtain ⟨item, hitem, rfl⟩ := (ItemSet.hasCore_closure hproper).mpr hc
    use item, ⟨hitem, rfl⟩
    rintro other ⟨hother, hcore⟩
    apply ItemSet.eq_of_core_eq hother hitem hcore
  · intro item hitem
    apply (ItemSet.hasCore_closure hproper).mp ⟨item, hitem, rfl⟩

end Gathering

/-! ### A chain of optional symbols -/

/-- The language of at most one `a` and at most one `b`, in this order and with a `c` behind
them. -/
def Language.optional : Language Unit Empty where
  lexRules := []
  rules :=
    [{ lhs := .label "S", rhs := [.label "A", .label "B", .label "c"] },
     { lhs := .label "A", rhs := [.label "a"] },
     { lhs := .label "A", rhs := [] },
     { lhs := .label "B", rhs := [.label "b"] },
     { lhs := .label "B", rhs := [] }]
  start := .label "S"

theorem Language.optional_definable :
  optional.Definable
  := definable_of_addRules rfl rfl

/-- Its grammar. -/
def Grammar.optional : Grammar :=
  (Grammar.ofLanguage Language.optional).toOption.get (by decide)

theorem Grammar.ofLanguage_optional :
  Grammar.ofLanguage Language.optional = .ok optional
  := rfl

/-- From the start, a rule of `A` is followed by what begins a `B`, or by the `c` behind one
that vanishes. -/
theorem Gathering.sorted_least_optional :
  ∃ m, (pass .optional).saturate (ofList [⟨⟨.accept, 0⟩, .singleton endOfInputId⟩]) = some m
    ∧ m.sorted.map (Item.display .optional)
      = ["($start := . S) [$eoi]",
         "(S := . A B c) [$eoi]",
         "(A := . a) [c b]",
         "(A := .) [c b]"]
  := by
  obtain ⟨m, hm, hsorted, -⟩ := sorted_least Language.optional_definable
    Grammar.ofLanguage_optional [⟨⟨.accept, 0⟩, .singleton endOfInputId⟩]
  use m, hm
  rw [hsorted]
  decide +kernel

end ShiftReduce
