import ShiftReduce.Item.Hashed
import ShiftReduce.Proofs.Item.Least
import ShiftReduce.Proofs.Item.Union

/-!
# Closures with hashes

The closure of a kernel of items with hashes has the items of the closure without them, each
with its own hashes (`HashedSet.closure_eq`).  So it depends only on the cores of the kernel and
their lookaheads: neither the order of the items matters, nor whether the lookaheads of a core
come together or apart, and the closure of two kernels in a row has what the two closures have
(`HashedSet.closure_distributes`).
-/

namespace ShiftReduce

namespace HashedSet

variable {h : Hasher} {g : Grammar}

/-- Some item of the set has the core. -/
def HasCore (s : HashedSet) (c : Core) : Prop :=
  ∃ x ∈ s.items, x.item.core = c

/-- The item with the core has the lookahead. -/
def Looks (s : HashedSet) (c : Core) (a : SymbolId) : Prop :=
  ∃ x ∈ s.items, x.item.core = c ∧ a ∈ x.item.lookaheads

/-- A set with its hashes. -/
def ofSet (h : Hasher) (s : ItemSet) : HashedSet :=
  ofSorted h (s.items.map (HashedItem.ofItem h))

theorem items_ofSet (s : ItemSet) :
  (ofSet h s).items.map HashedItem.item = s.items
  := by
  rw [ofSet, ofSorted, List.map_map]
  apply List.map_id

theorem hasCore_ofSet {s : ItemSet} {c : Core} :
  (ofSet h s).HasCore c ↔ s.HasCore c
  := by simp [HasCore, ItemSet.HasCore, ofSet, ofSorted, HashedItem.ofItem]

theorem looks_ofSet {s : ItemSet} {c : Core} {a : SymbolId} :
  (ofSet h s).Looks c a ↔ s.Looks c a
  := by simp [Looks, ItemSet.Looks, ofSet, ofSorted, HashedItem.ofItem]

/-- Sorting the items gathered, each with its hashes, makes the set that they make without. -/
theorem ofItems_gathered (m : Gathering) :
  ofItems h (m.items.map (HashedItem.ofItem h)) = ofSet h m.toSet
  := by
  have hsorted := List.map_mergeSort (f := HashedItem.ofItem h) (l := m.items)
    (r := fun x y => ¬ y.core < x.core) (s := fun x y => ¬ y.item.core < x.item.core)
    fun _ _ _ _ => rfl
  rw [ofItems, ← hsorted, ofSet, ← Gathering.sorted_eq]
  rfl

/-- The passes end for every kernel of items with hashes.  The closure does not depend on the
hashes of the kernel, and has its own. -/
theorem closure_eq (hg : g.Proper) (kernel : List HashedItem) :
  closure h g kernel = some (ofSet h (ItemSet.closure g (kernel.map HashedItem.item)))
  := by
  have hpasses := ItemSet.closureByPasses_eq hg (kernel.map HashedItem.item)
  obtain ⟨m, hm, hset⟩ := Option.map_eq_some_iff.mp hpasses
  rw [closure, hm, Option.map_some, ofItems_gathered, ← hset]
  rfl

/-- A set is the same as itself. -/
theorem same_self (s : HashedSet) :
  s.same s = true
  := by
  have hitem : ∀ x : HashedItem, x.same x = true := by
    intro x
    simp [HashedItem.same, HashedItem.sameCore]
  have hzip : s.items.zip s.items = s.items.map fun x => (x, x) := by
    rw [List.zip_eq_zipWith, List.zipWith_self]
  simp [same, hzip, hitem]

/-- The closures of two kernels are found, they are the same, and so are their hashes. -/
def SameClosures (h : Hasher) (g : Grammar) (kernel kernel' : List HashedItem) : Prop :=
  ∃ s s', closure h g kernel = some s ∧ closure h g kernel' = some s' ∧ s.same s' = true
    ∧ s.coreHash = s'.coreHash ∧ s.hash = s'.hash

/-- Kernels have the same closures if they have the same ones without hashes. -/
theorem sameClosures_of_closure (hg : g.Proper) {kernel kernel' : List HashedItem}
    (heq : ItemSet.closure g (kernel.map HashedItem.item)
      = ItemSet.closure g (kernel'.map HashedItem.item)) :
  SameClosures h g kernel kernel'
  := by
  have hkernel := closure_eq (h := h) hg kernel
  rw [heq] at hkernel
  exact ⟨_, _, hkernel, closure_eq hg kernel', same_self _, rfl, rfl⟩

variable {V E : Type} {language : Language V E}

/-- In whatever way hashes are computed, each kernel has a closure, whose items are those of the
closure without hashes.  The closure of two kernels in a row has the cores of both closures, and
the lookaheads that these have for each core.  The closure stays the same, with the same hashes,
when the kernel is permuted, when an item is split into several ones with the same core that
together have its lookaheads, and when the items of the closure are closed once more. -/
theorem closure_distributes (hl : language.Definable)
    (hg : Grammar.ofLanguage language = .ok g) (h : Hasher) :
  (∀ kernel, ∃ s, closure h g kernel = some s
      ∧ s.items.map HashedItem.item = (ItemSet.closure g (kernel.map HashedItem.item)).items
      ∧ SameClosures h g s.items kernel)
    ∧ (∀ kernel kernel', ∃ s s' both, closure h g kernel = some s
      ∧ closure h g kernel' = some s' ∧ closure h g (kernel ++ kernel') = some both
      ∧ (∀ c, both.HasCore c ↔ s.HasCore c ∨ s'.HasCore c)
      ∧ ∀ c a, both.Looks c a ↔ s.Looks c a ∨ s'.Looks c a)
    ∧ (∀ kernel kernel', kernel.Perm kernel' → SameClosures h g kernel kernel')
    ∧ ∀ before item parts after,
      ItemSet.Splits item.item (parts.map HashedItem.item) →
      SameClosures h g (before ++ item :: after) (before ++ parts ++ after)
  := by
  have hproper := (Grammar.encodes_of_ofLanguage hg).proper hl
  refine ⟨?_, ?_, ?_, ?_⟩
  · intro kernel
    refine ⟨_, closure_eq hproper kernel, items_ofSet _, ?_⟩
    apply sameClosures_of_closure hproper
    rw [items_ofSet]
    apply ItemSet.closed_closure hproper
  · intro kernel kernel'
    refine ⟨_, _, _, closure_eq hproper kernel, closure_eq hproper kernel',
      closure_eq hproper _, ?_, ?_⟩
    · intro c
      rw [hasCore_ofSet, hasCore_ofSet, hasCore_ofSet, List.map_append,
        ItemSet.hasCore_closure_append hproper]
    · intro c a
      rw [looks_ofSet, looks_ofSet, looks_ofSet, List.map_append,
        ItemSet.looks_closure_append hproper]
  · intro kernel kernel' hperm
    apply sameClosures_of_closure hproper
    apply ItemSet.closure_congr hproper
    apply ItemSet.ofList_perm (hperm.map _)
  · intro before item parts after hsplits
    apply sameClosures_of_closure hproper
    apply ItemSet.closure_congr hproper
    simp only [List.map_append, List.map_cons]
    apply ItemSet.ofList_split hsplits

/-- The rule of `S` in the language of optional symbols, with `A` read. -/
def behindA (lookaheads : List SymbolId) : HashedItem :=
  .ofItem .rotating ⟨⟨.user 0, 1⟩, .ofList lookaheads⟩

/-- With the end of the input and `a` as lookaheads of one item, or each in an item of its own
and in any order, there is the same closure with the same hashes. -/
theorem closure_distributes_optional :
  SameClosures .rotating .optional [behindA [0, 6]] [behindA [6], behindA [0]]
    ∧ SameClosures .rotating .optional [behindA [6], behindA [0]] [behindA [0], behindA [6]]
    ∧ ∃ s, closure .rotating .optional [behindA [0, 6]] = some s
      ∧ (s.items.map HashedItem.item).map (Item.display .optional)
        = ["(S := A . B c) [$eoi a]", "(B := . b) [c]", "(B := .) [c]"]
  := by
  obtain ⟨hclosure, -, hperm, hsplit⟩ :=
    closure_distributes Language.optional_definable Grammar.ofLanguage_optional .rotating
  refine ⟨?_, ?_, ?_⟩
  · apply hsplit [] _ [_, _] []
    constructor
    · apply List.cons_ne_nil
    · decide
    · intro a
      simp [behindA, HashedItem.ofItem, SymbolSet.mem_ofList, or_comm]
  · apply hperm
    apply List.Perm.swap
  · obtain ⟨s, hs, hitems, -⟩ := hclosure [behindA [0, 6]]
    use s, hs
    rw [hitems]
    decide +kernel

end HashedSet

end ShiftReduce
