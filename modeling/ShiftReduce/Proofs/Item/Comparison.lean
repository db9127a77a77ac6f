import ShiftReduce.Proofs.Item.Built

/-!
# Comparisons that look at hashes first

Items with hashes and sets of them are compared by their hashes first.  Nothing is lost by that
as long as what is compared has been built: in whatever way hashes are computed, two items or
two sets have the same cores, or are the same, just if they say so (`comparisons_exact`).
-/

namespace ShiftReduce

/-! ### Exact comparisons -/

/-- What is compared, and how.  Values have cores and their lookaheads, they can be asked
whether they have the same cores and whether they are the same, and they have a hash for each
of the two questions. -/
structure Comparison (α : Type) where
  HasCore : α → Core → Prop
  Looks : α → Core → SymbolId → Prop
  sameCores : α → α → Bool
  same : α → α → Bool
  coreHash : α → UInt64
  hash : α → UInt64

namespace Comparison

variable {α : Type}

/-- Two values have the same cores. -/
def AgreeOnCores (k : Comparison α) (x y : α) : Prop :=
  ∀ c, k.HasCore x c ↔ k.HasCore y c

/-- Two values have the same cores, each with the same lookaheads. -/
def Agree (k : Comparison α) (x y : α) : Prop :=
  k.AgreeOnCores x y ∧ ∀ c i, k.Looks x c i ↔ k.Looks y c i

/-- The values of a kind are compared as if there were no hashes.  These depend only on what
the values have, and both ways to compare are equivalences, of which one is finer. -/
structure Exact (k : Comparison α) (Kind : α → Prop) : Prop where
  sameCores_iff :
    ∀ x y, Kind x → Kind y → (k.sameCores x y = true ↔ k.AgreeOnCores x y)
  same_iff : ∀ x y, Kind x → Kind y → (k.same x y = true ↔ k.Agree x y)
  coreHash_eq : ∀ x y, Kind x → Kind y → k.AgreeOnCores x y → k.coreHash x = k.coreHash y
  hash_eq : ∀ x y, Kind x → Kind y → k.Agree x y → k.hash x = k.hash y
  hashes_of_same :
    ∀ x y, Kind x → Kind y → k.same x y = true → k.coreHash x = k.coreHash y ∧ k.hash x = k.hash y
  sameCores_of_same :
    ∀ x y, Kind x → Kind y → k.same x y = true → k.sameCores x y = true
  sameCores_equivalence : Equivalence fun x y : Subtype Kind => k.sameCores x y = true
  same_equivalence : Equivalence fun x y : Subtype Kind => k.same x y = true

variable (k : Comparison α)

theorem agreeOnCores_equivalence :
  Equivalence k.AgreeOnCores
  := by
  constructor
  · intro x c
    exact Iff.rfl
  · intro x y hxy c
    exact (hxy c).symm
  · intro x y z hxy hyz c
    exact (hxy c).trans (hyz c)

theorem agree_equivalence :
  Equivalence k.Agree
  := by
  constructor
  · intro x
    exact ⟨k.agreeOnCores_equivalence.refl x, fun _ _ => Iff.rfl⟩
  · rintro x y ⟨hcores, hlooks⟩
    exact ⟨k.agreeOnCores_equivalence.symm hcores, fun c i => (hlooks c i).symm⟩
  · rintro x y z ⟨hcores, hlooks⟩ ⟨hcores', hlooks'⟩
    exact ⟨k.agreeOnCores_equivalence.trans hcores hcores',
      fun c i => (hlooks c i).trans (hlooks' c i)⟩

variable {k} {Kind : α → Prop}

/-- A test that is right about a relation on values of a kind is an equivalence on them if
the relation is one. -/
theorem equivalence_of_iff {R : α → α → Prop} (hR : Equivalence R) {test : α → α → Bool}
    (htest : ∀ x y, Kind x → Kind y → (test x y = true ↔ R x y)) :
  Equivalence fun x y : Subtype Kind => test x y = true
  := by
  have heq : (fun x y : Subtype Kind => test x y = true) = fun x y => R x.1 y.1 := by
    funext x y
    exact propext (htest x.1 y.1 x.2 y.2)
  rw [heq]
  exact hR.comap Subtype.val

/-- Let each value of a kind be made from a plain one.  If two values are the same, or agree in
what they have, only when these are equal, they are compared as if there were no hashes. -/
theorem Exact.of_made {β : Type} {f : β → α} (hkind : ∀ {x}, Kind x → ∃ a, x = f a)
    (hcores : ∀ {a b}, k.sameCores (f a) (f b) = true ↔ k.AgreeOnCores (f a) (f b))
    (hsame : ∀ {a b}, k.same (f a) (f b) = true ↔ a = b)
    (hcoreHash : ∀ {a b}, k.AgreeOnCores (f a) (f b) → k.coreHash (f a) = k.coreHash (f b))
    (hagree : ∀ {a b}, k.Agree (f a) (f b) → a = b) :
  k.Exact Kind
  := by
  have hpair : ∀ {P : α → α → Prop}, (∀ a b, P (f a) (f b)) →
      ∀ x y, Kind x → Kind y → P x y := by
    intro P hP x y hx hy
    obtain ⟨a, rfl⟩ := hkind hx
    obtain ⟨b, rfl⟩ := hkind hy
    apply hP
  have hcores_iff : ∀ x y, Kind x → Kind y → (k.sameCores x y = true ↔ k.AgreeOnCores x y) :=
    hpair fun a b => hcores
  have hsame_iff : ∀ x y, Kind x → Kind y → (k.same x y = true ↔ k.Agree x y) := by
    apply hpair
    intro a b
    rw [hsame]
    constructor
    · rintro rfl
      apply k.agree_equivalence.refl
    · apply hagree
  refine ⟨hcores_iff, hsame_iff, hpair fun a b => hcoreHash, ?_, ?_, ?_, ?_, ?_⟩
  · apply hpair
    intro a b h
    rw [hagree h]
  · apply hpair
    intro a b h
    rw [hsame.mp h]
    exact ⟨rfl, rfl⟩
  · intro x y hx hy h
    exact (hcores_iff x y hx hy).mpr ((hsame_iff x y hx hy).mp h).1
  · exact equivalence_of_iff k.agreeOnCores_equivalence hcores_iff
  · exact equivalence_of_iff k.agree_equivalence hsame_iff

end Comparison

/-! ### Items -/

namespace HashedItem

/-- Items are compared by their one core and its lookaheads. -/
def comparison : Comparison HashedItem where
  HasCore x c := x.item.core = c
  Looks x c i := x.item.core = c ∧ i ∈ x.item.lookaheads
  sameCores := sameCore
  same := same
  coreHash := coreHash
  hash := hash

variable {h : Hasher} {a b : Item}

theorem same_ofItem :
  (ofItem h a).same (ofItem h b) = true ↔ a = b
  := by
  rw [same, Bool.and_eq_true, Bool.and_eq_true, decide_eq_true_iff, decide_eq_true_iff,
    sameCore_ofItem]
  constructor
  · rintro ⟨⟨-, hcore⟩, hlookaheads⟩
    cases a
    cases b
    cases hcore
    cases hlookaheads
    rfl
  · rintro rfl
    exact ⟨⟨rfl, rfl⟩, rfl⟩

theorem agreeOnCores_ofItem :
  comparison.AgreeOnCores (ofItem h a) (ofItem h b) ↔ a.core = b.core
  := by
  constructor
  · intro hcores
    exact ((hcores a.core).mp rfl).symm
  · intro hcore c
    exact Eq.congr_left hcore

theorem eq_of_agree (hagree : comparison.Agree (ofItem h a) (ofItem h b)) :
  a = b
  := by
  have hcore := agreeOnCores_ofItem.mp hagree.1
  have hlookaheads : a.lookaheads = b.lookaheads := by
    ext i
    have hlook : (a.core = a.core ∧ i ∈ a.lookaheads) ↔ b.core = a.core ∧ i ∈ b.lookaheads :=
      hagree.2 a.core i
    rwa [and_iff_right rfl, and_iff_right hcore.symm] at hlook
  cases a
  cases b
  cases hcore
  cases hlookaheads
  rfl

/-- Items that have been built are compared as if there were no hashes. -/
theorem comparison_exact (h : Hasher) :
  comparison.Exact (Built h)
  := by
  apply Comparison.Exact.of_made (f := ofItem h) Built.exists_ofItem
  · exact sameCore_ofItem.trans agreeOnCores_ofItem.symm
  · apply same_ofItem
  · intro a b hagree
    apply coreHash_congr (agreeOnCores_ofItem.mp hagree)
  · apply eq_of_agree

end HashedItem

/-! ### Sets -/

namespace HashedSet

/-- Sets are compared by the cores of their items and the lookaheads of these. -/
def comparison : Comparison HashedSet where
  HasCore := HasCore
  Looks := Looks
  sameCores := sameCores
  same := same
  coreHash := coreHash
  hash := hash

variable {h : Hasher} {s t : ItemSet}

theorem same_ofSet :
  (ofSet h s).same (ofSet h t) = true ↔ s = t
  := by
  rw [same, Bool.and_assoc, Bool.and_eq_true, zip_all_iff, forall₂_ofSet, decide_eq_true_iff]
  simp only [HashedItem.same_ofItem]
  rw [List.forall₂_eq_eq_eq]
  constructor
  · rintro ⟨-, hitems⟩
    cases s
    cases t
    cases hitems
    rfl
  · rintro rfl
    exact ⟨rfl, rfl⟩

theorem agreeOnCores_ofSet :
  comparison.AgreeOnCores (ofSet h s) (ofSet h t) ↔ s.sameCores t = true
  := by
  rw [ItemSet.sameCores_iff]
  apply forall_congr'
  intro c
  exact iff_congr hasCore_ofSet hasCore_ofSet

theorem eq_of_agree (hagree : comparison.Agree (ofSet h s) (ofSet h t)) :
  s = t
  := by
  apply ItemSet.ext_facts
  · exact ItemSet.sameCores_iff.mp (agreeOnCores_ofSet.mp hagree.1)
  · intro c i
    exact looks_ofSet.symm.trans ((hagree.2 c i).trans looks_ofSet)

/-- Sets that have been built are compared as if there were no hashes. -/
theorem comparison_exact (h : Hasher) :
  comparison.Exact (Built h)
  := by
  apply Comparison.Exact.of_made (f := ofSet h) Built.exists_ofSet
  · exact (Bool.eq_iff_iff.mp sameCores_ofSet).trans agreeOnCores_ofSet.symm
  · apply same_ofSet
  · intro s t hagree
    apply coreHash_congr (ItemSet.sameCores_iff_cores_eq.mp (agreeOnCores_ofSet.mp hagree))
  · apply eq_of_agree

end HashedSet

/-! ### Whatever is built -/

/-- In whatever way hashes are computed, items and sets that have been built in any number of
steps are compared as if there were no hashes. -/
theorem comparisons_exact (h : Hasher) :
  HashedItem.comparison.Exact (HashedItem.Built h)
    ∧ HashedSet.comparison.Exact (HashedSet.Built h)
  := ⟨HashedItem.comparison_exact h, HashedSet.comparison_exact h⟩

open HashedSet (behindA) in
/-- In the language of optional symbols an item has the end of the input and `a` as lookaheads.
They have been taken in together, or two items with one of them each have been merged.  The
hashes are the same, and they do not stand for an item that has only one of the lookaheads. -/
theorem comparisons_exact_merged :
  ∃ x, (behindA [6]).merge .rotating (behindA [0]) = .ok x
    ∧ x.same (behindA [0, 6]) = true ∧ x.hash = (behindA [0, 6]).hash
    ∧ x.sameCore (behindA [6]) = true ∧ x.same (behindA [6]) = false
  := by
  obtain ⟨hitems, -⟩ := comparisons_exact .rotating
  have hsix : (behindA [6]).Built .rotating := HashedSet.built_behindA rfl
  have hzero : (behindA [0]).Built .rotating := HashedSet.built_behindA rfl
  have hboth : (behindA [0, 6]).Built .rotating := HashedSet.built_behindA rfl
  have hmerged := HashedItem.Built.merge hsix hzero rfl
  have hagree : HashedItem.comparison.Agree
      (.ofItem .rotating ⟨⟨.user 0, 1⟩, .ofList [6] ∪ .ofList [0]⟩) (behindA [0, 6]) := by
    constructor
    · intro c
      exact Iff.rfl
    · intro c i
      simp [HashedItem.comparison, behindA, HashedItem.ofItem, SymbolSet.mem_ofList, or_comm]
  have hsame := (hitems.same_iff _ _ hmerged hboth).mpr hagree
  refine ⟨_, rfl, hsame, hitems.hash_eq _ _ hmerged hboth hagree, ?_, ?_⟩
  · decide +kernel
  · decide +kernel

end ShiftReduce
