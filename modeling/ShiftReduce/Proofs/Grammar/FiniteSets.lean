import Mathlib.Data.Finset.Sort
import ShiftReduce.Grammar.SetCalls

/-!
# Finite sets of symbols

Sets of symbols, however they are kept, stand for finite sets of numbers with 16 bits
(`SymbolSets.exact`).  What ties the two together are the numbers of the members in ascending
order (`numbersOf`), which determine a finite set and are known by what is among them.
-/

namespace ShiftReduce

/-! ### Numbers of members -/

/-- The numbers of the members of a finite set, in ascending order. -/
def numbersOf (m : Finset UInt16) : List Nat :=
  (m.sort (· ≤ ·)).map UInt16.toNat

section

variable {m n : Finset UInt16} {i : Nat} {id : UInt16}

theorem mem_numbersOf :
  i ∈ numbersOf m ↔ ∃ id ∈ m, id.toNat = i
  := by simp [numbersOf]

theorem toNat_mem_numbersOf :
  id.toNat ∈ numbersOf m ↔ id ∈ m
  := by simp [mem_numbersOf, UInt16.toNat_inj]

theorem mem_numbersOf_toFinset {ids : List UInt16} :
  i ∈ numbersOf ids.toFinset ↔ i ∈ ids.map UInt16.toNat
  := by simp [mem_numbersOf]

theorem mem_numbersOf_insert :
  i ∈ numbersOf (insert id m) ↔ i = id.toNat ∨ i ∈ numbersOf m
  := by simp [mem_numbersOf, eq_comm]

theorem mem_numbersOf_union :
  i ∈ numbersOf (m ∪ n) ↔ i ∈ numbersOf m ∨ i ∈ numbersOf n
  := by simp [mem_numbersOf, or_and_right, exists_or]

theorem pairwise_sort (m : Finset UInt16) :
  (m.sort (· ≤ ·)).Pairwise (· < ·)
  := by
  apply ((m.pairwise_sort (· ≤ ·)).and (m.sort_nodup (· ≤ ·))).imp
  rintro a b ⟨hle, hne⟩
  apply Std.lt_of_le_of_ne hle hne

theorem pairwise_numbersOf (m : Finset UInt16) :
  (numbersOf m).Pairwise (· < ·)
  := by
  rw [numbersOf, List.pairwise_map]
  apply (pairwise_sort m).imp
  intro a b
  apply UInt16.lt_iff_toNat_lt.mp

theorem length_numbersOf (m : Finset UInt16) :
  (numbersOf m).length = m.card
  := by simp [numbersOf]

/-- Cutting the numbers off to 16 bits changes nothing. -/
theorem map_ofNat_numbersOf (m : Finset UInt16) :
  (numbersOf m).map UInt16.ofNat = m.sort (· ≤ ·)
  := by
  rw [numbersOf, List.map_map]
  apply List.map_id''
  intro id
  apply UInt16.ofNat_toNat

theorem sort_inj :
  m.sort (· ≤ ·) = n.sort (· ≤ ·) ↔ m = n
  := by
  constructor
  · intro h
    rw [← m.sort_toFinset (· ≤ ·), h, n.sort_toFinset]
  · rintro rfl
    rfl

theorem numbersOf_inj :
  numbersOf m = numbersOf n ↔ m = n
  := by
  rw [← sort_inj, ← map_ofNat_numbersOf, ← map_ofNat_numbersOf]
  constructor
  · apply congrArg
  · intro h
    rw [map_ofNat_numbersOf, map_ofNat_numbersOf, sort_inj] at h
    rw [h]

theorem numbersOf_eq_nil_iff :
  numbersOf m = [] ↔ m = ∅
  := by simp [numbersOf, Finset.eq_empty_iff_forall_notMem, List.eq_nil_iff_forall_not_mem]

theorem subset_iff_numbersOf :
  (∀ i ∈ numbersOf m, i ∈ numbersOf n) ↔ m ⊆ n
  := by
  constructor
  · intro h id hid
    apply toNat_mem_numbersOf.mp (h _ (toNat_mem_numbersOf.mpr hid))
  · intro h i hi
    obtain ⟨id, hid, rfl⟩ := mem_numbersOf.mp hi
    apply toNat_mem_numbersOf.mpr (h hid)

/-- The order of two lists of numbers does not depend on how many bits are written. -/
theorem compare_map_toNat (l l' : List UInt16) :
  compare (l.map UInt16.toNat) (l'.map UInt16.toNat) = compare l l'
  := by
  rw [List.compare_eq_compareLex, List.compare_eq_compareLex]
  induction l generalizing l' with
  | nil => cases l' <;> rfl
  | cons a rest ih =>
      cases l' with
      | nil => rfl
      | cons b rest' =>
          have hfirst : compare a.toNat b.toNat = compare a b := by
            simp [compare, compareOfLessAndEq, UInt16.lt_iff_toNat_lt, UInt16.toNat_inj]
          rw [List.map_cons, List.map_cons, List.compareLex_cons_cons, List.compareLex_cons_cons,
            ih, hfirst]

end

/-! ### Growth -/

theorem ssubset_insert_iff {m : Finset UInt16} {id : UInt16} :
  m ⊂ insert id m ↔ id ∉ m
  := by
  constructor
  · intro hgrown hid
    rw [Finset.insert_eq_of_mem hid] at hgrown
    apply hgrown.ne rfl
  · apply Finset.ssubset_insert

/-- A finite set has grown if the number of its members has. -/
theorem ssubset_iff_card_lt {m n : Finset UInt16} (h : m ⊆ n) :
  m ⊂ n ↔ m.card < n.card
  := by
  constructor
  · apply Finset.card_lt_card
  · intro hlt
    apply Finset.ssubset_iff_subset_ne.mpr ⟨h, _⟩
    rintro rfl
    apply Nat.lt_irrefl _ hlt

/-! ### Finite sets -/

/-- Finite sets of numbers with 16 bits.  A set has grown if it was properly contained in what it
is now, and sets are ordered as the ascending lists of their members. -/
def SymbolSets.exact {H : Type} (take : H → UInt16 → H) (initial : H) : SymbolSets H where
  Set := Finset UInt16
  empty := ∅
  ofList := List.toFinset
  insert m id := (Insert.insert id m, decide (m ⊂ Insert.insert id m))
  extend m ids := m ∪ ids.toFinset
  union m n := (m ∪ n, decide (m ⊂ m ∪ n))
  contains m id := decide (id ∈ m)
  isSubset m n := decide (m ⊆ n)
  size := Finset.card
  isEmpty m := decide (m = ∅)
  members m := m.sort (· ≤ ·)
  same m n := decide (m = n)
  compare m n := Ord.compare (m.sort (· ≤ ·)) (n.sort (· ≤ ·))
  hash m := (m.sort (· ≤ ·)).foldl take initial

end ShiftReduce
