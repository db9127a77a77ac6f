import ShiftReduce.Grammar.BitSet
import ShiftReduce.Proofs.Grammar.FiniteSets
import ShiftReduce.Proofs.Grammar.SetCalls

/-!
# Sets of symbols in bits are finite sets

Whatever calls are made on sets in bits, the answers are those that finite sets of numbers with
16 bits give, and sets as ascending lists give them as well (`BitSet.answers_exact`).  For this
each set in bits, or list, is related to a finite set by the numbers of its members in ascending
order.  Each call keeps the relation, and the answers follow from it.
-/

namespace ShiftReduce

/-! ### Places of bits -/

theorem mem_placesFrom {start i : Nat} {l : List Bool} :
  i ∈ placesFrom start l ↔ ∃ k, i = start + k ∧ l[k]? = some true
  := by
  induction l generalizing start with
  | nil => simp [placesFrom]
  | cons bit rest ih =>
      rw [← Nat.or_exists_add_one]
      cases bit with
      | true => simp [placesFrom, ih, Nat.add_right_comm _ 1, Nat.add_assoc]
      | false => simp [placesFrom, ih, Nat.add_right_comm _ 1, Nat.add_assoc]

theorem mem_placesFrom_zero {i : Nat} {l : List Bool} :
  i ∈ placesFrom 0 l ↔ l[i]? = some true
  := by simp [mem_placesFrom]

theorem pairwise_placesFrom (start : Nat) (l : List Bool) :
  (placesFrom start l).Pairwise (· < ·)
  := by
  induction l generalizing start with
  | nil => exact List.Pairwise.nil
  | cons bit rest ih =>
      cases bit with
      | true =>
          apply List.pairwise_cons.mpr ⟨_, ih (start + 1)⟩
          intro i hi
          obtain ⟨k, rfl, -⟩ := mem_placesFrom.mp hi
          omega
      | false => apply ih

theorem length_placesFrom (start : Nat) (l : List Bool) :
  (placesFrom start l).length = l.count true
  := by
  induction l generalizing start with
  | nil => rfl
  | cons bit rest ih => cases bit <;> simp [placesFrom, ih]

/-! ### Sets in bits -/

namespace BitSet

variable {library : BitLibrary} {s t : BitSet library} {m n : Finset UInt16}

/-- A set in bits has the members of a finite set. -/
def Reads (s : BitSet library) (m : Finset UInt16) : Prop :=
  library.members s.bits = numbersOf m

theorem has_iff (hl : library.Lawful) {bits : library.Bits} {i : Nat} :
  library.Has bits i ↔ i ∈ library.members bits
  := by rw [hl.members, mem_placesFrom_zero, BitLibrary.Has]

/-- The library goes through the bits from the first to the last, so it finds the members in
ascending order. -/
theorem reads_iff (hl : library.Lawful) :
  s.Reads m ↔ ∀ i, library.Has s.bits i ↔ i ∈ numbersOf m
  := by
  simp only [has_iff hl]
  constructor
  · intro h i
    rw [h]
  · apply eq_of_ascending _ (pairwise_numbersOf m)
    rw [hl.members]
    apply pairwise_placesFrom

theorem reads_empty (hl : library.Lawful) :
  (empty : BitSet library).Reads ∅
  := by
  apply (reads_iff hl).mpr
  intro i
  simp [empty, hl.empty, mem_numbersOf]

theorem reads_ofList (hl : library.Lawful) (ids : List UInt16) :
  (ofList ids : BitSet library).Reads ids.toFinset
  := by
  apply (reads_iff hl).mpr
  intro i
  rw [mem_numbersOf_toFinset]
  apply hl.ofList

namespace Reads

variable (h : s.Reads m) (h' : t.Reads n) (hl : library.Lawful)
include h

theorem members :
  s.members = m.sort (· ≤ ·)
  := by rw [BitSet.members, h, map_ofNat_numbersOf]

theorem hash {H : Type} (take : H → UInt16 → H) (initial : H) :
  s.hash take initial = (m.sort (· ≤ ·)).foldl take initial
  := by rw [BitSet.hash, h.members]

include h' in
theorem same :
  s.same t = decide (m = n)
  := by
  rw [BitSet.same, h.members, h'.members]
  apply decide_eq_decide.mpr sort_inj

include h' in
theorem compare :
  Ord.compare s t = Ord.compare (m.sort (· ≤ ·)) (n.sort (· ≤ ·))
  := by
  change compareOn BitSet.members s t = _
  rw [compareOn, h.members, h'.members]

include hl

theorem has_toNat {id : UInt16} :
  library.Has s.bits id.toNat ↔ id ∈ m
  := by rw [(reads_iff hl).mp h, toNat_mem_numbersOf]

theorem size :
  s.size = m.card
  := by rw [BitSet.size, hl.size, ← length_placesFrom 0, ← hl.members, h, length_numbersOf]

theorem contains (id : UInt16) :
  s.contains id = decide (id ∈ m)
  := by
  apply Bool.eq_iff_iff.mpr
  rw [BitSet.contains, hl.contains, h.has_toNat hl, decide_eq_true_iff]

theorem isEmpty :
  s.isEmpty = decide (m = ∅)
  := by
  apply Bool.eq_iff_iff.mpr
  rw [BitSet.isEmpty, hl.isEmpty, decide_eq_true_iff, ← numbersOf_eq_nil_iff,
    List.eq_nil_iff_forall_not_mem]
  simp only [(reads_iff hl).mp h]

include h' in
theorem isSubset :
  s.isSubset t = decide (m ⊆ n)
  := by
  apply Bool.eq_iff_iff.mpr
  rw [BitSet.isSubset, hl.isSubset, decide_eq_true_iff, ← subset_iff_numbersOf]
  simp only [(reads_iff hl).mp h, (reads_iff hl).mp h']

theorem insert (id : UInt16) :
  (s.insert id).1.Reads (Insert.insert id m)
  := by
  rw [reads_iff hl] at h ⊢
  intro i
  rw [mem_numbersOf_insert, ← h]
  apply hl.insert

theorem isNew (id : UInt16) :
  (s.insert id).2 = decide (m ⊂ Insert.insert id m)
  := by
  apply Bool.eq_iff_iff.mpr
  rw [decide_eq_true_iff, ssubset_insert_iff, ← h.has_toNat hl]
  apply hl.isNew

theorem extend (ids : List UInt16) :
  (s.extend ids).Reads (m ∪ ids.toFinset)
  := by
  induction ids generalizing s m with
  | nil =>
      rw [List.toFinset_nil, Finset.union_empty]
      apply h
  | cons id rest ih =>
      rw [List.toFinset_cons, Finset.union_insert, ← Finset.insert_union]
      apply ih (h.insert hl id)

include h'

theorem union :
  (s.union t).1.Reads (m ∪ n)
  := by
  rw [reads_iff hl] at h h' ⊢
  intro i
  rw [mem_numbersOf_union, ← h, ← h']
  apply hl.union

/-- The number of members differs after a union only if it has become greater. -/
theorem grew :
  (s.union t).2 = decide (m ⊂ m ∪ n)
  := by
  have hle : m.card ≤ (m ∪ n).card := Finset.card_le_card Finset.subset_union_left
  have hunion : library.size (library.union s.bits t.bits) = (m ∪ n).card :=
    (h.union h' hl).size hl
  have hsize : library.size s.bits = m.card := h.size hl
  rw [BitSet.union, hunion, hsize]
  apply decide_eq_decide.mpr
  rw [ssubset_iff_card_lt Finset.subset_union_left]
  omega

end Reads

/-- Sets in bits answer as finite sets do. -/
theorem agree_exact {H : Type} (hl : library.Lawful) (take : H → UInt16 → H) (initial : H) :
  (sets library take initial).Agree (.exact take initial) Reads
  where
  empty := reads_empty hl
  ofList := reads_ofList hl
  insert h id := ⟨h.insert hl id, h.isNew hl id⟩
  extend h := h.extend hl
  union h h' := ⟨h.union h' hl, h.grew h' hl⟩
  contains h := h.contains hl
  isSubset h h' := h.isSubset h' hl
  size h := h.size hl
  isEmpty h := h.isEmpty hl
  members h := h.members
  same h h' := h.same h'
  compare h h' := h.compare h'
  hash h := h.hash take initial

end BitSet

/-! ### Sets as ascending lists -/

namespace SymbolSet

variable {s t : SymbolSet} {m n : Finset UInt16}

/-- An ascending list has the numbers of the members of a finite set. -/
def Reads (s : SymbolSet) (m : Finset UInt16) : Prop :=
  s.members = numbersOf m

theorem reads_iff :
  s.Reads m ↔ ∀ i, i ∈ s ↔ i ∈ numbersOf m
  := by
  constructor
  · intro h i
    rw [← h, mem_def]
  · apply eq_of_ascending s.ascending (pairwise_numbersOf m)

theorem reads_empty :
  (∅ : SymbolSet).Reads ∅
  := by
  apply reads_iff.mpr
  intro i
  simp [mem_numbersOf]

theorem reads_ofList (ids : List UInt16) :
  (ofList (ids.map UInt16.toNat)).Reads ids.toFinset
  := by
  apply reads_iff.mpr
  intro i
  rw [mem_ofList, mem_numbersOf_toFinset]

namespace Reads

variable (h : s.Reads m) (h' : t.Reads n)
include h

theorem map_members :
  s.members.map UInt16.ofNat = m.sort (· ≤ ·)
  := by rw [h, map_ofNat_numbersOf]

theorem size :
  s.size = m.card
  := by rw [SymbolSet.size, h, length_numbersOf]

theorem contains (id : UInt16) :
  s.contains id.toNat = decide (id ∈ m)
  := by
  apply Bool.eq_iff_iff.mpr
  rw [contains_iff, reads_iff.mp h, toNat_mem_numbersOf, decide_eq_true_iff]

theorem isEmpty :
  s.isEmpty = decide (m = ∅)
  := by
  apply Bool.eq_iff_iff.mpr
  rw [SymbolSet.isEmpty, h, List.isEmpty_iff, numbersOf_eq_nil_iff, decide_eq_true_iff]

theorem insert (id : UInt16) :
  (s.insert id.toNat).Reads (Insert.insert id m)
  := by
  apply reads_iff.mpr
  intro i
  rw [mem_insert, mem_numbersOf_insert, reads_iff.mp h]

theorem extend (ids : List UInt16) :
  (s.insertMany (ids.map UInt16.toNat)).Reads (m ∪ ids.toFinset)
  := by
  apply reads_iff.mpr
  intro i
  rw [mem_insertMany, mem_numbersOf_union, mem_numbersOf_toFinset, reads_iff.mp h]

include h'

theorem grew (hsub : m ⊆ n) :
  s.grew t = decide (m ⊂ n)
  := by
  rw [SymbolSet.grew, h.size, h'.size]
  apply decide_eq_decide.mpr (ssubset_iff_card_lt hsub).symm

theorem union :
  (s ∪ t).Reads (m ∪ n)
  := by
  apply reads_iff.mpr
  intro i
  rw [mem_union, mem_numbersOf_union, reads_iff.mp h, reads_iff.mp h']

theorem isSubset :
  s.isSubset t = decide (m ⊆ n)
  := by
  apply Bool.eq_iff_iff.mpr
  rw [isSubset_iff, decide_eq_true_iff, ← subset_iff_numbersOf]
  simp only [reads_iff.mp h, reads_iff.mp h']

theorem same :
  decide (s = t) = decide (m = n)
  := by
  apply decide_eq_decide.mpr
  rw [← numbersOf_inj, ← h, ← h', SymbolSet.mk.injEq]

theorem compare :
  Ord.compare s t = Ord.compare (m.sort (· ≤ ·)) (n.sort (· ≤ ·))
  := by
  change compareOn SymbolSet.members s t = _
  rw [compareOn, h, h', numbersOf, numbersOf, compare_map_toNat]

end Reads

/-- Ascending lists answer as finite sets do. -/
theorem agree_exact {H : Type} (take : H → UInt16 → H) (initial : H) :
  (sets take initial).Agree (.exact take initial) Reads
  where
  empty := reads_empty
  ofList := reads_ofList
  insert h id := ⟨h.insert id, h.grew (h.insert id) (Finset.subset_insert _ _)⟩
  extend h := h.extend
  union h h' := ⟨h.union h', h.grew (h.union h') Finset.subset_union_left⟩
  contains h := h.contains
  isSubset h h' := h.isSubset h'
  size h := h.size
  isEmpty h := h.isEmpty
  members h := h.map_members
  same h h' := h.same h'
  compare h h' := h.compare h'
  hash h := by
    change (List.map _ _).foldl _ _ = _
    rw [h.map_members]
    rfl

end SymbolSet

/-! ### Answers -/

namespace SymbolSets

variable {H : Type}

/-- A list of members that is an answer to a call is that of some set. -/
theorem exists_of_answer_eq_members {kind : SymbolSets H} {sets : List kind.Set} {call : SetCall}
    {ids : List UInt16} (h : (kind.answer sets call).2 = .members ids) :
  ∃ s, ids = kind.members s
  := by
  cases call with
  | members k =>
      rw [answer, on] at h
      split at h
      · exact ⟨_, (SetAnswer.members.inj h).symm⟩
      · cases h
  | _ => grind [answer, on, both]

/-- The lists of members among the answers of finite sets are ascending. -/
theorem pairwise_of_mem_answers {take : H → UInt16 → H} {initial : H} {ids : List UInt16}
    {calls : List SetCall} {sets : List (exact take initial).Set}
    (h : .members ids ∈ (exact take initial).answers sets calls) :
  ids.Pairwise (· < ·)
  := by
  induction calls generalizing sets with
  | nil => cases h
  | cons call rest ih =>
      rcases List.mem_cons.mp h with hanswer | hrest
      · obtain ⟨m, rfl⟩ := exists_of_answer_eq_members hanswer.symm
        apply pairwise_sort m
      · apply ih hrest

end SymbolSets

namespace BitSet

/-- Sets in bits are ordered by their lists of members, so the order is total, and two sets are
equal in it if they are the same. -/
theorem compare_eq_iff {library : BitLibrary} {s t : BitSet library} :
  compare s t = .eq ↔ s.same t = true
  := by
  change compareOn members s t = .eq ↔ _
  rw [compareOn, Std.LawfulEqCmp.compare_eq_iff_eq, same, decide_eq_true_iff]

/-- Let a library keep sets of numbers in bits correctly.  Whatever calls are made on any number
of sets, the sets in bits answer as finite sets of numbers with 16 bits do, and so do ascending
lists: they tell which members there are and how many, whether one set contains another one,
whether a set has grown, and which sets are the same; and their members, their order and their
hashes depend on nothing else.  The members are found in ascending order.  The order is a total
one, and two sets are equal in it exactly if they are the same. -/
theorem answers_exact {library : BitLibrary} (hl : library.Lawful) {H : Type}
    (take : H → UInt16 → H) (initial : H) (calls : List SetCall) :
  (sets library take initial).answers [] calls
      = (SymbolSets.exact take initial).answers [] calls
    ∧ (SymbolSet.sets take initial).answers [] calls
      = (SymbolSets.exact take initial).answers [] calls
    ∧ (∀ ids, .members ids ∈ (sets library take initial).answers [] calls →
      ids.Pairwise (· < ·))
    ∧ Std.TransOrd (BitSet library)
    ∧ ∀ s t : BitSet library, compare s t = .eq ↔ s.same t = true
  := by
  have hexact := (agree_exact hl take initial).answers .nil calls
  refine ⟨hexact, (SymbolSet.agree_exact take initial).answers .nil calls, ?_, ?_, ?_⟩
  · intro ids hids
    rw [hexact] at hids
    apply SymbolSets.pairwise_of_mem_answers hids
  · exact inferInstanceAs (Std.TransCmp (compareOn members))
  · intro s t
    apply compare_eq_iff

end BitSet

/-! ### Lists of bits -/

/-- The vector with one more bit set, for which it may have to become longer. -/
def setBit : List Bool → Nat → List Bool
  | [], 0 => [true]
  | [], i + 1 => false :: setBit [] i
  | _ :: rest, 0 => true :: rest
  | bit :: rest, i + 1 => bit :: setBit rest i

/-- The vector with the bits of two vectors set. -/
def joinBits : List Bool → List Bool → List Bool
  | [], l' => l'
  | l, [] => l
  | bit :: rest, bit' :: rest' => (bit || bit') :: joinBits rest rest'

theorem getElem?_setBit {l : List Bool} {i j : Nat} :
  (setBit l i)[j]? = some true ↔ j = i ∨ l[j]? = some true
  := by
  induction l, i using setBit.induct generalizing j with
  | case1 => cases j <;> simp [setBit]
  | case2 i ih => cases j <;> simp [setBit, ih]
  | case3 bit rest => cases j <;> simp [setBit]
  | case4 bit rest i ih => cases j <;> simp [setBit, ih]

theorem getElem?_foldl_setBit {l : List Bool} {ids : List Nat} {j : Nat} :
  (ids.foldl setBit l)[j]? = some true ↔ l[j]? = some true ∨ j ∈ ids
  := by
  induction ids generalizing l with
  | nil => simp
  | cons i rest ih => simp [ih, getElem?_setBit, or_assoc, or_left_comm]

theorem getElem?_joinBits {l l' : List Bool} {i : Nat} :
  (joinBits l l')[i]? = some true ↔ l[i]? = some true ∨ l'[i]? = some true
  := by
  induction l, l' using joinBits.induct generalizing i with
  | case1 l' => simp [joinBits]
  | case2 l => cases l <;> simp [joinBits]
  | case3 bit rest bit' rest' ih => cases i <;> simp [joinBits, ih]

theorem all_placesFrom {l l' : List Bool} :
  ((placesFrom 0 l).all fun i => decide (l'[i]? = some true)) = true
    ↔ ∀ i : Nat, l[i]? = some true → l'[i]? = some true
  := by simp [mem_placesFrom_zero]

theorem isEmpty_placesFrom {l : List Bool} :
  (placesFrom 0 l).isEmpty = true ↔ ∀ i : Nat, ¬ l[i]? = some true
  := by
  rw [List.isEmpty_iff, List.eq_nil_iff_forall_not_mem]
  simp only [mem_placesFrom_zero]

/-- A library that has lists of bits as its vectors. -/
def BitLibrary.lists : BitLibrary where
  Bits := List Bool
  vector l := l
  empty := []
  ofList ids := ids.foldl setBit []
  insert l i := (setBit l i, decide (l[i]? ≠ some true))
  union := joinBits
  contains l i := decide (l[i]? = some true)
  isSubset l l' := (placesFrom 0 l).all fun i => decide (l'[i]? = some true)
  isEmpty l := (placesFrom 0 l).isEmpty
  size := List.count true
  members := placesFrom 0

theorem BitLibrary.lists_lawful :
  lists.Lawful
  where
  empty i := by simp [Has, lists]
  ofList l i := by simp [Has, lists, getElem?_foldl_setBit]
  insert s i j := getElem?_setBit
  isNew s i := decide_eq_true_iff
  union s t i := getElem?_joinBits
  contains s i := decide_eq_true_iff
  isSubset s t := all_placesFrom
  isEmpty s := isEmpty_placesFrom
  size s := rfl
  members s := rfl

/-- Two sets that come to have the same members in different ways, the second one by joining a
third one, and a copy that does not change with its original. -/
def twoWays : List SetCall :=
  [.ofList [7, 3, 7], .new, .insert 1 3, .insert 1 3, .clone 1, .compare 0 1, .ofList [7],
    .union 1 3, .union 1 3, .compare 0 1, .members 1, .size 2, .isSubset 2 1, .isSubset 1 2,
    .contains 2 7, .compare 2 1, .hash 0, .hash 1]

/-- Both sets have the members 3 and 7, and they are the same and have the same hash. -/
theorem BitSet.answers_exact_twoWays :
  BitLibrary.lists.Lawful
    ∧ (SymbolSets.exact (fun hash id => hash * 31 + id.toUInt64) 0).answers [] twoWays
      = [.done, .done, .truth true, .truth false, .done, .order false .gt, .done,
        .truth true, .truth false, .order true .eq, .members [3, 7], .size 1 false, .truth true,
        .truth false, .truth false, .order false .lt, .hash 100, .hash 100]
  := by
  use BitLibrary.lists_lawful
  rw [← (answers_exact BitLibrary.lists_lawful _ _ twoWays).1]
  decide +kernel

end ShiftReduce