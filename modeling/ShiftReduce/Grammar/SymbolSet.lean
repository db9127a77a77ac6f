/-!
# Sets of symbols

Within a grammar a symbol is known by its number, and a finite set of symbols is the
ascending list of the numbers of its members.  So two sets with the same members are equal
(`SymbolSet.ext`), whatever the order in which the members were put in.
-/

namespace ShiftReduce

/-! ### Ascending lists -/

/-- Puts `i` in its place in an ascending list, unless it is there. -/
def insertAscending (i : Nat) : List Nat → List Nat
  | [] => [i]
  | j :: rest =>
    if i < j then i :: j :: rest
    else if i = j then j :: rest
    else j :: insertAscending i rest

theorem mem_insertAscending {i j : Nat} {l : List Nat} :
  j ∈ insertAscending i l ↔ j = i ∨ j ∈ l
  := by
  induction l with
  | nil => simp [insertAscending]
  | cons k rest ih =>
    unfold insertAscending
    split
    · simp
    · split
      · simp_all
      · simp [ih, or_left_comm]

theorem pairwise_insertAscending {i : Nat} {l : List Nat}
    (h : l.Pairwise (· < ·)) :
  (insertAscending i l).Pairwise (· < ·)
  := by
  induction l with
  | nil => simp [insertAscending]
  | cons k rest ih =>
    obtain ⟨hk, hrest⟩ := List.pairwise_cons.mp h
    unfold insertAscending
    split
    · rename_i hik
      refine List.pairwise_cons.mpr ⟨?_, h⟩
      intro j hj
      rcases List.mem_cons.mp hj with rfl | hj
      · exact hik
      · exact Nat.lt_trans hik (hk j hj)
    · split
      · exact h
      · refine List.pairwise_cons.mpr ⟨?_, ih hrest⟩
        intro j hj
        rcases mem_insertAscending.mp hj with rfl | hj
        · omega
        · exact hk j hj

/-- Two ascending lists with the same members are equal. -/
theorem eq_of_ascending {l l' : List Nat}
    (hl : l.Pairwise (· < ·)) (hl' : l'.Pairwise (· < ·)) (h : ∀ i, i ∈ l ↔ i ∈ l') :
  l = l'
  := by
  induction l generalizing l' with
  | nil =>
    cases l' with
    | nil => rfl
    | cons b _ => simpa using h b
  | cons a rest ih =>
    cases l' with
    | nil => simpa using h a
    | cons b rest' =>
      obtain ⟨ha, hrest⟩ := List.pairwise_cons.mp hl
      obtain ⟨hb, hrest'⟩ := List.pairwise_cons.mp hl'
      have hab : a = b := by
        have hmem : a = b ∨ a ∈ rest' := by simpa using h a
        have hmem' : b = a ∨ b ∈ rest := by simpa using h b
        rcases hmem with rfl | hmem
        · rfl
        · rcases hmem' with rfl | hmem'
          · rfl
          · have := ha b hmem'
            have := hb a hmem
            omega
      subst hab
      congr 1
      apply ih hrest hrest'
      intro i
      have hi := h i
      constructor
      · intro hmem
        have := ha i hmem
        rcases List.mem_cons.mp (hi.mp (List.mem_cons_of_mem _ hmem)) with rfl | hmem'
        · omega
        · exact hmem'
      · intro hmem
        have := hb i hmem
        rcases List.mem_cons.mp (hi.mpr (List.mem_cons_of_mem _ hmem)) with rfl | hmem'
        · omega
        · exact hmem'

/-! ### Sets -/

/-- The number of a symbol in a grammar. -/
abbrev SymbolId := Nat


/-- A finite set of symbols. -/
structure SymbolSet where
  members : List SymbolId
  ascending : members.Pairwise (· < ·)
  deriving DecidableEq

namespace SymbolSet

instance : Membership SymbolId SymbolSet where
  mem s i := i ∈ s.members

instance (i : SymbolId) (s : SymbolSet) : Decidable (i ∈ s) :=
  inferInstanceAs (Decidable (i ∈ s.members))

/-- Whether a symbol is in a set. -/
def contains (s : SymbolSet) (i : SymbolId) : Bool :=
  decide (i ∈ s)

/-- The set without members. -/
def empty : SymbolSet :=
  ⟨[], List.Pairwise.nil⟩

instance : EmptyCollection SymbolSet := ⟨empty⟩

/-- The set with one more member. -/
def insert (s : SymbolSet) (i : SymbolId) : SymbolSet :=
  ⟨insertAscending i s.members, pairwise_insertAscending s.ascending⟩

/-- The set with several more members. -/
def insertMany (s : SymbolSet) (l : List SymbolId) : SymbolSet :=
  l.foldl insert s

/-- The set of the members of a list. -/
def ofList (l : List SymbolId) : SymbolSet :=
  insertMany ∅ l

/-- The set whose only member is `i`. -/
def singleton (i : SymbolId) : SymbolSet :=
  insert ∅ i

/-- The set of the symbols that are in one of two sets. -/
def union (s t : SymbolSet) : SymbolSet :=
  s.insertMany t.members

instance : Union SymbolSet := ⟨union⟩

/-- Whether all members of `s` are in `t`. -/
def isSubset (s t : SymbolSet) : Bool :=
  s.members.all t.contains

/-- The number of members. -/
def size (s : SymbolSet) : Nat :=
  s.members.length

/-- Whether there are no members. -/
def isEmpty (s : SymbolSet) : Bool :=
  s.members.isEmpty

/-- Whether `after` has more members than `before`. -/
def grew (before after : SymbolSet) : Bool :=
  decide (before.size < after.size)

/-- Sets are ordered as the ascending lists of their members, the first difference
counting. -/
instance : Ord SymbolSet where
  compare := compareOn members

/-! ### Membership -/

theorem mem_def {i : SymbolId} {s : SymbolSet} :
  i ∈ s ↔ i ∈ s.members
  := Iff.rfl

@[simp]
theorem not_mem_empty (i : SymbolId) :
  i ∉ (∅ : SymbolSet)
  := List.not_mem_nil

@[simp]
theorem mem_insert {i j : SymbolId} {s : SymbolSet} :
  j ∈ s.insert i ↔ j = i ∨ j ∈ s
  := mem_insertAscending

@[simp]
theorem mem_insertMany {j : SymbolId} {l : List SymbolId} {s : SymbolSet} :
  j ∈ s.insertMany l ↔ j ∈ s ∨ j ∈ l
  := by
  unfold insertMany
  induction l generalizing s with
  | nil => simp
  | cons i rest ih => simp [ih, or_assoc, or_left_comm]

@[simp]
theorem mem_ofList {j : SymbolId} {l : List SymbolId} :
  j ∈ ofList l ↔ j ∈ l
  := by simp [ofList]

@[simp]
theorem mem_singleton {i j : SymbolId} :
  j ∈ singleton i ↔ j = i
  := by simp [singleton]

@[simp]
theorem mem_union {j : SymbolId} {s t : SymbolSet} :
  j ∈ s ∪ t ↔ j ∈ s ∨ j ∈ t
  := mem_insertMany

@[simp]
theorem contains_iff {i : SymbolId} {s : SymbolSet} :
  s.contains i = true ↔ i ∈ s
  := by simp [contains]

@[simp]
theorem isSubset_iff {s t : SymbolSet} :
  s.isSubset t = true ↔ ∀ i ∈ s, i ∈ t
  := by simp [isSubset, mem_def]

/-- A set is determined by its members. -/
@[ext]
theorem ext {s t : SymbolSet} (h : ∀ i, i ∈ s ↔ i ∈ t) :
  s = t
  := by
  obtain ⟨l, hl⟩ := s
  obtain ⟨l', hl'⟩ := t
  obtain rfl := eq_of_ascending hl hl' h
  rfl

end SymbolSet

end ShiftReduce
