import ShiftReduce.Grammar.SymbolSet

/-!
# Sets of symbols in bits

The numbers of symbols have 16 bits, and a set of them can be kept as a vector of bits, one bit
for each number below the length of the vector.  The vectors themselves are kept by a library,
which is a parameter here; what it promises is said in `BitLibrary.Lawful`.  Vectors with the
same bits set may have different lengths, so sets are compared by their members.
-/

namespace ShiftReduce

/-! ### Vectors of bits -/

/-- The places of the bits that are set in a vector whose first bit has the place `start`. -/
def placesFrom (start : Nat) : List Bool → List Nat
  | [] => []
  | true :: rest => start :: placesFrom (start + 1) rest
  | false :: rest => placesFrom (start + 1) rest

/-- What a library for sets of numbers in bits provides. -/
structure BitLibrary where
  Bits : Type
  /-- The bits of a set in the order of their places. -/
  vector : Bits → List Bool
  empty : Bits
  ofList : List Nat → Bits
  insert : Bits → Nat → Bits × Bool
  union : Bits → Bits → Bits
  contains : Bits → Nat → Bool
  isSubset : Bits → Bits → Bool
  isEmpty : Bits → Bool
  size : Bits → Nat
  members : Bits → List Nat

namespace BitLibrary

/-- The bit of a number is there and it is set. -/
def Has (library : BitLibrary) (bits : library.Bits) (i : Nat) : Prop :=
  (library.vector bits)[i]? = some true

/-- A library keeps sets correctly: each operation sets the bits of what it puts in and no other
ones, the tests tell which bits are set, and the members are found by going through the vector
from its first bit to its last. -/
structure Lawful (library : BitLibrary) : Prop where
  empty : ∀ i, ¬ library.Has library.empty i
  ofList : ∀ l i, library.Has (library.ofList l) i ↔ i ∈ l
  insert : ∀ s i j, library.Has (library.insert s i).1 j ↔ j = i ∨ library.Has s j
  isNew : ∀ s i, (library.insert s i).2 = true ↔ ¬ library.Has s i
  union : ∀ s t i, library.Has (library.union s t) i ↔ library.Has s i ∨ library.Has t i
  contains : ∀ s i, library.contains s i = true ↔ library.Has s i
  isSubset : ∀ s t, library.isSubset s t = true ↔ ∀ i, library.Has s i → library.Has t i
  isEmpty : ∀ s, library.isEmpty s = true ↔ ∀ i, ¬ library.Has s i
  size : ∀ s, library.size s = (library.vector s).count true
  members : ∀ s, library.members s = placesFrom 0 (library.vector s)

end BitLibrary

/-! ### Sets in bits -/

/-- A set of symbols with the numbers of its members in bits. -/
structure BitSet (library : BitLibrary) where
  bits : library.Bits

namespace BitSet

variable {library : BitLibrary}

/-- The set without members. -/
def empty : BitSet library :=
  ⟨library.empty⟩

/-- The set of the members of a list. -/
def ofList (ids : List UInt16) : BitSet library :=
  ⟨library.ofList (ids.map UInt16.toNat)⟩

/-- The set with one more member, and whether it is new. -/
def insert (s : BitSet library) (id : UInt16) : BitSet library × Bool :=
  let (bits, isNew) := library.insert s.bits id.toNat
  (⟨bits⟩, isNew)

/-- The set with several more members. -/
def extend (s : BitSet library) (ids : List UInt16) : BitSet library :=
  ids.foldl (fun s id => (s.insert id).1) s

/-- The set of the members of both sets, and whether there are more than those of the first. -/
def union (s t : BitSet library) : BitSet library × Bool :=
  let bits := library.union s.bits t.bits
  (⟨bits⟩, library.size bits ≠ library.size s.bits)

/-- Whether a symbol is in the set. -/
def contains (s : BitSet library) (id : UInt16) : Bool :=
  library.contains s.bits id.toNat

/-- Whether all members of `s` are in `t`. -/
def isSubset (s t : BitSet library) : Bool :=
  library.isSubset s.bits t.bits

/-- The number of members. -/
def size (s : BitSet library) : Nat :=
  library.size s.bits

/-- Whether there are no members. -/
def isEmpty (s : BitSet library) : Bool :=
  library.isEmpty s.bits

/-- The members as they are found, each cut off to 16 bits. -/
def members (s : BitSet library) : List UInt16 :=
  (library.members s.bits).map UInt16.ofNat

/-- Whether two sets have the same members. -/
def same (s t : BitSet library) : Bool :=
  s.members = t.members

/-- Sets are ordered as the lists of their members, the first difference counting. -/
instance : Ord (BitSet library) where
  compare := compareOn members

/-- A hash takes in the members one after the other. -/
def hash {H : Type} (take : H → UInt16 → H) (initial : H) (s : BitSet library) : H :=
  s.members.foldl take initial

end BitSet

end ShiftReduce
