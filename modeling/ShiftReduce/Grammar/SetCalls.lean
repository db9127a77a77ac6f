import ShiftReduce.Grammar.BitSet

/-!
# Calls on sets of symbols

What can be done with sets of symbols is collected in an interface (`SymbolSets`), which is met by
sets in bits and by ascending lists.  A program makes calls on any number of sets, and each call
has an answer.
-/

namespace ShiftReduce

/-! ### Ways to keep sets -/

/-- A way to keep sets of symbols, with what can be done with them and with hashes of type `H`.
Inserting a member and joining another set also tell whether there is a new member. -/
structure SymbolSets (H : Type) where
  Set : Type
  empty : Set
  ofList : List UInt16 → Set
  insert : Set → UInt16 → Set × Bool
  extend : Set → List UInt16 → Set
  union : Set → Set → Set × Bool
  contains : Set → UInt16 → Bool
  isSubset : Set → Set → Bool
  size : Set → Nat
  isEmpty : Set → Bool
  members : Set → List UInt16
  same : Set → Set → Bool
  compare : Set → Set → Ordering
  hash : Set → H

/-- Sets in bits. -/
def BitSet.sets {H : Type} (library : BitLibrary) (take : H → UInt16 → H) (initial : H) :
    SymbolSets H where
  Set := BitSet library
  empty := empty
  ofList := ofList
  insert := insert
  extend := extend
  union := union
  contains := contains
  isSubset := isSubset
  size := size
  isEmpty := isEmpty
  members := members
  same := same
  compare := compare
  hash := hash take initial

/-- Sets as ascending lists. -/
def SymbolSet.sets {H : Type} (take : H → UInt16 → H) (initial : H) : SymbolSets H where
  Set := SymbolSet
  empty := ∅
  ofList ids := ofList (ids.map UInt16.toNat)
  insert s id := (s.insert id.toNat, s.grew (s.insert id.toNat))
  extend s ids := s.insertMany (ids.map UInt16.toNat)
  union s t := (s ∪ t, s.grew (s ∪ t))
  contains s id := s.contains id.toNat
  isSubset := isSubset
  size := size
  isEmpty := isEmpty
  members s := s.members.map UInt16.ofNat
  same s t := s = t
  compare := compare
  hash s := (s.members.map UInt16.ofNat).foldl take initial

/-- A call on sets that are known by their places in a list.  What makes a set puts it at the
end of the list. -/
inductive SetCall where
  | new
  | ofList (ids : List UInt16)
  | clone (k : Nat)
  | insert (k : Nat) (id : UInt16)
  | extend (k : Nat) (ids : List UInt16)
  | union (k j : Nat)
  | contains (k : Nat) (id : UInt16)
  | isSubset (k j : Nat)
  | size (k : Nat)
  | members (k : Nat)
  | compare (k j : Nat)
  | hash (k : Nat)

/-- The answer to a call. -/
inductive SetAnswer (H : Type) where
  | done
  /-- There is no set in a place. -/
  | missing
  | truth (b : Bool)
  | size (n : Nat) (isEmpty : Bool)
  | members (ids : List UInt16)
  | order (same : Bool) (order : Ordering)
  | hash (h : H)
  deriving DecidableEq

namespace SymbolSets

variable {H : Type} (kind : SymbolSets H)

/-- Answers a call about one of the sets, which may become another one. -/
def on (sets : List kind.Set) (k : Nat) (f : kind.Set → kind.Set × SetAnswer H) :
    List kind.Set × SetAnswer H :=
  match sets[k]? with
  | some s => (sets.set k (f s).1, (f s).2)
  | none => (sets, .missing)

/-- Answers a question about two of the sets. -/
def both (sets : List kind.Set) (k j : Nat) (f : kind.Set → kind.Set → kind.Set × SetAnswer H) :
    List kind.Set × SetAnswer H :=
  match sets[j]? with
  | some t => kind.on sets k fun s => f s t
  | none => (sets, .missing)

/-- The sets after a call, and its answer. -/
def answer (sets : List kind.Set) : SetCall → List kind.Set × SetAnswer H
  | .new => (sets ++ [kind.empty], .done)
  | .ofList ids => (sets ++ [kind.ofList ids], .done)
  | .clone k =>
    match sets[k]? with
    | some s => (sets ++ [s], .done)
    | none => (sets, .missing)
  | .insert k id => kind.on sets k fun s => ((kind.insert s id).1, .truth (kind.insert s id).2)
  | .extend k ids => kind.on sets k fun s => (kind.extend s ids, .done)
  | .union k j => kind.both sets k j fun s t => ((kind.union s t).1, .truth (kind.union s t).2)
  | .contains k id => kind.on sets k fun s => (s, .truth (kind.contains s id))
  | .isSubset k j => kind.both sets k j fun s t => (s, .truth (kind.isSubset s t))
  | .size k => kind.on sets k fun s => (s, .size (kind.size s) (kind.isEmpty s))
  | .members k => kind.on sets k fun s => (s, .members (kind.members s))
  | .compare k j => kind.both sets k j fun s t => (s, .order (kind.same s t) (kind.compare s t))
  | .hash k => kind.on sets k fun s => (s, .hash (kind.hash s))

/-- The answers to some calls, each made on the sets that the ones before have left. -/
def answers (sets : List kind.Set) : List SetCall → List (SetAnswer H)
  | [] => []
  | call :: rest => (kind.answer sets call).2 :: answers (kind.answer sets call).1 rest

end SymbolSets

end ShiftReduce
