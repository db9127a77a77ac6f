import ShiftReduce.Item.Passes

/-!
# Items with hashes

An item carries two hashes, one of its core and one of the whole item, and a set of items
carries two that are made from those of its items.  They are computed when the item or the set
is made.  When two of them are compared the hashes come first, and what they were made from is
looked at only if they agree.
-/

namespace ShiftReduce

/-- A way to hash: a state takes in one number after the other and ends up as a hash.  The
numbers of rules and symbols, the places of dots and other hashes may be taken in each in a way
of its own. -/
structure Hasher where
  State : Type
  initial : State
  takeNumber : State → Nat → State
  takePlace : State → Nat → State
  takeHash : State → UInt64 → State
  finish : State → UInt64

/-- A state is rotated before a number is joined to it, and is then multiplied. -/
def Hasher.rotating : Hasher :=
  let take (state number : UInt64) : UInt64 :=
    ((state <<< 5 ||| state >>> 59) ^^^ number) * 0x517cc1b727220a95
  { State := UInt64
    initial := 0
    takeNumber := fun state number => take state (.ofNat number)
    takePlace := fun state place => take state (.ofNat place)
    takeHash := take
    finish := id }

/-! ### Items -/

/-- An item with the hash of its core and the hash of all of it. -/
structure HashedItem where
  item : Item
  coreHash : UInt64
  hash : UInt64

namespace HashedItem

/-- The item with its hashes. -/
def ofItem (h : Hasher) (item : Item) : HashedItem :=
  let core := h.takePlace (h.takeNumber h.initial item.core.rule.rank) item.core.dot
  let coreHash := h.finish core
  let whole := item.lookaheads.members.foldl h.takeNumber (h.takeHash h.initial coreHash)
  ⟨item, coreHash, h.finish whole⟩

/-- Whether two items have the same core. -/
def sameCore (x y : HashedItem) : Bool :=
  x.coreHash = y.coreHash && x.item.core = y.item.core

/-- Whether two items have the same core and the same lookaheads. -/
def same (x y : HashedItem) : Bool :=
  x.hash = y.hash && x.sameCore y && x.item.lookaheads = y.item.lookaheads

/-- The item with the given parts and its hashes, on the conditions of `Item.make`. -/
def make (h : Hasher) (g : Grammar) (rule : RuleId) (dot : Nat) (lookaheads : SymbolSet) :
    Except ItemError HashedItem :=
  (Item.make g rule dot lookaheads).map (ofItem h)

/-- The item with the lookaheads of both, if they have the same core. -/
def merge (h : Hasher) (x y : HashedItem) : Except ItemError HashedItem :=
  if x.sameCore y then
    .ok (ofItem h ⟨x.item.core, x.item.lookaheads ∪ y.item.lookaheads⟩)
  else
    .error .coreMismatch

/-- The item with the dot moved over one symbol. -/
def advance (h : Hasher) (x : HashedItem) : HashedItem :=
  ofItem h x.item.advance

end HashedItem

/-! ### Sets of items -/

/-- The items of a set in the order of their cores, with the hash of the cores and the hash of
the items. -/
structure HashedSet where
  items : List HashedItem
  coreHash : UInt64
  hash : UInt64

namespace HashedSet

/-- The set of items that are in order, with the hashes made from theirs. -/
def ofSorted (h : Hasher) (items : List HashedItem) : HashedSet where
  items := items
  coreHash := h.finish (items.foldl (fun state x => h.takeHash state x.coreHash) h.initial)
  hash := h.finish (items.foldl (fun state x => h.takeHash state x.hash) h.initial)

/-- The set of items that have different cores, in whatever order they come. -/
def ofItems (h : Hasher) (items : List HashedItem) : HashedSet :=
  ofSorted h (items.mergeSort fun x y => ¬ y.item.core < x.item.core)

/-- Whether two sets have the same items. -/
def same (s t : HashedSet) : Bool :=
  s.hash = t.hash && s.items.length = t.items.length &&
    (s.items.zip t.items).all fun (x, y) => x.same y

/-- Whether two sets have items with the same cores. -/
def sameCores (s t : HashedSet) : Bool :=
  s.coreHash = t.coreHash && s.items.length = t.items.length &&
    (s.items.zip t.items).all fun (x, y) => x.sameCore y

/-- Whether two sets have the same cores and the lookaheads of each item of `s` are among those
of the item in the same place of `t`. -/
def isSubset (s t : HashedSet) : Bool :=
  s.sameCores t && (s.items.zip t.items).all fun (x, y) =>
    x.item.lookaheads.isSubset y.item.lookaheads

/-- The set with the items in the same places merged, if the two sets have the same cores. -/
def merge (h : Hasher) (s t : HashedSet) : Except ItemError HashedSet :=
  if s.sameCores t then
    ((s.items.zip t.items).mapM fun (x, y) => HashedItem.merge h x y).map (ofItems h)
  else
    .error .coreMismatch

/-- The items in which the dot has been moved over a symbol. -/
def advance (h : Hasher) (g : Grammar) (s : HashedSet) (i : SymbolId) : List HashedItem :=
  (s.items.filter fun x => x.item.next? g = some i).map (HashedItem.advance h)

/-- The closure of a kernel by passes. -/
def closure (h : Hasher) (g : Grammar) (kernel : List HashedItem) : Option HashedSet :=
  ((Gathering.pass g).saturate (Gathering.ofList (kernel.map HashedItem.item))).map fun m =>
    ofItems h (m.items.map (HashedItem.ofItem h))

end HashedSet

end ShiftReduce
