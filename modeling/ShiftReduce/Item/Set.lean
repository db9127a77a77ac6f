import ShiftReduce.Item.Basic

/-!
# Sets of items

A set of items holds at most one item for each core, and is written as the list of its
items in the order of their cores.  So two sets with the same items are equal, and two sets
with the same cores have them in the same places.

The closure of a list of items is the least set that contains them and the items that its
own items call for.  It is reached from below, in rounds that add everything the present
items call for, until nothing is added any more.
-/

namespace ShiftReduce

/-! ### Ascending lists of items -/

/-- Puts an item in its place in an ascending list; where there is an item with the same
core already, that one gets its lookaheads. -/
def insertItem (item : Item) : List Item → List Item
  | [] => [item]
  | other :: rest =>
    if item.core < other.core then item :: other :: rest
    else if item.core = other.core then
      ⟨other.core, other.lookaheads ∪ item.lookaheads⟩ :: rest
    else other :: insertItem item rest

theorem core_mem_insertItem {item other : Item} {l : List Item}
    (h : other ∈ insertItem item l) :
  other.core = item.core ∨ ∃ x ∈ l, other.core = x.core
  := by
  induction l with
  | nil =>
    left
    simp_all [insertItem]
  | cons first rest ih =>
    unfold insertItem at h
    split at h
    · rcases List.mem_cons.mp h with rfl | h
      · exact .inl rfl
      · exact .inr ⟨other, h, rfl⟩
    · split at h
      · rename_i heq
        rcases List.mem_cons.mp h with rfl | h
        · exact .inl heq.symm
        · exact .inr ⟨other, List.mem_cons_of_mem _ h, rfl⟩
      · rcases List.mem_cons.mp h with rfl | h
        · exact .inr ⟨other, List.mem_cons_self, rfl⟩
        · rcases ih h with h | ⟨x, hx, h⟩
          · exact .inl h
          · exact .inr ⟨x, List.mem_cons_of_mem _ hx, h⟩

theorem pairwise_insertItem {item : Item} {l : List Item}
    (h : l.Pairwise fun a b => a.core < b.core) :
  (insertItem item l).Pairwise fun a b => a.core < b.core
  := by
  induction l with
  | nil => simp [insertItem]
  | cons first rest ih =>
    obtain ⟨hfirst, hrest⟩ := List.pairwise_cons.mp h
    unfold insertItem
    split
    · rename_i hlt
      refine List.pairwise_cons.mpr ⟨?_, h⟩
      intro x hx
      rcases List.mem_cons.mp hx with rfl | hx
      · exact hlt
      · exact Core.lt_trans hlt (hfirst x hx)
    · split
      · exact List.pairwise_cons.mpr ⟨hfirst, hrest⟩
      · rename_i hnlt hne
        refine List.pairwise_cons.mpr ⟨?_, ih hrest⟩
        intro x hx
        rcases core_mem_insertItem hx with hx | ⟨y, hy, hx⟩
        · rw [hx]
          exact Core.lt_of_not_lt hnlt hne
        · rw [hx]
          exact hfirst y hy

/-! ### Sets -/

/-- A finite set of items with different cores. -/
structure ItemSet where
  items : List Item
  ascending : items.Pairwise fun a b => a.core < b.core
  deriving DecidableEq

namespace ItemSet

/-- The set without items. -/
def empty : ItemSet :=
  ⟨[], List.Pairwise.nil⟩

instance : EmptyCollection ItemSet := ⟨empty⟩

/-- The set with one more item. -/
def add (s : ItemSet) (item : Item) : ItemSet :=
  ⟨insertItem item s.items, pairwise_insertItem s.ascending⟩

/-- The set with several more items. -/
def addMany (s : ItemSet) (l : List Item) : ItemSet :=
  l.foldl add s

/-- The set of the items of a list, where items with the same core become one. -/
def ofList (l : List Item) : ItemSet :=
  addMany ∅ l

/-- The number of items. -/
def size (s : ItemSet) : Nat :=
  s.items.length

/-- The cores of the items, in ascending order. -/
def cores (s : ItemSet) : List Core :=
  s.items.map Item.core

/-- The lookaheads of the item with a core. -/
def lookaheads? (s : ItemSet) (core : Core) : Option SymbolSet :=
  (s.items.find? fun item => item.core = core).map Item.lookaheads

/-- Whether two sets have the same cores. -/
def sameCores (s t : ItemSet) : Bool :=
  s.cores = t.cores

/-- Whether two sets have the same cores and the lookaheads of each item of `s` are among
those of the item of `t` with the same core. -/
def isSubset (s t : ItemSet) : Bool :=
  s.sameCores t &&
    (s.items.zip t.items).all fun (a, b) => a.lookaheads.isSubset b.lookaheads

/-- The set with the lookaheads of both, if they have the same cores. -/
def merge (s t : ItemSet) : Except ItemError ItemSet :=
  if s.sameCores t then .ok (s.addMany t.items) else .error .coreMismatch

/-! ### Closure -/

/-- One round: the set with the items that its items call for. -/
def expand (g : Grammar) (s : ItemSet) : ItemSet :=
  s.addMany (s.items.flatMap (Item.predicted g))

/-- The number of rounds a closure may take.  Each round but the last adds an item or a
lookahead; the items have the cores of the kernel or are rules with the dot at the front,
and the lookaheads are symbols of the grammar or lookaheads of the kernel. -/
def maxRounds (g : Grammar) (kernel : List Item) : Nat :=
  let cores := kernel.length + g.rules.size + 1
  let lookaheads := g.symbolCount + (kernel.flatMap fun item => item.lookaheads.members).length
  cores * (lookaheads + 1) + 1

/-- The least set that contains the items of `kernel` and what its own items call for. -/
def closure (g : Grammar) (kernel : List Item) : ItemSet :=
  stabilize (expand g) (maxRounds g kernel) (ofList kernel)

/-! ### Transitions -/

/-- The symbols that are right after a dot, in the order of the items. -/
def nextSymbols (g : Grammar) (s : ItemSet) : List SymbolId :=
  (s.items.filterMap (Item.next? g)).eraseDups

/-- The items in which the dot has been moved over a symbol. -/
def advance (g : Grammar) (s : ItemSet) (i : SymbolId) : List Item :=
  (s.items.filter fun item => item.next? g = some i).map Item.advance

/-- The closure of the items in which the dot has been moved over a symbol. -/
def goto (g : Grammar) (s : ItemSet) (i : SymbolId) : ItemSet :=
  closure g (s.advance g i)

/-- A set of items as text, one item on a line. -/
def display (g : Grammar) (s : ItemSet) : String :=
  Text.lines (s.items.map fun item => "- " ++ item.display g)

end ItemSet

end ShiftReduce
