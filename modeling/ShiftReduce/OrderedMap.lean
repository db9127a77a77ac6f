/-!
# Maps in order of insertion

A finite map that keeps its keys in the order in which they were first put in.  Each key is
there once, which is part of the type.
-/

namespace ShiftReduce

variable {α β : Type} [DecidableEq α]

/-! ### Lists of entries -/

/-- Replaces the value at a key, or appends the key if it is not there. -/
def alterEntries (key : α) (f : Option β → β) : List (α × β) → List (α × β)
  | [] => [(key, f none)]
  | (k, b) :: rest =>
    if k = key then (k, f (some b)) :: rest else (k, b) :: alterEntries key f rest

theorem keys_alterEntries (key : α) (f : Option β → β) (l : List (α × β)) :
  (alterEntries key f l).map Prod.fst
    = if key ∈ l.map Prod.fst then l.map Prod.fst else l.map Prod.fst ++ [key]
  := by
  induction l with
  | nil => simp [alterEntries]
  | cons entry rest ih =>
    obtain ⟨k, b⟩ := entry
    unfold alterEntries
    by_cases hk : k = key
    · simp [hk]
    · have hk' : ¬ key = k := fun h => hk h.symm
      simp only [hk, if_false, List.map_cons, ih, List.mem_cons, hk', false_or]
      split
      · rfl
      · rfl

theorem nodup_keys_alterEntries (key : α) (f : Option β → β) {l : List (α × β)}
    (h : (l.map Prod.fst).Nodup) :
  ((alterEntries key f l).map Prod.fst).Nodup
  := by
  rw [keys_alterEntries]
  split
  · exact h
  · rename_i hkey
    rw [List.nodup_append]
    refine ⟨h, List.pairwise_singleton _ _, ?_⟩
    intro a ha b hb
    obtain rfl := List.mem_singleton.mp hb
    rintro rfl
    exact hkey ha

/-! ### Maps -/

/-- A finite map from `α` to `β` whose keys are in the order of their insertion. -/
structure OrderedMap (α β : Type) where
  entries : List (α × β)
  distinct : (entries.map Prod.fst).Nodup

namespace OrderedMap

/-- The map without keys. -/
def empty : OrderedMap α β :=
  ⟨[], List.Pairwise.nil⟩

instance : EmptyCollection (OrderedMap α β) := ⟨empty⟩

/-- The number of keys. -/
def size (m : OrderedMap α β) : Nat :=
  m.entries.length

/-- The value at a key. -/
def get? (m : OrderedMap α β) (key : α) : Option β :=
  m.entries.lookup key

/-- The map whose value at a key is `f` of the former one. -/
def alter (m : OrderedMap α β) (key : α) (f : Option β → β) : OrderedMap α β :=
  ⟨alterEntries key f m.entries, nodup_keys_alterEntries key f m.distinct⟩

/-- The map whose value at a key is `value`. -/
def put (m : OrderedMap α β) (key : α) (value : β) : OrderedMap α β :=
  m.alter key fun _ => value

/-- The map without a key. -/
def erase (m : OrderedMap α β) (key : α) : OrderedMap α β :=
  ⟨m.entries.filter fun entry => entry.1 ≠ key,
    List.Pairwise.sublist (List.Sublist.map Prod.fst List.filter_sublist) m.distinct⟩

theorem lookup_alterEntries (key : α) (f : Option β → β) (l : List (α × β)) (k : α) :
  (alterEntries key f l).lookup k
    = if k = key then some (f (l.lookup key)) else l.lookup k
  := by
  induction l with
  | nil =>
    unfold alterEntries
    by_cases h : k = key
    · simp [h]
    · have hbeq : (k == key) = false := by simpa using h
      simp [List.lookup_cons, h, hbeq]
  | cons entry rest ih =>
    obtain ⟨a, b⟩ := entry
    unfold alterEntries
    by_cases ha : a = key
    · subst ha
      by_cases hk : k = a
      · simp [hk]
      · have hbeq : (k == a) = false := by simpa using hk
        simp [List.lookup_cons, hk, hbeq]
    · have hkey : (key == a) = false := by simpa using Ne.symm ha
      by_cases hk : k = a
      · subst hk
        simp [ha]
      · have hbeq : (k == a) = false := by simpa using hk
        simp [List.lookup_cons, ha, hbeq, hkey, ih]

theorem get?_alter (m : OrderedMap α β) (key : α) (f : Option β → β) (k : α) :
  (m.alter key f).get? k = if k = key then some (f (m.get? key)) else m.get? k
  := lookup_alterEntries key f m.entries k

theorem get?_put (m : OrderedMap α β) (key : α) (value : β) (k : α) :
  (m.put key value).get? k = if k = key then some value else m.get? k
  := get?_alter m key _ k

end OrderedMap

end ShiftReduce
