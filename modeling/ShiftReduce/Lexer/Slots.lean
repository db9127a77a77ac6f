/-!
# Labelled slots

A list of slots with values in them, some of which were put there under a label.  A label
has one value at a time.  When a value is taken out its slot stays, empty, and the slot
emptied last is the first one to be filled again; a new slot is made only if there is no
empty one.
-/

namespace ShiftReduce

/-- A value in a slot, with the label it was put there under, if any. -/
structure Occupant (α : Type) where
  label : Option String
  value : α

/-- The slots in order, and the places of the empty ones, the one emptied last first. -/
structure Slots (α : Type) where
  slots : List (Option (Occupant α))
  free : List Nat

namespace Slots

variable {α : Type}

/-- A slot for each of the values, without labels. -/
def ofList (values : List α) : Slots α :=
  ⟨values.map fun value => some ⟨none, value⟩, []⟩

/-- The values in the order of their slots. -/
def values (s : Slots α) : List α :=
  s.slots.filterMap fun slot => slot.map Occupant.value

/-- Whether a slot has a value that was put there under `label`. -/
def holds (label : String) (slot : Option (Occupant α)) : Bool :=
  slot.any fun occupant => occupant.label = some label

/-- The place of the value under `label`. -/
def place? (s : Slots α) (label : String) : Option Nat :=
  s.slots.findIdx? (holds label)

/-- Whether there is a value under `label`. -/
def isBound (s : Slots α) (label : String) : Bool :=
  (s.place? label).isSome

/-- Puts a value under a label into the slot emptied last, or else into a new one. -/
def fill (s : Slots α) (label : String) (value : α) : Slots α :=
  match s.free with
  | [] => ⟨s.slots ++ [some ⟨some label, value⟩], []⟩
  | place :: free => ⟨s.slots.set place (some ⟨some label, value⟩), free⟩

/-- Takes out the value under `label`, if there is one. -/
def erase (s : Slots α) (label : String) : Slots α :=
  match s.place? label with
  | none => s
  | some place => ⟨s.slots.set place none, place :: s.free⟩

/-- Puts a value under a label, in place of the one that was there. -/
def insert (s : Slots α) (label : String) (value : α) : Slots α :=
  (s.erase label).fill label value

/-! ### First facts -/

theorem values_ofList (values : List α) :
  (ofList values).values = values
  := by
  simp only [ofList, Slots.values, List.filterMap_map]
  exact List.filterMap_some

/-- Values put in without labels are under no label. -/
theorem place?_ofList (values : List α) (label : String) :
  (ofList values).place? label = none
  := by
  simp [place?, ofList, holds, List.findIdx?_eq_none_iff]

/-- Taking out what is not there changes nothing. -/
theorem erase_of_not_isBound {s : Slots α} {label : String} (h : s.isBound label = false) :
  s.erase label = s
  := by
  unfold isBound at h
  unfold erase
  cases hplace : s.place? label with
  | none => rfl
  | some place => simp [hplace] at h

end Slots

end ShiftReduce
