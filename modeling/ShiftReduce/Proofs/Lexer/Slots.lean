import Mathlib.Data.List.Perm.Basic
import ShiftReduce.Lexer.Slots

/-!
# The occupants of labelled slots

What is in the slots after values have been put in and taken out, up to the order of the
slots: taking out the value under a label removes the occupant with this label, and putting
in a value adds one.  For this no two occupants may have the same label, and the places that
are listed as empty must be empty and listed once.
-/

namespace ShiftReduce

namespace Slots

variable {α : Type}

/-- The occupants other than those under a label. -/
def without (label : String) (occupants : List (Occupant α)) : List (Occupant α) :=
  occupants.filter fun occupant => occupant.label ≠ some label

/-- The slots have these occupants, no two of them under the same label, and their list of
empty places is right. -/
structure Holds (s : Slots α) (occupants : List (Occupant α)) : Prop where
  perm : (s.slots.filterMap id).Perm occupants
  labels : (occupants.filterMap Occupant.label).Nodup
  free : ∀ place ∈ s.free, s.slots[place]? = some none
  nodup : s.free.Nodup

/-! ### One place -/

/-- The occupants of a list of slots are those of one slot and those of the others. -/
theorem occupants_perm_of_getElem? {slots : List (Option (Occupant α))} {place : Nat}
    {slot : Option (Occupant α)} (h : slots[place]? = some slot) :
  (slots.filterMap id).Perm (slot.toList ++ (slots.eraseIdx place).filterMap id)
  := by
  obtain ⟨hplace, rfl⟩ := List.getElem?_eq_some_iff.mp h
  have hperm := ((List.getElem_cons_eraseIdx_perm hplace).symm).filterMap id
  cases hslot : slots[place] <;> simpa [hslot] using hperm

/-- The occupants after one slot has been set. -/
theorem occupants_set_perm {slots : List (Option (Occupant α))} {place : Nat}
    (h : place < slots.length) (slot : Option (Occupant α)) :
  ((slots.set place slot).filterMap id).Perm
    (slot.toList ++ (slots.eraseIdx place).filterMap id)
  := by
  have hperm := (List.set_perm_cons_eraseIdx h slot).filterMap id
  cases slot <;> simpa using hperm

/-- The place of a label has an occupant with this label. -/
theorem getElem?_of_place? {s : Slots α} {label : String} {place : Nat}
    (h : s.place? label = some place) :
  ∃ occupant, s.slots[place]? = some (some occupant) ∧ occupant.label = some label
  := by
  obtain ⟨hplace, hholds, -⟩ := List.findIdx?_eq_some_iff_getElem.mp h
  cases hslot : s.slots[place] with
  | none => simp [holds, hslot] at hholds
  | some occupant =>
    use occupant
    constructor
    · rw [List.getElem?_eq_getElem hplace, hslot]
    · simpa [holds, hslot] using hholds

/-! ### Taking out and putting in -/

namespace Holds

variable {s : Slots α} {occupants : List (Occupant α)}

/-- Values without labels occupy a slot each. -/
theorem ofList (values : List α) :
  (ofList values).Holds (values.map fun value => ⟨none, value⟩)
  where
  perm := by simp [Slots.ofList, List.filterMap_map]
  labels := by simp [List.filterMap_map]
  free := by simp [Slots.ofList]
  nodup := by simp [Slots.ofList]

/-- The values in the slots are those of the occupants. -/
theorem values (h : s.Holds occupants) :
  s.values.Perm (occupants.map Occupant.value)
  := by
  have hvalues : s.values = (s.slots.filterMap id).map Occupant.value := by
    simp [Slots.values, List.map_filterMap]
  rw [hvalues]
  apply h.perm.map

/-- A label is bound if an occupant has it. -/
theorem isBound_iff (h : s.Holds occupants) {label : String} :
  s.isBound label = true ↔ ∃ occupant ∈ occupants, occupant.label = some label
  := by
  have hmem : ∀ occupant, occupant ∈ occupants ↔ some occupant ∈ s.slots := by
    intro occupant
    simp [← h.perm.mem_iff]
  unfold isBound place?
  rw [List.findIdx?_isSome, List.any_eq_true]
  constructor
  · rintro ⟨slot, hslot, hholds⟩
    cases slot with
    | none => simp [Slots.holds] at hholds
    | some occupant =>
        exact ⟨occupant, (hmem occupant).mpr hslot, by simpa [Slots.holds] using hholds⟩
  · rintro ⟨occupant, hoccupant, hlabel⟩
    use some occupant, (hmem occupant).mp hoccupant
    simpa [Slots.holds] using hlabel

/-- Taking out the value under a label removes its occupant. -/
theorem erase (h : s.Holds occupants) (label : String) :
  (s.erase label).Holds (without label occupants)
  := by
  have hsub : (without label occupants).Sublist occupants := List.filter_sublist
  unfold Slots.erase
  cases hplace : s.place? label with
  | none =>
    have hnone : without label occupants = occupants := by
      apply List.filter_eq_self.mpr
      intro occupant hoccupant
      by_contra hlabel
      have hbound := h.isBound_iff.mpr ⟨occupant, hoccupant, by simpa using hlabel⟩
      simp [isBound, hplace] at hbound
    rw [hnone]
    exact h
  | some place =>
    obtain ⟨occupant, hslot, hlabel⟩ := getElem?_of_place? hplace
    have hlt : place < s.slots.length := (List.getElem?_eq_some_iff.mp hslot).1
    have hperm := h.perm.symm.trans (occupants_perm_of_getElem? hslot)
    -- no other occupant has the label, so the filter removes this one only
    have hothers : ((s.slots.eraseIdx place).filterMap id).filter
        (fun occupant => occupant.label ≠ some label) =
          (s.slots.eraseIdx place).filterMap id := by
      have hnodup := ((hperm.filterMap Occupant.label).nodup_iff).mp h.labels
      simp only [Option.toList_some, List.singleton_append, List.filterMap_cons, hlabel,
        List.nodup_cons] at hnodup
      apply List.filter_eq_self.mpr
      intro other hother
      have hne : other.label ≠ some label := by
        intro hsame
        apply hnodup.1
        exact List.mem_filterMap.mpr ⟨other, hother, hsame⟩
      simpa using hne
    constructor
    · apply (occupants_set_perm hlt none).trans
      have hfiltered := hperm.filter fun occupant => occupant.label ≠ some label
      rw [List.filter_append, hothers] at hfiltered
      simpa [without, hlabel] using hfiltered.symm
    · exact (hsub.filterMap Occupant.label).nodup h.labels
    · intro free hfree
      rcases List.mem_cons.mp hfree with rfl | hfree
      · simp [hlt]
      · rw [List.getElem?_set]
        split
        · simp_all
        · exact h.free free hfree
    · have hnot : place ∉ s.free := by
        intro hmem
        simp [h.free place hmem] at hslot
      exact List.nodup_cons.mpr ⟨hnot, h.nodup⟩

/-- Putting a value under a label that is not bound adds an occupant. -/
theorem fill (h : s.Holds occupants) {label : String}
    (hfresh : ∀ occupant ∈ occupants, occupant.label ≠ some label) (value : α) :
  (s.fill label value).Holds (occupants ++ [⟨some label, value⟩])
  := by
  let added : Occupant α := ⟨some label, value⟩
  have hlabels : ((occupants ++ [added]).filterMap Occupant.label).Nodup := by
    rw [List.filterMap_append, List.nodup_append]
    use h.labels, by simp [added]
    intro other hother last hlast
    obtain ⟨occupant, hoccupant, hlabel⟩ := List.mem_filterMap.mp hother
    obtain rfl : last = label := by simpa [added] using hlast
    rintro rfl
    exact hfresh occupant hoccupant hlabel
  unfold Slots.fill
  split
  next hfree =>
    exact ⟨by simpa using h.perm.append_right _, hlabels, by simp, by simp⟩
  next place free hfree =>
    have hempty : s.slots[place]? = some none := h.free place (by simp [hfree])
    have hlt : place < s.slots.length := (List.getElem?_eq_some_iff.mp hempty).1
    have hnodup := h.nodup
    rw [hfree, List.nodup_cons] at hnodup
    constructor
    · apply (occupants_set_perm hlt _).trans
      apply List.Perm.trans _ (List.perm_append_singleton _ _).symm
      apply List.Perm.cons
      exact ((occupants_perm_of_getElem? hempty).symm).trans h.perm
    · exact hlabels
    · intro other hother
      have hne : place ≠ other := by
        rintro rfl
        exact hnodup.1 hother
      rw [List.getElem?_set_ne hne]
      exact h.free other (by simp [hfree, hother])
    · exact hnodup.2

/-- Putting a value under a label replaces its occupant. -/
theorem insert (h : s.Holds occupants) (label : String) (value : α) :
  (s.insert label value).Holds (without label occupants ++ [⟨some label, value⟩])
  := by
  apply (h.erase label).fill
  intro occupant hoccupant
  simpa [without] using (List.mem_filter.mp hoccupant).2

/-- A value that is put under a label that is not bound, and taken out, leaves the values
in their order. -/
theorem values_erase_insert (h : s.Holds occupants) {label : String}
    (hfresh : s.isBound label = false) (value : α) :
  ((s.insert label value).erase label).values = s.values
  := by
  have hnot : ∀ slot ∈ s.slots, holds label slot = false := by
    simpa [isBound, place?, List.findIdx?_isSome] using hfresh
  have hholds : holds label (some (⟨some label, value⟩ : Occupant α)) = true := by
    simp [Slots.holds]
  unfold Slots.insert
  rw [erase_of_not_isBound hfresh]
  unfold Slots.fill
  split
  next hfree =>
    have hplace : Slots.place? ⟨s.slots ++ [some ⟨some label, value⟩], []⟩ label =
        some s.slots.length := by
      apply List.findIdx?_eq_some_iff_getElem.mpr
      use by simp
      constructor
      · simpa using hholds
      · intro before hbefore
        rw [List.getElem_append_left hbefore]
        simpa using hnot _ (List.getElem_mem hbefore)
    simp [Slots.erase, hplace, Slots.values]
  next place free hfree =>
    have hempty : s.slots[place]? = some none := h.free place (by simp [hfree])
    obtain ⟨hlt, hnone⟩ := List.getElem?_eq_some_iff.mp hempty
    have hplace : Slots.place? ⟨s.slots.set place (some ⟨some label, value⟩), free⟩ label =
        some place := by
      apply List.findIdx?_eq_some_iff_getElem.mpr
      use by simpa using hlt
      constructor
      · simpa using hholds
      · intro before hbefore
        rw [List.getElem_set_ne (by omega)]
        simpa using hnot _ (List.getElem_mem _)
    have hset : s.slots.set place none = s.slots := by
      rw [← hnone, List.set_getElem_self]
    simp [Slots.erase, hplace, Slots.values, List.set_set, hset]

end Holds

end Slots

end ShiftReduce
