import ShiftReduce.Proofs.Regex.Language
import ShiftReduce.Regex.Combination
import Mathlib.Data.List.SplitBy

/-!
# What combinations are made of

Concatenation, alternation and repetition take expressions apart and put the parts together
again.  On the way no part comes in that had not been there, except for sets; so the bounds of
repetitions stay in order (`bounded_alternation`).  And what comes of a concatenation or an
alternation is put together of its parts in the one way in which `ofParts` does it
(`Normal`).
-/

namespace ShiftReduce.Regex

variable {r : Regex} {l : List Regex}

/-! ### Parts -/

/-- A part has no other parts. -/
theorem parts_of_mem_parts {part : Regex} (h : part ∈ r.parts) :
  part.parts = [part]
  := by
  induction r with
  | empty => cases h
  | sequence r s ihr ihs =>
      rcases List.mem_append.mp h with h | h
      · exact ihr h
      · exact ihs h
  | _ =>
      obtain rfl := List.mem_singleton.mp h
      rfl

theorem ofParts_cons (r : Regex) {rest : List Regex} (hrest : rest ≠ []) :
  ofParts (r :: rest) = .sequence r (ofParts rest)
  := by
  cases rest with
  | nil => exact absurd rfl hrest
  | cons => rfl

theorem parts_ofParts (h : ∀ r ∈ l, r.parts = [r]) :
  (ofParts l).parts = l
  := by
  induction l with
  | nil => rfl
  | cons r rest ih =>
      have hr := h r List.mem_cons_self
      cases rest with
      | nil => exact hr
      | cons s rest =>
          rw [ofParts_cons r (List.cons_ne_nil s rest), parts, hr,
            ih fun t ht => h t (List.mem_cons_of_mem r ht)]
          rfl

/-- An expression that is put together of its parts as `ofParts` does it. -/
def Normal (r : Regex) : Prop :=
  ofParts r.parts = r

theorem normal_ofParts (h : ∀ r ∈ l, r.parts = [r]) :
  (ofParts l).Normal
  := by rw [Normal, parts_ofParts h]

theorem normal_concatenation (l : List Regex) :
  (concatenation l).Normal
  := by
  apply normal_ofParts
  intro part hpart
  obtain ⟨r, -, hr⟩ := List.mem_flatMap.mp hpart
  exact parts_of_mem_parts hr

/-! ### Branches -/

theorem branches_ne_nil (r : Regex) :
  r.branches ≠ []
  := by
  induction r with
  | either r s ihr ihs =>
      intro h
      exact ihr (List.append_eq_nil_iff.mp h).1
  | _ => apply List.cons_ne_nil

/-- If there is but one branch, it is the expression itself. -/
theorem eq_of_branches_eq {s : Regex} (h : r.branches = [s]) :
  r = s
  := by
  cases r with
  | either r' s' =>
      have hlength := congrArg List.length h
      have hr := List.length_pos_iff.mpr (branches_ne_nil r')
      have hs := List.length_pos_iff.mpr (branches_ne_nil s')
      rw [branches, List.length_append, List.length_singleton] at hlength
      omega
  | _ => exact List.singleton_inj.mp h

theorem flatMap_branches_eq_singleton (h : l.flatMap branches = [r]) :
  l = [r]
  := by
  cases l with
  | nil => cases h
  | cons s rest =>
      rw [List.flatMap_cons] at h
      rcases List.append_eq_singleton_iff.mp h with ⟨hs, -⟩ | ⟨hs, hrest⟩
      · exact absurd hs (branches_ne_nil s)
      · cases rest with
        | nil => rw [eq_of_branches_eq hs]
        | cons t rest =>
            rw [List.flatMap_cons] at hrest
            exact absurd (List.append_eq_nil_iff.mp hrest).1 (branches_ne_nil t)

theorem normal_ofBranches (hl : l.length ≠ 1) :
  (ofBranches l).Normal
  := by
  match l with
  | [] => rfl
  | [_] => exact absurd rfl hl
  | _ :: _ :: _ => rfl

theorem normal_alternationWithin {size : Nat} (hsize : 0 < size)
    (h : ∀ r, l = [r] → r.Normal) :
  (alternationWithin size l).Normal
  := by
  obtain ⟨n, rfl⟩ := Nat.exists_eq_add_one.mpr hsize
  unfold alternationWithin
  split
  · rename_i r hr
    exact h r (flatMap_branches_eq_singleton hr)
  · rename_i hmany
    split
    · rfl
    · split
      · apply normal_ofBranches
        intro hlength
        obtain ⟨r, hr⟩ := List.length_eq_one_iff.mp hlength
        exact hmany r hr
      · apply normal_concatenation

theorem le_foldl_width (l : List Regex) (size : Nat) :
  size ≤ l.foldl (fun size r => size + r.width) size
  := by
  induction l generalizing size with
  | nil => apply Nat.le_refl
  | cons r rest ih => exact Nat.le_trans (Nat.le_add_right size r.width) (ih _)

/-- An alternation is normal unless it has but one branch that is not. -/
theorem normal_alternation (h : ∀ r, l = [r] → r.Normal) :
  (alternation l).Normal
  := normal_alternationWithin (le_foldl_width l 1) h

/-! ### What branches begin with -/

theorem mem_commonStart {α : Type} [DecidableEq α] {l m : List α} {x : α}
    (h : x ∈ commonStart l m) :
  x ∈ l
  := by
  obtain ⟨⟨y, z⟩, hmem, rfl⟩ := List.mem_map.mp h
  exact (List.of_mem_zip (List.takeWhile_subset _ hmem)).1

theorem mem_foldl_commonStart {α : Type} [DecidableEq α] {first : List α}
    {others : List (List α)} {x : α} (h : x ∈ others.foldl commonStart first) :
  x ∈ first
  := by
  induction others generalizing first with
  | nil => exact h
  | cons other others ih => exact mem_commonStart (ih h)

/-- What the branches begin with is made of elements of the first one. -/
theorem mem_sharedStart {element : List Regex} (h : element ∈ sharedStart l) :
  ∃ r ∈ l, element ∈ r.elements
  := by
  unfold sharedStart at h
  dsimp only at h
  split at h
  · cases l with
    | nil => cases h
    | cons r rest => exact ⟨r, List.mem_cons_self, mem_foldl_commonStart h⟩
  · cases h

/-- What the branches begin with is made of parts. -/
theorem exists_mem_flatten_sharedStart (h : sharedStart l ≠ []) :
  ∃ part ∈ (sharedStart l).flatten, part.parts = [part]
  := by
  obtain ⟨element, hmem⟩ := List.exists_mem_of_ne_nil _ h
  obtain ⟨r, -, helement⟩ := mem_sharedStart hmem
  obtain ⟨part, hpart⟩ := List.exists_mem_of_ne_nil element (List.ne_nil_of_mem_splitBy helement)
  use part, List.mem_flatten_of_mem hmem hpart
  apply parts_of_mem_parts (r := r)
  rw [← List.flatten_splitBy (fun r s => r.isCharacter && s.isCharacter) r.parts]
  exact List.mem_flatten_of_mem helement hpart

/-! ### Alternations of one expression -/

/-- A branch has no other branches. -/
theorem branches_of_mem_branches {branch : Regex} (h : branch ∈ r.branches) :
  branch.branches = [branch]
  := by
  induction r with
  | either r s ihr ihs =>
      rcases List.mem_append.mp h with h | h
      · exact ihr h
      · exact ihs h
  | _ =>
      obtain rfl := List.mem_singleton.mp h
      rfl

theorem branches_ofBranches (hl : l ≠ []) (h : ∀ r ∈ l, r.branches = [r]) :
  (ofBranches l).branches = l
  := by
  induction l with
  | nil => exact absurd rfl hl
  | cons r rest ih =>
      have ⟨hr, hrest⟩ := List.forall_mem_cons.mp h
      cases rest with
      | nil => exact hr
      | cons s rest =>
          rw [ofBranches, branches, hr, ih (List.cons_ne_nil s rest) hrest]
          · rfl
          · exact List.cons_ne_nil s rest

/-- Nothing simpler can be made of the branches of an expression. -/
def Settled (r : Regex) : Prop :=
  r.branches = [r]
    ∨ mergedSet? r.branches = none ∧ sharedStart r.branches = [] ∧ ofBranches r.branches = r

/-- The alternation of one expression of which nothing simpler can be made is this expression. -/
theorem alternation_singleton (h : r.Settled) :
  alternation [r] = r
  := by
  obtain ⟨n, hn⟩ := Nat.exists_eq_add_one.mpr (le_foldl_width [r] 1)
  rw [alternation, hn, alternationWithin, List.flatMap_singleton]
  rcases h with hbranches | ⟨hmerged, hshared, hbranches⟩
  · rw [hbranches]
  · split
    · rename_i hone
      exact (eq_of_branches_eq hone).symm
    · rw [hmerged, hshared]
      exact hbranches

theorem parts_ofBranches_ne_nil (hl : l.length ≠ 1) :
  (ofBranches l).parts ≠ []
  := by
  match l with
  | [] => exact List.cons_ne_nil _ _
  | [_] => exact absurd rfl hl
  | _ :: _ :: _ => exact List.cons_ne_nil _ _

theorem parts_concatenation (l : List Regex) :
  (concatenation l).parts = l.flatMap parts
  := by
  apply parts_ofParts
  intro part hpart
  obtain ⟨r, -, hr⟩ := List.mem_flatMap.mp hpart
  exact parts_of_mem_parts hr

/-- Of several expressions no alternation is empty. -/
theorem parts_alternationWithin_ne_nil {size : Nat} (hl : 1 < l.length) :
  (alternationWithin size l).parts ≠ []
  := by
  cases size with
  | zero => exact parts_ofBranches_ne_nil (Nat.ne_of_gt hl)
  | succ n =>
      unfold alternationWithin
      split
      · rename_i r hr
        rw [flatMap_branches_eq_singleton hr] at hl
        cases Nat.lt_irrefl 1 hl
      · rename_i hmany
        split
        · exact List.cons_ne_nil _ _
        · split
          · apply parts_ofBranches_ne_nil
            intro hlength
            obtain ⟨r, hr⟩ := List.length_eq_one_iff.mp hlength
            exact hmany r hr
          · rename_i hshared
            obtain ⟨part, hpart, hparts⟩ := exists_mem_flatten_sharedStart hshared
            rw [parts_concatenation]
            apply List.ne_nil_of_mem (a := part)
            rw [List.mem_flatMap]
            use part, List.mem_append_left _ hpart
            rw [hparts]
            exact List.mem_singleton_self part

/-- A concatenation of two things that are not empty has no branches. -/
theorem branches_concatenation {first : List Regex} {last part : Regex} (hpart : part ∈ first)
    (hparts : part.parts = [part]) (hlast : last.parts ≠ []) :
  (concatenation (first ++ [last])).branches = [concatenation (first ++ [last])]
  := by
  have hfirst : first.flatMap parts ≠ [] := by
    apply List.ne_nil_of_mem (a := part)
    rw [List.mem_flatMap]
    use part, hpart
    rw [hparts]
    exact List.mem_singleton_self part
  rw [concatenation, List.flatMap_append, List.flatMap_singleton]
  obtain ⟨r, rest, hr⟩ := List.exists_cons_of_ne_nil hfirst
  rw [hr, List.cons_append, ofParts_cons r (List.append_ne_nil_of_right_ne_nil rest hlast)]
  rfl

/-- Nothing simpler can be made of an alternation. -/
theorem settled_alternationWithin {size : Nat} (hsize : 0 < size) :
  (alternationWithin size l).Settled
  := by
  obtain ⟨n, rfl⟩ := Nat.exists_eq_add_one.mpr hsize
  unfold alternationWithin
  split
  · rename_i r hr
    left
    apply branches_of_mem_branches (r := r)
    rw [flatMap_branches_eq_singleton hr, List.flatMap_singleton] at hr
    rw [hr]
    exact List.mem_singleton_self r
  · rename_i hmany
    split
    · exact .inl rfl
    · rename_i hmerged
      have hnil : l.flatMap branches ≠ [] := by
        intro hnil
        rw [hnil] at hmerged
        cases hmerged
      split
      · rename_i hshared
        right
        rw [branches_ofBranches hnil]
        · exact ⟨hmerged, hshared, rfl⟩
        · intro branch hbranch
          obtain ⟨r, -, hbranch⟩ := List.mem_flatMap.mp hbranch
          exact branches_of_mem_branches hbranch
      · rename_i hshared
        left
        obtain ⟨part, hpart, hparts⟩ := exists_mem_flatten_sharedStart hshared
        apply branches_concatenation hpart hparts
        apply parts_alternationWithin_ne_nil
        rw [List.length_map]
        apply Nat.lt_of_le_of_ne (List.length_pos_iff.mpr hnil)
        intro hlength
        obtain ⟨r, hr⟩ := List.length_eq_one_iff.mp hlength.symm
        exact hmany r hr

theorem settled_alternation (l : List Regex) :
  (alternation l).Settled
  := settled_alternationWithin (le_foldl_width l 1)

/-! ### Bounds -/

theorem bounded_iff_parts :
  r.Bounded ↔ ∀ part ∈ r.parts, part.Bounded
  := by
  induction r with
  | empty => simp [Bounded, parts]
  | sequence r s ihr ihs => simp only [Bounded, parts, ihr, ihs, List.forall_mem_append]
  | _ => simp [parts]

theorem bounded_ofParts (h : ∀ r ∈ l, r.Bounded) :
  (ofParts l).Bounded
  := by
  induction l with
  | nil => trivial
  | cons r rest ih =>
      have ⟨hr, hrest⟩ := List.forall_mem_cons.mp h
      cases rest with
      | nil => exact hr
      | cons s rest => exact ⟨hr, ih hrest⟩

theorem bounded_concatenation (h : ∀ r ∈ l, r.Bounded) :
  (concatenation l).Bounded
  := by
  apply bounded_ofParts
  intro part hpart
  obtain ⟨r, hr, hpart⟩ := List.mem_flatMap.mp hpart
  exact bounded_iff_parts.mp (h r hr) part hpart

theorem Bounded.branches (h : r.Bounded) :
  ∀ branch ∈ r.branches, branch.Bounded
  := by
  induction r with
  | either r s ihr ihs => exact List.forall_mem_append.mpr ⟨ihr h.1, ihs h.2⟩
  | _ => exact fun branch hbranch => List.mem_singleton.mp hbranch ▸ h

theorem bounded_ofBranches (h : ∀ r ∈ l, r.Bounded) :
  (ofBranches l).Bounded
  := by
  induction l with
  | nil => trivial
  | cons r rest ih =>
      have ⟨hr, hrest⟩ := List.forall_mem_cons.mp h
      cases rest with
      | nil => exact hr
      | cons s rest => exact ⟨hr, ih hrest⟩

/-- Elements are made of parts. -/
theorem Bounded.elements (h : r.Bounded) :
  ∀ part ∈ r.elements.flatten, part.Bounded
  := by
  rw [Regex.elements, List.flatten_splitBy]
  exact bounded_iff_parts.mp h

theorem bounded_alternationWithin {size : Nat} (h : ∀ r ∈ l, r.Bounded) :
  (alternationWithin size l).Bounded
  := by
  induction size generalizing l with
  | zero => exact bounded_ofBranches h
  | succ n ih =>
      have hbranches : ∀ r ∈ l.flatMap Regex.branches, r.Bounded := by
        intro branch hbranch
        obtain ⟨r, hr, hbranch⟩ := List.mem_flatMap.mp hbranch
        exact (h r hr).branches branch hbranch
      unfold alternationWithin
      split
      · rename_i r hr
        apply hbranches
        rw [hr]
        exact List.mem_singleton_self r
      · split
        · trivial
        · split
          · exact bounded_ofBranches hbranches
          · apply bounded_concatenation
            rw [List.forall_mem_append]
            constructor
            · -- what is shared stands in one of the branches
              intro part hpart
              obtain ⟨element, helement, hpart⟩ := List.mem_flatten.mp hpart
              obtain ⟨r, hr, hmem⟩ := mem_sharedStart helement
              exact (hbranches r hr).elements part (List.mem_flatten_of_mem hmem hpart)
            · rw [List.forall_mem_singleton]
              apply ih
              rw [List.forall_mem_map]
              intro r hr
              apply bounded_ofParts
              intro part hpart
              obtain ⟨element, helement, hpart⟩ := List.mem_flatten.mp hpart
              exact (hbranches r hr).elements part
                (List.mem_flatten_of_mem (List.mem_of_mem_drop helement) hpart)

theorem bounded_alternation (h : ∀ r ∈ l, r.Bounded) :
  (alternation l).Bounded
  := bounded_alternationWithin h

theorem Bounded.repeated (h : r.Bounded) {least : Nat} {most : Option Nat}
    (hmost : ∀ m ∈ most, least ≤ m) (greedy : Bool) :
  (r.repeated least most greedy).Bounded
  := by
  unfold Regex.repeated
  split
  rename_i least' most' heq
  have hbounds : ∀ m ∈ most', least' ≤ m := by
    split at heq
    · cases heq
      cases most with
      | none => simp
      | some m =>
          have hle := hmost m rfl
          simp only [Option.getD_some, Option.mem_def, Option.some.injEq]
          omega
    · cases heq
      exact hmost
  split
  · trivial
  · split
    · exact h
    · exact ⟨h, hbounds⟩

end ShiftReduce.Regex
