import Mathlib.Data.Set.Insert
import ShiftReduce.Regex.Basic

/-!
# What regular expressions describe

A regular expression describes the pairs of positions of a text between which it matches,
whichever way is preferred.  A stack of frames describes what its frames match one after the
other.  A frame that needs no character describes the same as the stacks that continue it
(`Frame.stackMatches_cons_iff`), so nothing is lost and nothing is gained when it is continued.
-/

namespace ShiftReduce.Regex

open Unicode (CodePoints)

/-! ### Bounds -/

/-- The bounds of all repetitions are in order. -/
def Bounded : Regex → Prop
  | empty => True
  | set _ => True
  | assertion _ => True
  | sequence r s => r.Bounded ∧ s.Bounded
  | either r s => r.Bounded ∧ s.Bounded
  | repetition r least most _ => r.Bounded ∧ ∀ m ∈ most, least ≤ m
  | group _ r => r.Bounded

/-! ### Rounds -/

namespace Iterates

variable {once : Nat → Nat → Prop} {n i j : Nat}

theorem zero_iff :
  Iterates once 0 i j ↔ i = j
  := by
  constructor
  · rintro ⟨⟩
    rfl
  · rintro rfl
    apply none

theorem succ_iff :
  Iterates once (n + 1) i j ↔ ∃ k, once i k ∧ Iterates once n k j
  := by
  constructor
  · intro h
    cases h with
    | more first later => exact ⟨_, first, later⟩
  · rintro ⟨k, first, later⟩
    apply more first later

/-- Any number of rounds is none, or one and then any number. -/
theorem exists_iff :
  (∃ n, Iterates once n i j) ↔ i = j ∨ ∃ k, once i k ∧ ∃ n, Iterates once n k j
  := by
  constructor
  · rintro ⟨n, h⟩
    cases h with
    | none => exact .inl rfl
    | more first later => exact .inr ⟨_, first, _, later⟩
  · rintro (rfl | ⟨k, first, n, later⟩)
    · exact ⟨0, .none i⟩
    · exact ⟨n + 1, .more first later⟩

/-- What a round respects any number of rounds respect. -/
theorem lift {R : Nat → Nat → Prop} (hrefl : ∀ i, R i i)
    (htrans : ∀ i j k, R i j → R j k → R i k)
    (honce : ∀ i j, once i j → R i j) (h : Iterates once n i j) :
  R i j
  := by
  induction h with
  | none i => apply hrefl
  | more first later ih => apply htrans _ _ _ (honce _ _ first) ih

end Iterates

/-! ### Where matches start and end -/

namespace Matches

variable {text : List Char} {r : Regex} {i j : Nat}

/-- A match does not end before it starts, and if it starts within the text it ends there. -/
theorem range (h : r.Matches text i j) :
  i ≤ j ∧ (i ≤ text.length → j ≤ text.length)
  := by
  induction r generalizing i j with
  | empty =>
      obtain rfl : i = j := h
      exact ⟨Nat.le_refl i, id⟩
  | set s =>
      obtain ⟨⟨c, hc, -⟩, rfl⟩ := h
      obtain ⟨hlt, -⟩ := List.getElem?_eq_some_iff.mp hc
      exact ⟨Nat.le_succ i, fun _ => hlt⟩
  | assertion a =>
      obtain ⟨-, rfl⟩ := h
      exact ⟨Nat.le_refl i, id⟩
  | sequence r s ihr ihs =>
      obtain ⟨k, hr, hs⟩ := h
      exact ⟨Nat.le_trans (ihr hr).1 (ihs hs).1, fun hi => (ihs hs).2 ((ihr hr).2 hi)⟩
  | either r s ihr ihs => exact h.elim ihr ihs
  | repetition r least most greedy ih =>
      obtain ⟨n, -, -, hrounds⟩ := h
      apply hrounds.lift (R := fun i j => i ≤ j ∧ (i ≤ text.length → j ≤ text.length))
      · intro i
        exact ⟨Nat.le_refl i, id⟩
      · intro i j k hij hjk
        exact ⟨Nat.le_trans hij.1 hjk.1, fun hi => hjk.2 (hij.2 hi)⟩
      · intro i j honce
        exact ih honce
  | group number r ih => exact ih h

/-- An expression that matches no characters ends where it starts. -/
theorem eq_of_matchesNoCharacters (hr : r.matchesNoCharacters = true) (h : r.Matches text i j) :
  i = j
  := by
  induction r generalizing i j with
  | empty => exact h
  | set s => cases hr
  | assertion a => exact h.2
  | sequence r s ihr ihs =>
      obtain ⟨hr, hs⟩ := Bool.and_eq_true_iff.mp hr
      obtain ⟨k, h, h'⟩ := h
      exact (ihr hr h).trans (ihs hs h')
  | either r s ihr ihs =>
      obtain ⟨hr, hs⟩ := Bool.and_eq_true_iff.mp hr
      exact h.elim (ihr hr) (ihs hs)
  | repetition r least most greedy ih =>
      obtain ⟨n, -, -, hrounds⟩ := h
      exact hrounds.lift (fun _ => rfl) (fun _ _ _ => Eq.trans) fun _ _ => ih hr
  | group number r ih => exact ih hr h

/-- An expression that holds to the start of the text does not match anywhere else in it. -/
theorem eq_zero (hr : r.holdsToStart = true) (h : r.Matches text i j) (hi : i ≤ text.length) :
  i = 0
  := by
  induction r generalizing i j with
  | empty => cases hr
  | set s => cases hr
  | assertion a =>
      obtain rfl : a = .textStart := by simpa [holdsToStart] using hr
      obtain ⟨hholds, -⟩ := h
      cases i with
      | zero => rfl
      | succ i =>
          simp only [Assertion.holds, charBefore, Option.isNone_iff_eq_none,
            List.getElem?_eq_none_iff] at hholds
          omega
  | sequence r s ihr ihs =>
      obtain ⟨k, hr', hs⟩ := h
      rcases Bool.or_eq_true_iff.mp hr with hr | hr
      · exact ihr hr hr' hi
      · obtain ⟨hnone, hs'⟩ := Bool.and_eq_true_iff.mp hr
        obtain rfl := hr'.eq_of_matchesNoCharacters hnone
        exact ihs hs' hs hi
  | either r s ihr ihs =>
      obtain ⟨hr, hs⟩ := Bool.and_eq_true_iff.mp hr
      exact h.elim (fun h => ihr hr h hi) fun h => ihs hs h hi
  | repetition r least most greedy ih =>
      obtain ⟨hleast, hr⟩ := Bool.and_eq_true_iff.mp hr
      obtain ⟨n, hn, -, hrounds⟩ := h
      cases hrounds with
      | none =>
          rw [Nat.le_zero.mp hn] at hleast
          cases hleast
      | more first later => exact ih hr first hi
  | group number r ih => exact ih hr h hi

end Matches

/-! ### Stacks -/

/-- A frame matches what is between two positions. -/
def Frame.Matches (text : List Char) : Frame → Nat → Nat → Prop
  | regex _ r, i, j => r.Matches text i j
  | rounds _ r _, i, j => ∃ n, Iterates (r.Matches text) n i j

/-- The frames of a stack match, one after the other, what is between two positions. -/
def StackMatches (text : List Char) : List Frame → Nat → Nat → Prop
  | [], i, j => i = j
  | frame :: rest, i, j => ∃ k, frame.Matches text i k ∧ StackMatches text rest k j

/-- The bounds of all repetitions of a frame are in order. -/
def Frame.Bounded : Frame → Prop
  | regex _ r => r.Bounded
  | rounds _ r _ => r.Bounded

variable {text : List Char} {rest : List Frame} {i j : Nat}

theorem stackMatches_regex_iff {place : Nat} {r : Regex} :
  StackMatches text (.regex place r :: rest) i j
    ↔ ∃ k, r.Matches text i k ∧ StackMatches text rest k j
  := Iff.rfl

theorem exists_mem_single {α : Type} {x : α} {P : α → Prop} :
  (∃ y ∈ [x], P y) ↔ P x
  := by simp

theorem mem_choose {α : Type} {greedy : Bool} {more fewer x : α} :
  x ∈ choose greedy more fewer ↔ x = more ∨ x = fewer
  := by
  cases greedy
  · simp [choose, or_comm]
  · simp [choose]

/-- Where both ways lead from a choice. -/
theorem exists_mem_choose {α : Type} {greedy : Bool} {more fewer : α} {P : α → Prop} :
  (∃ x ∈ choose greedy more fewer, P x) ↔ P fewer ∨ P more
  := by
  simp only [mem_choose, or_and_right, exists_or, exists_eq_left]
  apply or_comm

/-- A stack with further rounds on top matches without a round, or after one more round. -/
theorem stackMatches_rounds_iff {place place' : Nat} {r : Regex} {greedy : Bool} :
  StackMatches text (.rounds place r greedy :: rest) i j ↔ StackMatches text rest i j ∨
    StackMatches text (.regex place' r :: .rounds place r greedy :: rest) i j
  := by
  constructor
  · rintro ⟨k, hrounds, hrest⟩
    rcases Iterates.exists_iff.mp hrounds with rfl | ⟨k', first, later⟩
    · exact .inl hrest
    · exact .inr ⟨k', first, k, later, hrest⟩
  · rintro (hrest | ⟨k', first, k, later, hrest⟩)
    · exact ⟨i, Iterates.exists_iff.mpr (.inl rfl), hrest⟩
    · exact ⟨k, Iterates.exists_iff.mpr (.inr ⟨k', first, later⟩), hrest⟩

/-- A repetition matches after a first round exactly if what is left of it does. -/
theorem stackMatches_once_iff {place place' place'' : Nat} {r : Regex} {least : Nat}
    {most : Option Nat} {greedy : Bool} (hmost : ∀ m ∈ most, 0 < m) :
  StackMatches text
      (.regex place r :: .regex place' (repetition r least (most.map (· - 1)) greedy) :: rest) i j
    ↔ StackMatches text (.regex place'' (repetition r (least + 1) most greedy) :: rest) i j
  := by
  constructor
  · rintro ⟨k', first, k, ⟨n, hleast, hn, later⟩, hrest⟩
    refine ⟨k, ⟨n + 1, Nat.succ_le_succ hleast, ?_, .more first later⟩, hrest⟩
    rintro m hm
    have hpos := hmost m hm
    have hle := hn (m - 1) (Option.mem_map_of_mem _ hm)
    omega
  · rintro ⟨k, ⟨n, hleast, hn, hrounds⟩, hrest⟩
    obtain ⟨n, rfl⟩ : ∃ n', n = n' + 1 := Nat.exists_eq_add_one.mpr (by omega)
    obtain ⟨k', first, later⟩ := Iterates.succ_iff.mp hrounds
    refine ⟨k', first, k, ⟨n, Nat.le_of_succ_le_succ hleast, ?_, later⟩, hrest⟩
    intro m hm
    obtain ⟨m, hm', rfl⟩ := Option.map_eq_some_iff.mp hm
    have hle := hn m hm'
    omega

/-- A repetition that may be left out matches without a round, or if one round is required. -/
theorem stackMatches_optional_iff (place' : Nat) {place : Nat} {r : Regex}
    {most : Option Nat} {greedy : Bool} :
  StackMatches text (.regex place (repetition r 0 most greedy) :: rest) i j
    ↔ StackMatches text rest i j
      ∨ StackMatches text (.regex place' (repetition r 1 most greedy) :: rest) i j
  := by
  constructor
  · rintro ⟨k, ⟨n, -, hn, hrounds⟩, hrest⟩
    cases n with
    | zero =>
        obtain rfl := Iterates.zero_iff.mp hrounds
        exact .inl hrest
    | succ n => exact .inr ⟨k, ⟨n + 1, Nat.le_add_left 1 n, hn, hrounds⟩, hrest⟩
  · rintro (hrest | ⟨k, ⟨n, -, hn, hrounds⟩, hrest⟩)
    · exact ⟨i, ⟨0, Nat.le_refl 0, fun m _ => Nat.zero_le m, .none i⟩, hrest⟩
    · exact ⟨k, ⟨n, Nat.zero_le n, hn, hrounds⟩, hrest⟩

/-- A repetition without bounds matches as its rounds do. -/
theorem stackMatches_unbounded_iff (place place' : Nat) {r : Regex} {greedy : Bool} :
  StackMatches text (.regex place (repetition r 0 none greedy) :: rest) i j
    ↔ StackMatches text (.rounds place' r greedy :: rest) i j
  := by
  constructor
  · rintro ⟨k, ⟨n, -, -, hrounds⟩, hrest⟩
    exact ⟨k, ⟨n, hrounds⟩, hrest⟩
  · rintro ⟨k, ⟨n, hrounds⟩, hrest⟩
    exact ⟨k, ⟨n, Nat.zero_le n, nofun, hrounds⟩, hrest⟩

/-- A stack matches as another one with the same frame on top and equal matches below. -/
theorem stackMatches_cons_congr {frame : Frame} {rest' : List Frame}
    (h : ∀ k, StackMatches text rest k j ↔ StackMatches text rest' k j) :
  StackMatches text (frame :: rest) i j ↔ StackMatches text (frame :: rest') i j
  := by
  apply exists_congr
  intro k
  rw [h k]

/-- A repetition describes the same as the stacks into which it is written out. -/
theorem stackMatches_repetition_iff {place : Nat} {r : Regex} {least : Nat}
    {most : Option Nat} {greedy : Bool} (hbounds : ∀ m ∈ most, least ≤ m) :
  StackMatches text (.regex place (repetition r least most greedy) :: rest) i j
    ↔ ∃ stack ∈ unroll place r least most greedy rest, StackMatches text stack i j
  := by
  unfold unroll
  split
  · -- no rounds
    rw [exists_mem_single, stackMatches_optional_iff place, or_iff_left]
    rintro ⟨k, ⟨n, hleast, hn, -⟩, -⟩
    have hle := hn 0 rfl
    omega
  · -- at most one more round than without the first one
    rw [exists_mem_choose, stackMatches_optional_iff place]
    apply or_congr_right
    apply (stackMatches_once_iff _).symm
    simp
  · -- any number of rounds
    rw [stackMatches_unbounded_iff place (place + 1)]
    split
    · rw [exists_mem_single]
    · rw [exists_mem_choose]
      apply stackMatches_rounds_iff
  · -- at least one round
    rw [exists_mem_single,
      stackMatches_cons_congr fun k => (stackMatches_unbounded_iff place (place + 1)).symm]
    apply (stackMatches_once_iff _).symm
    nofun
  · -- a round that is required
    rw [exists_mem_single]
    apply (stackMatches_once_iff _).symm
    intro m hm
    apply Nat.lt_of_lt_of_le (Nat.succ_pos _) (hbounds m hm)

/-- A frame that needs no character describes the same as the stacks that continue it. -/
theorem Frame.stackMatches_cons_iff {frame : Frame} (hbounded : frame.Bounded)
    (hset : frame.set? = none) :
  StackMatches text (frame :: rest) i j
    ↔ ∃ stack ∈ frame.expand (charBefore text i) text[i]? rest, StackMatches text stack i j
  := by
  cases frame with
  | rounds place r greedy =>
      rw [expand, exists_mem_choose]
      apply stackMatches_rounds_iff
  | regex place r =>
      cases r with
      | set s => cases hset
      | repetition r least most greedy =>
          apply stackMatches_repetition_iff hbounded.2
      | empty => simp [expand, stackMatches_regex_iff, Regex.Matches]
      | assertion a =>
          rw [expand, stackMatches_regex_iff]
          split
          · rename_i hholds
            simp [Regex.Matches, hholds]
          · rename_i hholds
            simp [Regex.Matches, hholds]
      | sequence r s =>
          simp only [expand, exists_mem_single, stackMatches_regex_iff, Regex.Matches]
          constructor
          · rintro ⟨k, ⟨k', hr, hs⟩, hrest⟩
            exact ⟨k', hr, k, hs, hrest⟩
          · rintro ⟨k', hr, k, hs, hrest⟩
            exact ⟨k, ⟨k', hr, hs⟩, hrest⟩
      | either r s =>
          simp [expand, stackMatches_regex_iff, Regex.Matches, or_and_right, exists_or]
      | group number r => simp [expand, stackMatches_regex_iff, Regex.Matches]

/-- A frame that needs a character matches that one. -/
theorem Frame.stackMatches_cons_of_set? {frame : Frame} {s : CodePoints}
    (hset : frame.set? = some s) :
  StackMatches text (frame :: rest) i j
    ↔ text[i]?.any s.contains = true ∧ StackMatches text rest (i + 1) j
  := by
  cases frame with
  | rounds place r greedy => cases hset
  | regex place r =>
      cases r <;> cases hset
      rw [stackMatches_regex_iff, Option.any_eq_true]
      simp [Regex.Matches, and_assoc]

end ShiftReduce.Regex
