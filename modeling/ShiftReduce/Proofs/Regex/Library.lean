import ShiftReduce.Proofs.Regex.Enclosing
import ShiftReduce.Regex.Library

/-!
# What the library promises

What is found is the preferred way from the first position at which an expression matches, so that
it lies within the text and is described by the expression.  A pattern in a group stands for the
expression of the pattern itself, and behind a circumflex for this expression with a condition in
front.  So the library does what is expected of it (`Regex.library_lawful`).
-/

namespace ShiftReduce.Regex

/-! ### Patterns in groups -/

variable (pattern : String)

theorem parse?_closed :
  PatternLibrary.parse? (pattern ++ ")") = expression? (pattern.toList ++ [')'])
  := congrArg expression? String.toList_append

theorem toList_grouped :
  (PatternLibrary.grouped pattern).toList = enclosed false pattern.toList
  := by
  rw [PatternLibrary.grouped, String.toList_append, String.toList_append]
  rfl

theorem parse?_grouped :
  PatternLibrary.parse? (PatternLibrary.grouped pattern)
    = expression? (enclosed false pattern.toList)
  := congrArg expression? (toList_grouped pattern)

theorem parse?_anchored :
  PatternLibrary.parse? (PatternLibrary.anchored pattern)
    = expression? (enclosed true pattern.toList)
  := by
  apply congrArg expression?
  rw [PatternLibrary.anchored, String.toList_append, toList_grouped]
  rfl

/-! ### Matches -/

variable {r : Regex} {text : List Char} {i j : Nat}

/-- What is found starts within the text and is described. -/
theorem matches_of_find? (hbounded : r.Bounded) (hfind : r.find? text = some (i, j)) :
  i ≤ text.length ∧ r.Matches text i j
  := by
  obtain ⟨hi, hprefers, -⟩ := (find?_eq_some_iff hbounded).mp hfind
  exact ⟨hi, hprefers.matches hbounded⟩

/-- What is found does not start after any other match. -/
theorem exists_find?_of_matches (hbounded : r.Bounded) (hi : i ≤ text.length)
    (h : r.Matches text i j) :
  ∃ k l, r.find? text = some (k, l) ∧ k ≤ i
  := by
  rcases find?_cases hbounded text with ⟨-, hnone⟩ | ⟨k, l, hfind, -, -, hfirst⟩
  · cases hnone i hi j h
  · use k, l, hfind
    apply Nat.le_of_not_lt
    intro hlt
    apply hfirst i hlt j h

/-! ### The laws -/

/-- The library does what is expected of a library for regular expressions. -/
theorem library_lawful :
  PatternLibrary.Lawful
  where
  range h _ _ _ hfind := by
    obtain ⟨hi, hmatches⟩ := matches_of_find? (bounded_of_expression? h) hfind
    exact ⟨hmatches.range.1, hmatches.range.2 hi⟩
  describes h _ _ _ hfind := (matches_of_find? (bounded_of_expression? h) hfind).2
  leftmost h _ _ _ hi hmatches := exists_find?_of_matches (bounded_of_expression? h) hi hmatches
  group {pattern read} h hclosed := by
    rw [parse?_closed] at hclosed
    use placed false read
    rw [parse?_grouped]
    exact ⟨expression?_enclosed h hclosed false, fun text => rfl⟩
  comment h hcomment := by
    rw [parse?_closed] at hcomment
    rw [parse?_grouped, Option.eq_none_iff_forall_ne_some]
    intro result hgroup
    obtain ⟨hclosed, -⟩ := (expression?_enclosed_eq_some_iff h).mp hgroup
    cases hcomment.symm.trans hclosed
  circumflex {pattern read group} h hgroup := by
    rw [parse?_grouped, expression?_enclosed_eq_some_iff h] at hgroup
    obtain ⟨hclosed, rfl⟩ := hgroup
    use placed true read
    rw [parse?_anchored]
    use expression?_enclosed h hclosed true
    intro text i j
    exact find?_anchored_eq_some_iff (bounded_of_expression? h) (normal_of_expression? h)
  ungrouped h hgroup := by
    rw [parse?_grouped] at hgroup
    rw [parse?_anchored, Option.eq_none_iff_forall_ne_some]
    intro result hanchored
    obtain ⟨hclosed, -⟩ := (expression?_enclosed_eq_some_iff h).mp hanchored
    cases hgroup.symm.trans (expression?_enclosed h hclosed false)
  closed {text _} h := by
    have hopening : ("^(?:" ++ text).toList = opening true ++ text.toList := String.toList_append
    have hparse : expression? ("^(?:" ++ text).toList = some _ := h
    rw [hopening] at hparse
    obtain ⟨inner, rest, read, htext, hinner⟩ := exists_expression?_of_opening hparse
    use String.ofList inner, String.ofList rest, read
    constructor
    · apply String.toList_inj.mp
      simp [htext]
    · rw [← String.toList_ofList (l := inner)] at hinner
      exact hinner

end ShiftReduce.Regex
