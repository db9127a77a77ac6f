import ShiftReduce.Proofs.Regex.Combination
import ShiftReduce.Proofs.Regex.Search

/-!
# Expressions that hold to the start of the text

In front of an expression a condition is put that only holds at the start of the text.  The
places of the expression move on by two (`Frame.shift`), and that does not change which way is
preferred.  So what the expression with the condition finds is what the expression itself finds at
the start of the text (`find?_anchored_eq_some_iff`).
-/

namespace ShiftReduce.Regex

variable {text : List Char}

/-! ### Moving places -/

/-- The frame with its place moved on. -/
def Frame.shift (d : Nat) : Frame → Frame
  | regex place r => regex (d + place) r
  | rounds place r greedy => rounds (d + place) r greedy

/-- The point with all places moved on. -/
def Point.shift (d : Nat) (p : Point) : Point :=
  ⟨p.stack.map (Frame.shift d), p.position⟩

theorem Frame.shift_injective (d : Nat) :
  Function.Injective (Frame.shift d)
  := by
  intro frame frame' h
  cases frame <;> cases frame' <;> simp_all [shift]

theorem Point.shift_injective (d : Nat) :
  Function.Injective (Point.shift d)
  := by
  rintro ⟨stack, i⟩ ⟨stack', i'⟩ h
  simp only [shift, Point.mk.injEq] at h
  obtain ⟨hstack, rfl⟩ := h
  rw [List.map_injective_iff.mpr (Frame.shift_injective d) hstack]

theorem map_choose {α β : Type} (f : α → β) (greedy : Bool) (more fewer : α) :
  (choose greedy more fewer).map f = choose greedy (f more) (f fewer)
  := by cases greedy <;> rfl

theorem unroll_shift (d place : Nat) (r : Regex) (least : Nat) (most : Option Nat)
    (greedy : Bool) (rest : List Frame) :
  unroll (d + place) r least most greedy (rest.map (Frame.shift d))
    = (unroll place r least most greedy rest).map (List.map (Frame.shift d))
  := by
  unfold unroll
  dsimp only
  split
  · rfl
  · simp [map_choose, Frame.shift, Nat.add_assoc]
  · split
    · rfl
    · simp [map_choose, Frame.shift, Nat.add_assoc]
  · rfl
  · simp [Frame.shift, Nat.add_assoc]

/-- The stacks that continue a frame move on with it. -/
theorem Frame.expand_shift (d : Nat) (frame : Frame) (before after : Option Char)
    (rest : List Frame) :
  (frame.shift d).expand before after (rest.map (Frame.shift d))
    = (frame.expand before after rest).map (List.map (Frame.shift d))
  := by
  cases frame with
  | rounds place r greedy => simp [Frame.shift, expand, map_choose, Nat.add_assoc]
  | regex place r =>
      cases r with
      | repetition r least most greedy => apply unroll_shift
      | assertion a =>
          simp only [shift, expand]
          split <;> rfl
      | _ => simp [shift, expand, Nat.add_assoc]

theorem Point.next_shift (d : Nat) (p : Point) :
  (p.shift d).next text = (p.next text).map (Point.shift d)
  := by
  obtain ⟨stack, i⟩ := p
  cases stack with
  | nil => rfl
  | cons frame rest =>
      have hset : (frame.shift d).set? = frame.set? := by
        cases frame with
        | regex place r => cases r <;> rfl
        | rounds => rfl
      simp only [shift, List.map_cons, next, hset]
      cases frame.set? with
      | some s =>
          dsimp only
          split <;> rfl
      | none =>
          simp only [Frame.expand_shift, List.map_map]
          rfl

/-- The ways move on with the point. -/
theorem way_shift (d : Nat) {met : Set Point} {p : Point} {way : List Nat} {e : Nat} :
  Way text (Point.shift d '' met) (p.shift d) way e ↔ Way text met p way e
  := by
  have hmem : ∀ {met : Set Point} {p : Point}, p.shift d ∈ Point.shift d '' met ↔ p ∈ met :=
    (Point.shift_injective d).mem_set_image
  constructor
  · intro h
    generalize hmet' : Point.shift d '' met = met' at h
    generalize hp' : p.shift d = p' at h
    induction h generalizing met p with
    | done met' i =>
        obtain ⟨stack, i'⟩ := p
        simp only [Point.shift, Point.mk.injEq, List.map_eq_nil_iff] at hp'
        obtain ⟨rfl, rfl⟩ := hp'
        apply Way.done
    | @step met' p' q choice way e hfresh hq h ih =>
        subst hmet'
        subst hp'
        rw [Point.next_shift, List.getElem?_map, Option.map_eq_some_iff] at hq
        obtain ⟨q, hq, rfl⟩ := hq
        apply Way.step (fun hp => hfresh (hmem.mpr hp)) hq
        apply ih _ rfl
        rw [Set.image_insert_eq]
  · intro h
    induction h with
    | done => apply Way.done
    | @step met p q choice way e hfresh hq h ih =>
        apply Way.step (fun hp => hfresh (hmem.mp hp))
        · rw [Point.next_shift, List.getElem?_map, hq, Option.map_some]
        · rwa [Set.image_insert_eq] at ih

/-! ### A condition in front -/

/-- An expression that matches only at the start of the text. -/
def anchored (r : Regex) : Regex :=
  ofParts (.assertion .textStart :: r.parts)

/-- If a point has but one continuation, the preferred way is that of this one. -/
theorem preferred_iff_of_next {met : Set Point} {p q : Point} {e : Nat} (hp : p ∉ met)
    (hnext : p.next text = [q]) :
  Preferred text met p e ↔ Preferred text (insert p met) q e
  := by
  constructor
  · rintro ⟨way, hway, hleast⟩
    cases hway with
    | done => cases hnext
    | @step _ _ q' choice way _ _ hq' hway =>
        rw [hnext, List.getElem?_singleton] at hq'
        split at hq'
        · rename_i hchoice
          cases hq'
          subst hchoice
          use way, hway
          intro way' e' hway' hlex
          apply hleast (0 :: way') e' _ (.cons hlex)
          apply Way.step hp _ hway'
          rw [hnext, List.getElem?_cons_zero]
        · cases hq'
  · intro h
    apply Preferred.step hp [] hnext nofun h

theorem preferred_nil_iff {met : Set Point} {i e : Nat} :
  Preferred text met ⟨[], i⟩ e ↔ e = i
  := by
  constructor
  · intro h
    exact h.unique (.done met i)
  · rintro rfl
    exact .done met e

/-- The points that are met while an expression is matched that has moved on. -/
def MetShifted (r : Regex) (d : Nat) (p : Point) : Prop :=
  ∃ q : Point, r.Met q.stack ∧ q.shift d = p

theorem MetShifted.next {r : Regex} {d : Nat} {p q : Point} (hp : r.MetShifted d p)
    (hq : q ∈ p.next text) :
  r.MetShifted d q
  := by
  obtain ⟨p, hmet, rfl⟩ := hp
  rw [Point.next_shift] at hq
  obtain ⟨q', hq', rfl⟩ := List.mem_map.mp hq
  exact ⟨q', met_of_mem_next hmet hq', rfl⟩

/-- Their places have moved on. -/
theorem MetShifted.lt_place {r : Regex} (hbounded : r.Bounded) {d i : Nat} {frame : Frame}
    {rest : List Frame} (h : r.MetShifted d ⟨frame :: rest, i⟩) :
  d < frame.place
  := by
  obtain ⟨⟨stack, i'⟩, hmet, heq⟩ := h
  cases stack with
  | nil => cases heq
  | cons frame' rest' =>
      simp only [Point.shift, List.map_cons, Point.mk.injEq, List.cons.injEq] at heq
      obtain ⟨⟨rfl, -⟩, -⟩ := heq
      have hplace : (frame'.shift d).place = d + frame'.place := by cases frame' <;> rfl
      rw [hplace]
      apply Nat.lt_add_of_pos_right (hmet.range hbounded).1

/-- Where a condition in front holds the preferred way is that of the expression after it. -/
theorem prefers_sequence_iff {r : Regex} (hbounded : r.Bounded) {e : Nat} :
  (sequence (.assertion .textStart) r).Prefers text 0 e ↔ r.Prefers text 0 e
  := by
  -- two steps lead to the expression, at a place that has moved on by two
  let first : Point := startAt (.sequence (.assertion .textStart) r) 0
  let second : Point := ⟨[.regex 2 (.assertion .textStart), .regex 3 r], 0⟩
  let third : Point := (r.startAt 0).shift 2
  have hfirst : first.next text = [second] := rfl
  have hsecond : second.next text = [third] := by
    simp [second, third, startAt, Point.next, Frame.set?, Frame.expand, charBefore, Assertion.holds,
      Point.shift, Frame.shift]
  have hne : second ∉ insert first (∅ : Set Point) := by
    simp [first, second, startAt]
  have hways : ∀ way e, Way text (insert second (insert first ∅)) third way e
      ↔ Way text ∅ (r.startAt 0) way e := by
    intro way e
    have hshift : Way text (Point.shift 2 '' ∅) third way e
        ↔ Way text ∅ (r.startAt 0) way e := way_shift 2
    rw [Set.image_empty] at hshift
    rw [← hshift]
    constructor
    · apply Way.mono (Set.empty_subset _)
    · apply Way.congr (r.MetShifted 2) fun p hp q => hp.next
      · rintro p hp (rfl | rfl | hmem)
        · cases Nat.lt_irrefl _ (hp.lt_place hbounded)
        · cases Nat.not_lt_of_le (Nat.le_succ 1) (hp.lt_place hbounded)
        · cases hmem
      · exact ⟨r.startAt 0, .inr (.here 1 r []), rfl⟩
  rw [Prefers, preferred_iff_of_next (Set.notMem_empty first) hfirst,
    preferred_iff_of_next hne hsecond]
  constructor
  · apply Preferred.congr hways
  · apply Preferred.congr fun way e => (hways way e).symm

/-! ### Searching with a condition in front -/

theorem anchored_cases {r : Regex} (hnormal : r.Normal) :
  r = .empty ∧ r.anchored = .assertion .textStart
    ∨ r.anchored = .sequence (.assertion .textStart) r
  := by
  by_cases hparts : r.parts = []
  · left
    constructor
    · rw [← hnormal, hparts]
      rfl
    · rw [anchored, hparts]
      rfl
  · right
    rw [anchored, ofParts_cons _ hparts, hnormal]

theorem holdsToStart_anchored {r : Regex} (hnormal : r.Normal) :
  r.anchored.holdsToStart = true
  := by
  rcases anchored_cases hnormal with ⟨-, h⟩ | h <;> rw [h] <;> rfl

theorem bounded_anchored {r : Regex} (hbounded : r.Bounded) :
  r.anchored.Bounded
  := by
  apply bounded_ofParts
  rw [List.forall_mem_cons]
  exact ⟨trivial, bounded_iff_parts.mp hbounded⟩

/-- A condition that holds at the start does not change what is preferred there. -/
theorem prefers_anchored_iff {r : Regex} (hbounded : r.Bounded) (hnormal : r.Normal) {e : Nat} :
  r.anchored.Prefers text 0 e ↔ r.Prefers text 0 e
  := by
  rcases anchored_cases hnormal with ⟨rfl, h⟩ | h
  · -- one step leads to the end with either of them
    let last : Point := ⟨[], 0⟩
    have hassertion : Point.next text (startAt (.assertion .textStart) 0) = [last] := rfl
    have hempty : Point.next text (startAt .empty 0) = [last] := rfl
    rw [h, Prefers, Prefers, preferred_iff_of_next (Set.notMem_empty _) hassertion,
      preferred_iff_of_next (Set.notMem_empty _) hempty, preferred_nil_iff, preferred_nil_iff]
  · rw [h, prefers_sequence_iff hbounded]

/-- An expression with a condition in front finds what the expression itself finds at the start of
the text. -/
theorem find?_anchored_eq_some_iff {r : Regex} (hbounded : r.Bounded) (hnormal : r.Normal)
    {s e : Nat} :
  r.anchored.find? text = some (s, e) ↔ s = 0 ∧ r.find? text = some (0, e)
  := by
  simp only [find?_eq_some_iff (bounded_anchored hbounded), find?_eq_some_iff hbounded,
    Nat.zero_le, Nat.not_lt_zero, false_implies, implies_true, and_true, true_and]
  constructor
  · rintro ⟨hs, hprefers, -⟩
    obtain rfl := (hprefers.matches (bounded_anchored hbounded)).eq_zero
      (holdsToStart_anchored hnormal) hs
    exact ⟨rfl, (prefers_anchored_iff hbounded hnormal).mp hprefers⟩
  · rintro ⟨rfl, hprefers⟩
    exact ⟨Nat.zero_le _, (prefers_anchored_iff hbounded hnormal).mpr hprefers, nofun⟩

end ShiftReduce.Regex
