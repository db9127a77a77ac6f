import ShiftReduce.Proofs.Regex.Places

/-!
# Ways to match

A stack at a position is a point.  A way leads from a point to an empty stack and meets no point
twice; it is given by the choices that are made.  Ways are compared as lists of choices are, so
the least way is the one that is preferred.  There is a way exactly if the expression matches
(`exists_way_iff`).

If no way leads on from a point, nothing changes when the other ways avoid it as well
(`Way.insert_of_dead`).  So a point that has been given up need not be tried again.
-/

namespace ShiftReduce.Regex

/-! ### Points and ways -/

/-- A stack of what is still to be matched, and the position in the text. -/
structure Point where
  stack : List Frame
  position : Nat

/-- The points that continue a point, in the order of preference. -/
def Point.next (text : List Char) : Point → List Point
  | ⟨[], _⟩ => []
  | ⟨frame :: rest, i⟩ =>
    match frame.set? with
    | some s => if text[i]?.any s.contains then [⟨rest, i + 1⟩] else []
    | none => (frame.expand (charBefore text i) text[i]? rest).map fun stack => ⟨stack, i⟩

/-- Choices lead from a point to an empty stack at a position.  None of the points on the way has
been met before. -/
inductive Way (text : List Char) : Set Point → Point → List Nat → Nat → Prop where
  | done (met : Set Point) (i : Nat) : Way text met ⟨[], i⟩ [] i
  | step {met : Set Point} {p q : Point} {choice : Nat} {way : List Nat} {e : Nat}
      (hp : p ∉ met) (hq : (p.next text)[choice]? = some q)
      (h : Way text (insert p met) q way e) : Way text met p (choice :: way) e

/-- No way leads on from a point. -/
def Dead (text : List Char) (met : Set Point) (p : Point) : Prop :=
  ∀ way e, ¬ Way text met p way e

/-- The preferred way from a point leads to a position: the way with the least list of
choices. -/
def Preferred (text : List Char) (met : Set Point) (p : Point) (e : Nat) : Prop :=
  ∃ way, Way text met p way e
    ∧ ∀ way' e', Way text met p way' e' → ¬ List.Lex (· < ·) way' way

/-- The point from which an expression is matched at a position. -/
def startAt (r : Regex) (i : Nat) : Point :=
  ⟨[.regex 1 r], i⟩

/-- The preferred way to match an expression from one position leads to another. -/
def Prefers (r : Regex) (text : List Char) (i e : Nat) : Prop :=
  Preferred text ∅ (r.startAt i) e

variable {text : List Char} {met met' : Set Point} {p q : Point} {way : List Nat} {e : Nat}

/-- The position stays the same or is the next one. -/
theorem Point.position_le_of_mem_next (h : q ∈ p.next text) :
  p.position ≤ q.position
  := by
  obtain ⟨stack, i⟩ := p
  cases stack with
  | nil => cases h
  | cons frame rest =>
      rw [next] at h
      split at h
      · split at h
        · obtain rfl := List.mem_singleton.mp h
          apply Nat.le_succ
        · cases h
      · obtain ⟨stack, -, rfl⟩ := List.mem_map.mp h
        apply Nat.le_refl

namespace Way

/-- The choices determine where a way leads. -/
theorem unique {e' : Nat} (h : Way text met p way e) (h' : Way text met p way e') :
  e = e'
  := by
  induction h with
  | done met i =>
      cases h'
      rfl
  | step hp hq h ih =>
      cases h' with
      | step hp' hq' h' =>
          rw [hq] at hq'
          cases hq'
          apply ih h'

/-- Only those of the points met before matter that the ways lead to. -/
theorem congr (known : Point → Prop) (hnext : ∀ p, known p → ∀ q ∈ p.next text, known q)
    (hmet : ∀ p, known p → p ∈ met' → p ∈ met) (hp : known p) (h : Way text met p way e) :
  Way text met' p way e
  := by
  induction h generalizing met' with
  | done => apply done
  | @step met p q choice way e hfresh hq h ih =>
      apply step (fun hmem => hfresh (hmet p hp hmem)) hq
      apply ih _ (hnext p hp q (List.mem_of_getElem? hq))
      intro p' hp' hmem
      rcases hmem with rfl | hmem
      · apply Set.mem_insert
      · exact Set.mem_insert_of_mem _ (hmet p' hp' hmem)

/-- What has been met at earlier positions does not matter. -/
theorem of_position (hmet : ∀ q ∈ met', p.position ≤ q.position → q ∈ met)
    (h : Way text met p way e) :
  Way text met' p way e
  := by
  apply h.congr fun q => p.position ≤ q.position
  · intro q hq q' hq'
    apply Nat.le_trans hq (Point.position_le_of_mem_next hq')
  · intro q hq hmem
    apply hmet q hmem hq
  · apply Nat.le_refl

theorem mono (hmet : met' ⊆ met) (h : Way text met p way e) :
  Way text met' p way e
  := by
  apply h.of_position
  intro q hq _
  apply hmet hq

/-- Ways lead past points from which no way leads on. -/
theorem insert_of_dead (hsub : met ⊆ met') {u : Point} (hu : Dead text met u)
    (h : Way text met' p way e) :
  Way text (insert u met') p way e
  := by
  induction h with
  | done => apply done
  | @step met' p q choice way e hp hq h ih =>
      have hne : p ≠ u := by
        rintro rfl
        apply hu _ e ((Way.step hp hq h).mono hsub)
      apply step (by simp [hne, hp]) hq
      rw [Set.insert_comm]
      apply ih (hsub.trans (Set.subset_insert p met'))

end Way

/-! ### Preferred ways -/

/-- Of two different lists of choices one is less than the other. -/
theorem eq_of_not_lex {l l' : List Nat} (h : ¬ List.Lex (· < ·) l l')
    (h' : ¬ List.Lex (· < ·) l' l) :
  l = l'
  := by
  induction l generalizing l' with
  | nil =>
      cases l' with
      | nil => rfl
      | cons => cases h .nil
  | cons choice l ih =>
      cases l' with
      | nil => cases h' .nil
      | cons choice' l' =>
          rcases Nat.lt_trichotomy choice choice' with hlt | rfl | hgt
          · cases h (.rel hlt)
          · rw [ih (fun hlex => h (.cons hlex)) (fun hlex => h' (.cons hlex))]
          · cases h' (.rel hgt)

namespace Preferred

/-- There is one position to which the preferred way leads. -/
theorem unique {e' : Nat} (h : Preferred text met p e) (h' : Preferred text met p e') :
  e = e'
  := by
  obtain ⟨way, hway, hleast⟩ := h
  obtain ⟨way', hway', hleast'⟩ := h'
  obtain rfl := eq_of_not_lex (hleast' way e hway) (hleast way' e' hway')
  apply hway.unique hway'

/-- The preferred way is the same if the same ways are. -/
theorem congr {p' : Point} (hways : ∀ way e, Way text met p way e ↔ Way text met' p' way e)
    (h : Preferred text met p e) :
  Preferred text met' p' e
  := by
  obtain ⟨way, hway, hleast⟩ := h
  use way, (hways way e).mp hway
  intro way' e' hway'
  apply hleast way' e' ((hways way' e').mpr hway')

/-- An empty stack needs no more choices. -/
theorem done (met : Set Point) (i : Nat) :
  Preferred text met ⟨[], i⟩ i
  := by
  use [], .done met i
  intro way' e' hway' hlex
  cases hlex

/-- The preferred way goes on with the first point from which a way leads on. -/
theorem step (hp : p ∉ met) (before : List Point) {after : List Point}
    (hnext : p.next text = before ++ q :: after)
    (hbefore : ∀ d ∈ before, Dead text (insert p met) d)
    (h : Preferred text (insert p met) q e) :
  Preferred text met p e
  := by
  obtain ⟨way, hway, hleast⟩ := h
  refine ⟨before.length :: way, .step hp (by simp [hnext]) hway, ?_⟩
  intro way' e' hway' hlex
  cases hway' with
  | done => cases before <;> cases hnext
  | @step _ _ q' choice way' _ _ hq' hway' =>
      rw [hnext] at hq'
      cases hlex with
      | rel hlt =>
          rw [List.getElem?_append_left hlt] at hq'
          apply hbefore q' (List.mem_of_getElem? hq') way' e' hway'
      | cons hlex =>
          rw [List.getElem?_append_right (Nat.le_refl _), Nat.sub_self,
            List.getElem?_cons_zero] at hq'
          cases hq'
          apply hleast way' e' hway' hlex

end Preferred

/-! ### Ways lead where the expression matches -/

/-- A stack with a frame on top matches if a point that continues it does. -/
theorem stackMatches_of_next {frame : Frame} {rest : List Frame} {i : Nat}
    (hbounded : frame.Bounded) (hq : q ∈ Point.next text ⟨frame :: rest, i⟩)
    (h : StackMatches text q.stack q.position e) :
  StackMatches text (frame :: rest) i e
  := by
  rw [Point.next] at hq
  split at hq
  · rename_i s hset
    apply (Frame.stackMatches_cons_of_set? hset).mpr
    split at hq
    · rename_i hany
      obtain rfl := List.mem_singleton.mp hq
      exact ⟨hany, h⟩
    · cases hq
  · rename_i hset
    obtain ⟨stack, hstack, rfl⟩ := List.mem_map.mp hq
    apply (Frame.stackMatches_cons_iff hbounded hset).mpr ⟨stack, hstack, h⟩

/-- The points that continue one whose stack is met have stacks that are met. -/
theorem met_of_mem_next {r : Regex} (hp : r.Met p.stack) (hq : q ∈ p.next text) :
  r.Met q.stack
  := by
  obtain ⟨stack, i⟩ := p
  cases stack with
  | nil => cases hq
  | cons frame rest =>
      rw [Point.next] at hq
      split at hq
      · split at hq
        · obtain rfl := List.mem_singleton.mp hq
          apply hp.tail
        · cases hq
      · obtain ⟨stack, hstack, rfl⟩ := List.mem_map.mp hq
        apply hp.expand hstack

/-- Where a way leads the stack matches. -/
theorem Way.stackMatches {r : Regex} (hbounded : r.Bounded) (hp : r.Met p.stack)
    (h : Way text met p way e) :
  StackMatches text p.stack p.position e
  := by
  induction h with
  | done => rfl
  | @step met p q choice way e _ hq _ ih =>
      have hmem := List.mem_of_getElem? hq
      obtain ⟨stack, i⟩ := p
      cases stack with
      | nil => cases hmem
      | cons frame rest =>
          apply stackMatches_of_next (hp.inside.bounded hbounded) hmem
          apply ih (met_of_mem_next hp hmem)

/-! ### Walks -/

/-- Several steps lead from a point to an empty stack at a position, past some points. -/
inductive Walk (text : List Char) (met : Set Point) : Nat → Point → Nat → Prop where
  | done (i : Nat) : Walk text met 0 ⟨[], i⟩ i
  | step {n : Nat} {p q : Point} {e : Nat} (hp : p ∉ met) (hq : q ∈ p.next text)
      (h : Walk text met n q e) : Walk text met (n + 1) p e

namespace Walk

variable {n : Nat}

/-- A walk leads past a point, or a part of it begins there. -/
theorem avoid (u : Point) (h : Walk text met n p e) :
  Walk text (insert u met) n p e ∨ ∃ m ≤ n, Walk text met m u e
  := by
  induction h with
  | done i => exact .inl (.done i)
  | @step n p q e hp hq h ih =>
      by_cases hpu : p = u
      · right
        rw [← hpu]
        exact ⟨n + 1, Nat.le_refl _, .step hp hq h⟩
      · rcases ih with ih | ⟨m, hm, ih⟩
        · exact .inl (.step (by simp [hpu, hp]) hq ih)
        · exact .inr ⟨m, Nat.le_succ_of_le hm, ih⟩

/-- Without its loops a walk is a way. -/
theorem exists_way (h : Walk text met n p e) :
  ∃ way, Way text met p way e
  := by
  induction n using Nat.strong_induction_on generalizing met p with
  | _ n ih =>
      cases h with
      | done => exact ⟨[], .done met e⟩
      | @step n _ q _ hp hq h =>
          rcases h.avoid p with h | ⟨m, hm, h⟩
          · obtain ⟨way, hway⟩ := ih n (Nat.lt_succ_self n) h
            obtain ⟨choice, hchoice⟩ := List.mem_iff_getElem?.mp hq
            exact ⟨choice :: way, .step hp hchoice hway⟩
          · apply ih m (Nat.lt_succ_of_le hm) h

end Walk

/-- Steps lead from a point to an empty stack at a position. -/
def Reaches (text : List Char) (p : Point) (e : Nat) : Prop :=
  ∃ n, Walk text ∅ n p e

theorem reaches_nil (i : Nat) :
  Reaches text ⟨[], i⟩ i
  := ⟨0, .done i⟩

theorem Reaches.step (hq : q ∈ p.next text) (h : Reaches text q e) :
  Reaches text p e
  := by
  obtain ⟨n, h⟩ := h
  exact ⟨n + 1, .step (Set.notMem_empty p) hq h⟩

/-- A stack that continues another one at the same position leads where this one leads. -/
theorem Reaches.expand {frame : Frame} {rest stack : List Frame} {i : Nat}
    (hset : frame.set? = none)
    (hstack : stack ∈ frame.expand (charBefore text i) text[i]? rest)
    (h : Reaches text ⟨stack, i⟩ e) :
  Reaches text ⟨frame :: rest, i⟩ e
  := by
  apply h.step
  rw [Point.next, hset]
  exact List.mem_map_of_mem hstack

/-- What matches at any place, whatever comes after it, leads on. -/
def LeadsOn (text : List Char) (r : Regex) : Prop :=
  ∀ {place i j e : Nat} {rest : List Frame}, r.Matches text i j → Reaches text ⟨rest, j⟩ e →
    Reaches text ⟨.regex place r :: rest, i⟩ e

/-- Any number of further rounds leads on if a round does. -/
theorem LeadsOn.rounds {r : Regex} (hr : LeadsOn text r) {place n i j : Nat} {greedy : Bool}
    {rest : List Frame} (h : Iterates (r.Matches text) n i j) (hrest : Reaches text ⟨rest, j⟩ e) :
  Reaches text ⟨.rounds place r greedy :: rest, i⟩ e
  := by
  induction h with
  | none i =>
      apply hrest.expand rfl
      exact mem_choose.mpr (.inr rfl)
  | more first later ih =>
      apply Reaches.expand rfl (mem_choose.mpr (.inl rfl))
      apply hr first (ih hrest)

/-- A repetition without bounds leads on if a round does. -/
theorem LeadsOn.unbounded {r : Regex} (hr : LeadsOn text r) {place n i j : Nat} {greedy : Bool}
    {rest : List Frame} (h : Iterates (r.Matches text) n i j) (hrest : Reaches text ⟨rest, j⟩ e) :
  Reaches text ⟨.regex place (.repetition r 0 none greedy) :: rest, i⟩ e
  := by
  have hall : Reaches text ⟨.rounds (place + 1) r greedy :: rest, i⟩ e := hr.rounds h hrest
  cases hconsumes : r.consumes with
  | true =>
      apply hall.expand rfl
      simp [Frame.expand, unroll, hconsumes]
  | false =>
      cases h with
      | none =>
          apply hrest.expand rfl
          simp [Frame.expand, unroll, hconsumes, mem_choose]
      | more first later =>
          have honce : Reaches text
              ⟨.regex (place + 2) r :: .rounds (place + 1) r greedy :: rest, i⟩ e :=
            hr first (hr.rounds later hrest)
          apply honce.expand rfl
          simp [Frame.expand, unroll, hconsumes, mem_choose]

/-- A repetition leads on if a round does. -/
theorem LeadsOn.repetition {r : Regex} (hr : LeadsOn text r) {place n i j least : Nat}
    {most : Option Nat} {greedy : Bool} {rest : List Frame}
    (h : Iterates (r.Matches text) n i j) (hleast : least ≤ n) (hmost : ∀ m ∈ most, n ≤ m)
    (hrest : Reaches text ⟨rest, j⟩ e) :
  Reaches text ⟨.regex place (.repetition r least most greedy) :: rest, i⟩ e
  := by
  induction h generalizing place least most with
  | none i =>
      obtain rfl := Nat.le_zero.mp hleast
      rcases most with _ | _ | m
      · exact hr.unbounded (.none i) hrest
      · apply hrest.expand rfl (.head _)
      · apply hrest.expand rfl (mem_choose.mpr (.inr rfl))
  | @more n i j k first later ih =>
      -- a first round is followed by what is left of the repetition
      rcases least with _ | _ | least
      · rcases most with _ | _ | m
        · exact hr.unbounded (.more first later) hrest
        · cases hmost 0 rfl
        · apply Reaches.expand rfl (mem_choose.mpr (.inl rfl))
          apply hr first
          apply ih (Nat.zero_le n) _ hrest
          simpa using hmost
      · cases most with
        | none =>
            apply Reaches.expand rfl (.head _)
            apply hr first (hr.rounds later hrest)
        | some m =>
            apply Reaches.expand rfl (.head _)
            apply hr first
            apply ih (Nat.zero_le n) _ hrest
            simpa using Nat.le_sub_one_of_lt (hmost m rfl)
      · cases most with
        | none =>
            apply Reaches.expand rfl (.head _)
            apply hr first
            apply ih (Nat.le_of_succ_le_succ hleast) _ hrest
            simp
        | some m =>
            apply Reaches.expand rfl (.head _)
            apply hr first
            apply ih (Nat.le_of_succ_le_succ hleast) _ hrest
            simpa using Nat.le_sub_one_of_lt (hmost m rfl)

/-- Every expression leads on. -/
theorem leadsOn (text : List Char) (r : Regex) :
  LeadsOn text r
  := by
  induction r with
  | empty =>
      rintro place i j e rest rfl hrest
      apply hrest.expand rfl (.head _)
  | set s =>
      rintro place i j e rest ⟨⟨c, hc, hs⟩, rfl⟩ hrest
      apply hrest.step
      simp [Point.next, Frame.set?, hc, hs]
  | assertion a =>
      rintro place i j e rest ⟨hholds, rfl⟩ hrest
      apply hrest.expand rfl
      simp [Frame.expand, hholds]
  | sequence r s ihr ihs =>
      rintro place i j e rest ⟨k, hr, hs⟩ hrest
      apply Reaches.expand rfl (.head _)
      apply ihr hr (ihs hs hrest)
  | either r s ihr ihs =>
      rintro place i j e rest (hr | hs) hrest
      · apply Reaches.expand rfl (.head _)
        apply ihr hr hrest
      · apply Reaches.expand rfl (.tail _ (.head _))
        apply ihs hs hrest
  | repetition r least most greedy ih =>
      rintro place i j e rest ⟨n, hleast, hmost, h⟩ hrest
      apply LeadsOn.repetition ih h hleast hmost hrest
  | group number r ih =>
      intro place i j e rest hr hrest
      apply Reaches.expand rfl (.head _)
      apply ih hr hrest

/-- Ways lead from a position to those up to which an expression matches. -/
theorem exists_way_iff {r : Regex} (hbounded : r.Bounded) {i : Nat} :
  (∃ way, Way text ∅ (r.startAt i) way e) ↔ r.Matches text i e
  := by
  constructor
  · rintro ⟨way, hway⟩
    have h := hway.stackMatches hbounded (.inr (.here 1 r []))
    rw [startAt, stackMatches_regex_iff] at h
    obtain ⟨k, hr, rfl⟩ := h
    apply hr
  · intro hr
    have hreaches : Reaches text (r.startAt i) e := leadsOn text r hr (reaches_nil e)
    obtain ⟨n, hwalk⟩ := hreaches
    apply hwalk.exists_way

/-- No way leads on from a position if the expression does not match there. -/
theorem dead_startAt_iff {r : Regex} (hbounded : r.Bounded) {i : Nat} :
  Dead text ∅ (r.startAt i) ↔ ∀ j, ¬ r.Matches text i j
  := by
  simp only [← exists_way_iff hbounded, not_exists]
  exact forall_comm

/-- The preferred way leads to a position up to which the expression matches. -/
theorem Prefers.matches {r : Regex} (hbounded : r.Bounded) {i : Nat} (h : r.Prefers text i e) :
  r.Matches text i e
  := by
  obtain ⟨way, hway, -⟩ := h
  apply (exists_way_iff hbounded).mp ⟨way, hway⟩

end ShiftReduce.Regex
