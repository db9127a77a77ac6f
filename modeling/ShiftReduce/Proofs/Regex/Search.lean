import Mathlib.Order.Interval.Finset.Nat
import ShiftReduce.Proofs.Regex.Ways

/-!
# The search for a match

At each step of the search there are points from which it may go on, each with the position at
which its match has started, in the order of preference, and points that have been met.  What is
found is where the preferred way leads from the first point that is not dead, or else something
that is less preferred than what comes of the points (`Resolves`).  None of the steps changes this:
a point gives way to those that continue it, and a point that has been met is left out.

As long as nothing has been found a match can start at any later position, and is then less
preferred.  So what is found is what the preferred way leads to from the first position at which
the expression matches (`find?_eq_some_iff`), and nothing is found exactly if it matches nowhere.
-/

namespace ShiftReduce.Regex

variable {text : List Char}

/-! ### What comes of several points -/

/-- A point with the position at which its match has started. -/
structure Trail where
  start : Nat
  point : Point

/-- What is found from some points, where `last` says what may be found if all of them are
dead. -/
inductive Resolves (text : List Char) (last : Option (Nat × Nat) → Prop) (met : Set Point) :
    List Trail → Option (Nat × Nat) → Prop where
  | none {result : Option (Nat × Nat)} (h : last result) : Resolves text last met [] result
  | found {start : Nat} {p : Point} {trails : List Trail} {e : Nat}
      (h : Preferred text met p e) : Resolves text last met (⟨start, p⟩ :: trails) (some (start, e))
  | dead {start : Nat} {p : Point} {trails : List Trail} {result : Option (Nat × Nat)}
      (hp : Dead text met p) (h : Resolves text last met trails result) :
      Resolves text last met (⟨start, p⟩ :: trails) result

/-- The same ways lead on from a point, whichever of two sets of points has been met. -/
def SameWays (text : List Char) (met met' : Set Point) (p : Point) : Prop :=
  ∀ way e, Way text met p way e ↔ Way text met' p way e

theorem SameWays.dead {met met' : Set Point} {p : Point} (h : SameWays text met met' p)
    (hp : Dead text met p) :
  Dead text met' p
  := by
  intro way e hway
  apply hp way e ((h way e).mpr hway)

/-- What has been met at other positions than those of a point or later ones makes no
difference. -/
theorem sameWays_of_position {met met' : Set Point} {p : Point}
    (h : ∀ q : Point, p.position ≤ q.position → (q ∈ met ↔ q ∈ met')) :
  SameWays text met met' p
  := by
  intro way e
  constructor
  · intro hway
    apply hway.of_position
    intro q hq hle
    apply (h q hle).mpr hq
  · intro hway
    apply hway.of_position
    intro q hq hle
    apply (h q hle).mp hq

/-- Past a dead point lead the same ways. -/
theorem sameWays_insert {met : Set Point} {u : Point} (hu : Dead text met u) (p : Point) :
  SameWays text (insert u met) met p
  := by
  intro way e
  constructor
  · apply Way.mono (Set.subset_insert u met)
  · apply Way.insert_of_dead subset_rfl hu

namespace Resolves

variable {last last' : Option (Nat × Nat) → Prop} {met met' : Set Point}
  {trails trails' : List Trail} {result : Option (Nat × Nat)}

theorem congr (hways : ∀ t ∈ trails, SameWays text met met' t.point)
    (h : Resolves text last met trails result) :
  Resolves text last met' trails result
  := by
  induction h with
  | none h => apply none h
  | found h =>
      rw [List.forall_mem_cons] at hways
      apply found (h.congr hways.1)
  | dead hp h ih =>
      rw [List.forall_mem_cons] at hways
      apply dead (hways.1.dead hp) (ih hways.2)

/-- Points that are more preferred make no difference to what comes of the others. -/
theorem append_congr {before : List Trail}
    (hbefore : ∀ t ∈ before, SameWays text met met' t.point)
    (htrails : Resolves text last met trails result → Resolves text last' met' trails' result)
    (h : Resolves text last met (before ++ trails) result) :
  Resolves text last' met' (before ++ trails') result
  := by
  induction before with
  | nil => apply htrails h
  | cons t before ih =>
      rw [List.forall_mem_cons] at hbefore
      cases h with
      | found h => apply found (h.congr hbefore.1)
      | dead hp h => apply dead (hbefore.1.dead hp) (ih hbefore.2 h)

/-- What comes of some points comes of the first ones, unless they are all dead. -/
theorem append_cases {before : List Trail}
    (h : Resolves text last met (before ++ trails) result) :
  (∃ first t later e, before = first ++ t :: later ∧ (∀ d ∈ first, Dead text met d.point)
      ∧ Preferred text met t.point e ∧ result = some (t.start, e))
    ∨ (∀ d ∈ before, Dead text met d.point) ∧ Resolves text last met trails result
  := by
  induction before with
  | nil => exact .inr ⟨nofun, h⟩
  | cons t before ih =>
      cases h with
      | found h => exact .inl ⟨[], _, before, _, rfl, nofun, h, rfl⟩
      | dead hp h =>
          rcases ih h with ⟨first, t, later, e, rfl, hfirst, ht, hresult⟩ | ⟨hbefore, h⟩
          · refine .inl ⟨_ :: first, t, later, e, rfl, ?_, ht, hresult⟩
            rw [List.forall_mem_cons]
            exact ⟨hp, hfirst⟩
          · refine .inr ⟨?_, h⟩
            rw [List.forall_mem_cons]
            exact ⟨hp, hbefore⟩

/-- Where all points are dead something else is found. -/
theorem of_dead (hdead : ∀ t ∈ trails, Dead text met t.point) (h : last result) :
  Resolves text last met trails result
  := by
  induction trails with
  | nil => apply none h
  | cons t trails ih =>
      rw [List.forall_mem_cons] at hdead
      apply dead hdead.1 (ih hdead.2)

/-- From an empty stack nothing else is tried. -/
theorem done (start i : Nat) (trails : List Trail) :
  Resolves text last met (⟨start, [], i⟩ :: trails) (some (start, i))
  := .found (.done met i)

/-- A point that has been met is left out. -/
theorem skip {frame : Frame} {rest : List Frame} {start i : Nat}
    (hmet : ⟨frame :: rest, i⟩ ∈ met) (h : Resolves text last met trails result) :
  Resolves text last met (⟨start, frame :: rest, i⟩ :: trails) result
  := by
  apply dead _ h
  intro way e hway
  cases hway with
  | step hp => apply hp hmet

/-- A point that has not been met gives way to those that continue it. -/
theorem step {frame : Frame} {rest : List Frame} {start i : Nat}
    (hfresh : ⟨frame :: rest, i⟩ ∉ met)
    (h : Resolves text last (insert ⟨frame :: rest, i⟩ met)
      ((Point.next text ⟨frame :: rest, i⟩).map (Trail.mk start) ++ trails) result) :
  Resolves text last met (⟨start, frame :: rest, i⟩ :: trails) result
  := by
  rcases h.append_cases with ⟨first, t, later, e, hnext, hfirst, ht, rfl⟩ | ⟨hdead, h⟩
  · obtain ⟨before, _, hpoints, rfl, hlater⟩ := List.map_eq_append_iff.mp hnext
    obtain ⟨p, after, rfl, rfl, rfl⟩ := List.map_eq_cons_iff.mp hlater
    rw [List.forall_mem_map] at hfirst
    apply found (.step hfresh before hpoints hfirst ht)
  · rw [List.forall_mem_map] at hdead
    have hu : Dead text met ⟨frame :: rest, i⟩ := by
      intro way e hway
      cases hway with
      | step _ hq hway => apply hdead _ (List.mem_of_getElem? hq) _ e hway
    apply dead hu
    apply h.congr
    intro t _
    apply sameWays_insert hu

end Resolves

/-! ### One position -/

/-- The points of threads at a position. -/
def trailsAt (i : Nat) (threads : List Thread) : List Trail :=
  threads.map fun thread => ⟨thread.start, thread.stack, i⟩

/-- The points at a position whose stacks are met and have one of some places on top. -/
def metAt (r : Regex) (i : Nat) (places : Finset Nat) : Set Point :=
  { p | p.position = i ∧ ∃ frame rest, p.stack = frame :: rest ∧ r.Met p.stack
    ∧ frame.place ∈ places }

/-- The threads have stacks that are met. -/
def Threads (r : Regex) (threads : List Thread) : Prop :=
  ∀ thread ∈ threads, r.Met thread.stack

variable {r : Regex} {i : Nat} {places : Finset Nat}

theorem mem_metAt_iff {p : Point} :
  p ∈ metAt r i places ↔ p.position = i ∧ ∃ frame rest, p.stack = frame :: rest
    ∧ r.Met p.stack ∧ frame.place ∈ places
  := Iff.rfl

theorem mem_metAt {frame : Frame} {rest : List Frame} (h : r.Met (frame :: rest)) :
  ⟨frame :: rest, i⟩ ∈ metAt r i places ↔ frame.place ∈ places
  := by
  rw [mem_metAt_iff]
  constructor
  · rintro ⟨-, frame', rest', heq, -, hplace⟩
    cases heq
    apply hplace
  · intro hplace
    exact ⟨rfl, frame, rest, rfl, h, hplace⟩

/-- The only stack with the place of one that is met is that one. -/
theorem metAt_insert (hbounded : r.Bounded) {frame : Frame} {rest : List Frame}
    (h : r.Met (frame :: rest)) :
  metAt r i (insert frame.place places) = insert ⟨frame :: rest, i⟩ (metAt r i places)
  := by
  ext ⟨stack, j⟩
  simp only [mem_metAt_iff, Set.mem_insert_iff, Point.mk.injEq, Finset.mem_insert]
  constructor
  · rintro ⟨rfl, frame', rest', rfl, hmet, hplace | hplace⟩
    · exact .inl ⟨hmet.unique hbounded h hplace, rfl⟩
    · exact .inr ⟨rfl, frame', rest', rfl, hmet, hplace⟩
  · rintro (⟨rfl, rfl⟩ | ⟨rfl, frame', rest', rfl, hmet, hplace⟩)
    · exact ⟨rfl, frame, rest, rfl, h, .inl rfl⟩
    · exact ⟨rfl, frame', rest', rfl, hmet, .inr hplace⟩

/-- What has been met at a position makes no difference at the next one. -/
theorem sameWays_next {met met' : Set Point} (hmet : ∀ q ∈ met, q.position = i)
    (hmet' : ∀ q ∈ met', q.position = i) {threads : List Thread} :
  ∀ t ∈ trailsAt (i + 1) threads, SameWays text met met' t.point
  := by
  intro t ht
  obtain ⟨thread, -, rfl⟩ := List.mem_map.mp ht
  apply sameWays_of_position
  intro q hq
  constructor
  · intro hmem
    cases Nat.lt_irrefl i (hmet q hmem ▸ hq)
  · intro hmem
    cases Nat.lt_irrefl i (hmet' q hmem ▸ hq)

theorem trailsAt_append (i : Nat) (threads threads' : List Thread) :
  trailsAt i (threads ++ threads') = trailsAt i threads ++ trailsAt i threads'
  := List.map_append

/-- What may be found if all threads that go on from a position are dead: a match that has come to
its end there, or else what might be found before. -/
def Advance.last (next : Advance) (i : Nat) (last : Option (Nat × Nat) → Prop) :
    Option (Nat × Nat) → Prop :=
  match next.ended with
  | some start => (· = some (start, i))
  | none => last

/-- What the search makes of the threads at a position: what comes of those that go on also comes
of the threads found so far and those that wait. -/
structure Continues (r : Regex) (text : List Char) (i : Nat) (places : Finset Nat)
    (found waiting : List Thread) (next : Advance) : Prop where
  threads : Threads r next.threads
  resolves : ∀ {last result},
    Resolves text (next.last i last) ∅ (trailsAt (i + 1) next.threads) result →
    Resolves text last (metAt r i places) (trailsAt (i + 1) found.reverse ++ trailsAt i waiting)
      result

namespace Continues

variable {found waiting : List Thread} {next : Advance} {frame : Frame} {rest : List Frame}
  {start : Nat}

/-- When no thread waits, those that have been found go on. -/
theorem nil (hfound : Threads r found) :
  Continues r text i places found [] ⟨found.reverse, none⟩
  where
  threads thread hthread := hfound thread (List.mem_reverse.mp hthread)
  resolves h := by
    have htrails : trailsAt i [] = [] := rfl
    rw [htrails, List.append_nil]
    apply h.congr (sameWays_next (fun q hq => False.elim hq) fun q hq => hq.1)

/-- At an empty stack the search stops, and what has been found before is preferred. -/
theorem done (hfound : Threads r found) :
  Continues r text i places found (⟨start, []⟩ :: waiting) ⟨found.reverse, some start⟩
  where
  threads thread hthread := hfound thread (List.mem_reverse.mp hthread)
  resolves {last result} h := by
    rw [← List.append_nil (trailsAt _ _)] at h
    apply h.append_congr (sameWays_next (fun q hq => False.elim hq) fun q hq => hq.1)
    rintro ⟨hlast⟩
    obtain rfl : result = some (start, i) := hlast
    apply Resolves.done

/-- A thread whose place has been met is left out. -/
theorem skip (hmet : r.Met (frame :: rest)) (hplace : frame.place ∈ places)
    (h : Continues r text i places found waiting next) :
  Continues r text i places found (⟨start, frame :: rest⟩ :: waiting) next
  where
  threads := h.threads
  resolves hnext := by
    apply (h.resolves hnext).append_congr fun t _ way e => Iff.rfl
    intro h
    apply h.skip ((mem_metAt hmet).mpr hplace)

/-- Another thread is found, or gives way to those that continue it. -/
theorem step (hbounded : r.Bounded) (hmet : r.Met (frame :: rest)) (hplace : frame.place ∉ places)
    {found' waiting' : List Thread}
    (htrails : trailsAt (i + 1) found'.reverse ++ trailsAt i waiting'
      = trailsAt (i + 1) found.reverse
        ++ ((Point.next text ⟨frame :: rest, i⟩).map (Trail.mk start) ++ trailsAt i waiting))
    (h : Continues r text i (insert frame.place places) found' waiting' next) :
  Continues r text i places found (⟨start, frame :: rest⟩ :: waiting) next
  where
  threads := h.threads
  resolves {last result} hnext := by
    have hresolves := h.resolves hnext
    rw [htrails, metAt_insert hbounded hmet] at hresolves
    apply hresolves.append_congr
    · apply sameWays_next _ fun q hq => hq.1
      rintro q (rfl | hq)
      · rfl
      · apply hq.1
    · intro h
      apply Resolves.step _ h
      rwa [mem_metAt hmet]

end Continues

theorem length_choose {α : Type} (greedy : Bool) (more fewer : α) :
  (choose greedy more fewer).length = 2
  := by cases greedy <;> rfl

/-- A stack is continued by at most two others. -/
theorem length_expand_le (frame : Frame) (before after : Option Char) (rest : List Frame) :
  (frame.expand before after rest).length ≤ 2
  := by
  cases frame with
  | rounds place r greedy => simp [Frame.expand, length_choose]
  | regex place r =>
      cases r with
      | assertion a =>
          rw [Frame.expand]
          split <;> simp
      | repetition r least most greedy =>
          rw [Frame.expand]
          unfold unroll
          dsimp only
          split
          · simp
          · simp [length_choose]
          · split <;> simp [length_choose]
          · simp
          · simp
      | _ => simp [Frame.expand]

/-- A frame that needs the next character is found with what is below it. -/
theorem trailsAt_found {frame : Frame} {rest : List Frame} {s : Unicode.CodePoints}
    (hset : frame.set? = some s) (start : Nat) (found waiting : List Thread) :
  trailsAt (i + 1)
      (if text[i]?.any s.contains then Thread.mk start rest :: found else found).reverse
      ++ trailsAt i waiting
    = trailsAt (i + 1) found.reverse
      ++ ((Point.next text ⟨frame :: rest, i⟩).map (Trail.mk start) ++ trailsAt i waiting)
  := by
  rw [Point.next, hset]
  dsimp only
  split
  · rw [List.reverse_cons, trailsAt_append, List.append_assoc]
    rfl
  · rfl

/-- Another frame gives way to the stacks that continue it. -/
theorem trailsAt_expanded {frame : Frame} {rest : List Frame} (hset : frame.set? = none)
    (start : Nat) (found waiting : List Thread) :
  trailsAt (i + 1) found.reverse
      ++ trailsAt i
        ((frame.expand (charBefore text i) text[i]? rest).map (Thread.mk start) ++ waiting)
    = trailsAt (i + 1) found.reverse
      ++ ((Point.next text ⟨frame :: rest, i⟩).map (Trail.mk start) ++ trailsAt i waiting)
  := by
  rw [trailsAt_append, Point.next, hset]
  simp [trailsAt]

theorem contains_insert_iff {met : Std.TreeSet Nat}
    (hmet : ∀ p, met.contains p = true ↔ p ∈ places) (place p : Nat) :
  (met.insert place).contains p = true ↔ p ∈ insert place places
  := by
  rw [Std.TreeSet.contains_insert, Bool.or_eq_true, beq_iff_eq, Nat.compare_eq_eq, hmet,
    Finset.mem_insert, eq_comm]

/-- While there is a place that has not been met, fewer places have been met than there are. -/
theorem card_lt_width {place : Nat} (hplaces : insert place places ⊆ Finset.Icc 1 r.width)
    (hplace : place ∉ places) :
  places.card < r.width
  := by
  have hcard := Finset.card_le_card hplaces
  rwa [Finset.card_insert_of_notMem hplace, Nat.card_Icc] at hcard

/-- The search at a position goes on as it should if it may make enough steps: one for each
thread that waits, and two for each place that has not been met. -/
theorem continues_advance (hbounded : r.Bounded) {steps : Nat} {waiting found : List Thread}
    {met : Std.TreeSet Nat} (hwaiting : Threads r waiting) (hfound : Threads r found)
    (hplaces : places ⊆ Finset.Icc 1 r.width) (hmet : ∀ p, met.contains p = true ↔ p ∈ places)
    (hsteps : waiting.length + 2 * (r.width - places.card) ≤ steps) :
  Continues r text i places found waiting
    (advance (charBefore text i) text[i]? steps waiting met found)
  := by
  induction steps generalizing waiting found met places with
  | zero =>
      obtain rfl := List.length_eq_zero_iff.mp (Nat.le_zero.mp (Nat.le_of_add_right_le hsteps))
      apply Continues.nil hfound
  | succ steps ih =>
      cases waiting with
      | nil => apply Continues.nil hfound
      | cons thread waiting =>
          obtain ⟨start, stack⟩ := thread
          rw [Threads, List.forall_mem_cons] at hwaiting
          obtain ⟨hstack, hwaiting⟩ := hwaiting
          cases stack with
          | nil => apply Continues.done hfound
          | cons frame rest =>
              rw [advance]
              rw [List.length_cons] at hsteps
              split
              · rename_i hcontains
                apply Continues.skip hstack ((hmet _).mp hcontains)
                apply ih hwaiting hfound hplaces hmet
                omega
              · rename_i hcontains
                rw [hmet] at hcontains
                have hplaces' : insert frame.place places ⊆ Finset.Icc 1 r.width := by
                  apply Finset.insert_subset _ hplaces
                  apply Finset.mem_Icc.mpr (hstack.range hbounded)
                have hcard := card_lt_width hplaces' hcontains
                have hmet' := contains_insert_iff hmet frame.place
                dsimp only
                split
                · rename_i s hset
                  apply Continues.step hbounded hstack hcontains
                    (trailsAt_found hset start found waiting)
                  apply ih hwaiting _ hplaces' hmet'
                  · rw [Finset.card_insert_of_notMem hcontains]
                    omega
                  · split
                    · rw [Threads, List.forall_mem_cons]
                      exact ⟨hstack.tail, hfound⟩
                    · apply hfound
                · rename_i hset
                  apply Continues.step hbounded hstack hcontains
                    (trailsAt_expanded hset start found waiting)
                  apply ih _ hfound hplaces' hmet'
                  · have hle := length_expand_le frame (charBefore text i) text[i]? rest
                    rw [Finset.card_insert_of_notMem hcontains, List.length_append,
                      List.length_map]
                    omega
                  · intro thread hthread
                    rcases List.mem_append.mp hthread with hthread | hthread
                    · obtain ⟨stack, hmem, rfl⟩ := List.mem_map.mp hthread
                      exact hstack.expand hmem
                    · apply hwaiting thread hthread

/-! ### All positions -/

/-- At the end of the text no thread goes on. -/
theorem threads_advance_none (before : Option Char) (steps : Nat) (waiting : List Thread)
    (met : Std.TreeSet Nat) :
  (advance before none steps waiting met []).threads = []
  := by
  induction steps generalizing waiting met with
  | zero => rfl
  | succ steps ih =>
      match waiting with
      | [] => rfl
      | ⟨_, []⟩ :: _ => rfl
      | ⟨start, frame :: rest⟩ :: waiting =>
          rw [advance]
          dsimp only
          split
          · apply ih
          · split
            · apply ih
            · apply ih

/-- The threads that wait at a position go on as they should. -/
theorem continues_position (text : List Char) (hbounded : r.Bounded) {threads : List Thread}
    (hthreads : Threads r threads) (i : Nat) :
  Continues r text i ∅ [] threads (advance (charBefore text i) text[i]?
    (threads.length + 2 * r.width + 1) threads {} [])
  := by
  apply continues_advance hbounded hthreads _ (Finset.empty_subset _)
  · intro p
    simp
  · rw [Finset.card_empty]
    omega
  · intro thread hthread
    cases hthread

/-- What comes of the threads that go on also comes of those that wait. -/
theorem Continues.position {threads : List Thread} {next : Advance}
    (h : Continues r text i ∅ [] threads next) {last : Option (Nat × Nat) → Prop}
    {result : Option (Nat × Nat)}
    (hnext : Resolves text (next.last i last) ∅ (trailsAt (i + 1) next.threads) result) :
  Resolves text last ∅ (trailsAt i threads) result
  := by
  have hempty : metAt r i ∅ = ∅ := by
    apply Set.eq_empty_of_forall_notMem
    rintro p ⟨-, frame, rest, -, -, hplace⟩
    apply Finset.notMem_empty _ hplace
  have hresolves := h.resolves hnext
  rwa [hempty] at hresolves

/-! ### Later starts -/

/-- The points at which a match can start from a position on. -/
def starts (r : Regex) (text : List Char) (i : Nat) : List Trail :=
  (List.range' i (text.length + 1 - i)).map fun k => ⟨k, r.startAt k⟩

theorem starts_of_le (hi : i ≤ text.length) :
  r.starts text i = ⟨i, r.startAt i⟩ :: r.starts text (i + 1)
  := by
  have hsucc : text.length + 1 - i = text.length + 1 - (i + 1) + 1 := by omega
  rw [starts, hsucc, List.range'_succ]
  rfl

theorem starts_of_lt (hi : text.length < i) :
  r.starts text i = []
  := by
  rw [starts, Nat.sub_eq_zero_of_le hi]
  rfl

theorem mem_starts_iff {t : Trail} :
  t ∈ r.starts text i ↔ i ≤ t.start ∧ t.start ≤ text.length ∧ t.point = r.startAt t.start
  := by
  obtain ⟨start, point⟩ := t
  simp only [starts, List.mem_map, List.mem_range'_1, Trail.mk.injEq]
  constructor
  · rintro ⟨k, hk, rfl, rfl⟩
    exact ⟨hk.1, by omega, rfl⟩
  · rintro ⟨hi, hle, rfl⟩
    exact ⟨start, ⟨hi, by omega⟩, rfl, rfl⟩

/-- What may be found from a position on if all threads are dead: the best match so far, or
without one what a match can be that starts there or later. -/
def pending (r : Regex) (text : List Char) (everywhere : Bool) (i : Nat)
    (best : Option (Nat × Nat)) : Option (Nat × Nat) → Prop :=
  if everywhere && best.isNone then Resolves text (· = none) ∅ (r.starts text i) else (· = best)

variable {everywhere : Bool} {best : Option (Nat × Nat)}

theorem threads_withStart (everywhere : Bool) (i : Nat) (best : Option (Nat × Nat))
    {threads : List Thread} (h : Threads r threads) :
  Threads r (r.withStart everywhere i best threads)
  := by
  rw [withStart]
  split
  · rw [Threads, List.forall_mem_append, List.forall_mem_singleton]
    exact ⟨h, .inr (.here 1 r [])⟩
  · exact h

/-- The thread that starts at a position stands for one of the starts. -/
theorem Resolves.of_withStart (hi : i ≤ text.length) {threads : List Thread}
    {result : Option (Nat × Nat)}
    (h : Resolves text (r.pending text everywhere (i + 1) best) ∅
      (trailsAt i (r.withStart everywhere i best threads)) result) :
  Resolves text (r.pending text everywhere i best) ∅ (trailsAt i threads) result
  := by
  rw [withStart, pending] at h
  rw [pending]
  split
  · rename_i hstart
    rw [if_pos hstart, if_pos hstart, trailsAt_append] at h
    rw [← List.append_nil (trailsAt i threads)]
    apply h.append_congr fun t _ way e => Iff.rfl
    intro hstarts
    apply Resolves.none
    rw [starts_of_le hi]
    cases hstarts with
    | found hway => exact .found hway
    | dead hp hlater =>
        cases hlater with
        | none hlast => exact .dead hp hlast
  · rename_i hstart
    rwa [if_neg hstart, if_neg hstart] at h

/-- The best match so far may be found, if it is clear that there is one or none, or if no match
can start any more. -/
theorem pending_self (h : (everywhere && best.isNone) = true → text.length < i) :
  r.pending text everywhere i best best
  := by
  rw [pending]
  split
  · rename_i hstart
    rw [starts_of_lt (h hstart)]
    apply Resolves.none
    exact Option.isNone_iff_eq_none.mp (Bool.and_eq_true_iff.mp hstart).2
  · rfl

/-! ### All positions -/

theorem Advance.last_pending (next : Advance) {j : Nat} :
  next.last i (r.pending text everywhere j best)
    = r.pending text everywhere j (next.best i best)
  := by
  unfold last Advance.best
  cases next.ended with
  | none => rfl
  | some start => simp [pending]

/-- The search goes on at the next position, unless it is clear what is found. -/
theorem searchFrom_cons {width i : Nat} {before : Option Char} {threads : List Thread} {c : Char}
    {rest : List Char} {next : Advance}
    (hnext : next = advance before (some c)
      ((r.withStart everywhere i best threads).length + 2 * width + 1)
      (r.withStart everywhere i best threads) {} []) :
  searchFrom r width everywhere i before best threads (c :: rest)
    = if next.threads.isEmpty && ((next.best i best).isSome || ! everywhere) then next.best i best
      else searchFrom r width everywhere (i + 1) (some c) (next.best i best) next.threads rest
  := by
  subst hnext
  rfl

/-- What the search finds from a position on comes of the threads that wait there, or may be found
if all of them are dead. -/
theorem resolves_searchFrom (hbounded : r.Bounded) {threads : List Thread}
    (hthreads : Threads r threads) {i : Nat} (hi : i ≤ text.length) {rest : List Char}
    (hrest : rest = text.drop i) (best : Option (Nat × Nat)) :
  Resolves text (r.pending text everywhere i best) ∅ (trailsAt i threads)
    (searchFrom r r.width everywhere i (charBefore text i) best threads rest)
  := by
  induction rest generalizing i best threads with
  | nil =>
      have hlength : text.length ≤ i := List.drop_eq_nil_iff.mp hrest.symm
      have hnext := continues_position text hbounded
        (threads_withStart everywhere i best hthreads) i
      rw [List.getElem?_eq_none hlength] at hnext
      apply Resolves.of_withStart hi
      apply hnext.position
      rw [threads_advance_none, Advance.last_pending]
      apply Resolves.none
      apply pending_self fun _ => Nat.lt_succ_of_le hlength
  | cons c rest ih =>
      have hafter : text[i]? = some c := by
        rw [← List.head?_drop, ← hrest, List.head?_cons]
      have hrest' : rest = text.drop (i + 1) := by
        rw [← List.tail_drop, ← hrest, List.tail_cons]
      have hi' : i + 1 ≤ text.length := (List.getElem?_eq_some_iff.mp hafter).1
      have hnext := continues_position text hbounded
        (threads_withStart everywhere i best hthreads) i
      rw [hafter] at hnext
      apply Resolves.of_withStart hi
      generalize hadvance : advance _ _ _ (r.withStart everywhere i best threads) {} [] = next
        at hnext
      rw [searchFrom_cons hadvance.symm]
      apply hnext.position
      rw [Advance.last_pending]
      split
      · rename_i hstop
        obtain ⟨hempty, hsettled⟩ := Bool.and_eq_true_iff.mp hstop
        rw [List.isEmpty_iff.mp hempty]
        apply Resolves.none
        apply pending_self
        intro hstart
        cases hbest : next.best i best <;> simp_all
      · have hbefore : charBefore text (i + 1) = some c := hafter
        rw [← hbefore]
        exact ih hnext.threads hi' hrest' _

/-- What is found in a text is what comes of the positions at which a match can start. -/
theorem resolves_find? (hbounded : r.Bounded) (text : List Char) :
  Resolves text (· = none) ∅ (r.starts text 0) (r.find? text)
  := by
  rw [find?]
  split
  · -- all starts but the first one are dead
    rename_i hstart
    have hthreads : Threads r [⟨0, [.regex 1 r]⟩] := by
      rw [Threads, List.forall_mem_singleton]
      exact .inr (.here 1 r [])
    have hresolves : Resolves text (r.pending text false 0 none) ∅ ([⟨0, r.startAt 0⟩] ++ []) _ :=
      resolves_searchFrom hbounded hthreads (Nat.zero_le text.length) rfl none
    rw [starts_of_le (Nat.zero_le _)]
    apply hresolves.append_congr fun t _ way e => Iff.rfl
    rintro ⟨hlast⟩
    apply Resolves.of_dead _ hlast
    intro t ht
    obtain ⟨hpos, hle, hpoint⟩ := mem_starts_iff.mp ht
    rw [hpoint, dead_startAt_iff hbounded]
    intro j hmatches
    have hzero := hmatches.eq_zero hstart hle
    omega
  · have hresolves : Resolves text (r.pending text true 0 none) ∅ (trailsAt 0 []) _ :=
      resolves_searchFrom hbounded (List.forall_mem_nil _) (Nat.zero_le text.length) rfl none
    cases hresolves with
    | none h => exact h

/-- Of the starts from a position on the first one is taken from which a way leads on. -/
theorem resolves_starts_cases {i : Nat} {result : Option (Nat × Nat)}
    (h : Resolves text (· = none) ∅ (r.starts text i) result) :
  (result = none ∧ ∀ k, i ≤ k → k ≤ text.length → Dead text ∅ (r.startAt k))
    ∨ ∃ s e, result = some (s, e) ∧ s ≤ text.length ∧ r.Prefers text s e
      ∧ ∀ k, i ≤ k → k < s → Dead text ∅ (r.startAt k)
  := by
  induction hlength : text.length + 1 - i generalizing i with
  | zero =>
      left
      rw [starts_of_lt (by omega)] at h
      cases h with
      | none hlast =>
          use hlast
          omega
  | succ n ih =>
      rw [starts_of_le (by omega)] at h
      cases h with
      | @found _ _ _ e hprefers =>
          right
          refine ⟨i, e, rfl, by omega, hprefers, ?_⟩
          omega
      | dead hp h =>
          have hfirst (k : Nat) (hk : i ≤ k) : k = i ∨ i + 1 ≤ k := by omega
          rcases ih h (by omega) with ⟨hnone, hdead⟩ | ⟨s, e, hsome, hs, hprefers, hdead⟩
          · left
            use hnone
            intro k hk hle
            rcases hfirst k hk with rfl | hk
            · exact hp
            · exact hdead k hk hle
          · right
            refine ⟨s, e, hsome, hs, hprefers, ?_⟩
            intro k hk hlt
            rcases hfirst k hk with rfl | hk
            · exact hp
            · exact hdead k hk hlt

/-- Either there is no match and none is found, or what is found starts where the first match
starts and ends where the preferred one from there ends. -/
theorem find?_cases (hbounded : r.Bounded) (text : List Char) :
  (r.find? text = none ∧ ∀ k ≤ text.length, ∀ j, ¬ r.Matches text k j)
    ∨ ∃ s e, r.find? text = some (s, e) ∧ s ≤ text.length ∧ r.Prefers text s e
      ∧ ∀ k < s, ∀ j, ¬ r.Matches text k j
  := by
  simp only [← dead_startAt_iff hbounded]
  apply (resolves_starts_cases (resolves_find? hbounded text)).imp
  · rintro ⟨hnone, hdead⟩
    exact ⟨hnone, fun k => hdead k (Nat.zero_le k)⟩
  · rintro ⟨s, e, hsome, hs, hprefers, hdead⟩
    exact ⟨s, e, hsome, hs, hprefers, fun k => hdead k (Nat.zero_le k)⟩

/-- The match that is found starts as early as a match can, and it is the one that is preferred
among those that start there. -/
theorem find?_eq_some_iff (hbounded : r.Bounded) {s e : Nat} :
  r.find? text = some (s, e)
    ↔ s ≤ text.length ∧ r.Prefers text s e ∧ ∀ k < s, ∀ j, ¬ r.Matches text k j
  := by
  constructor
  · intro hfind
    rcases find?_cases hbounded text with ⟨hnone, -⟩ | ⟨s', e', hsome, h⟩
    · cases hfind.symm.trans hnone
    · cases hfind.symm.trans hsome
      exact h
  · rintro ⟨hs, hprefers, hfirst⟩
    rcases find?_cases hbounded text with ⟨-, hall⟩ | ⟨s', e', hsome, -, hprefers', hfirst'⟩
    · cases hall s hs e (hprefers.matches hbounded)
    · rcases Nat.lt_trichotomy s s' with hlt | rfl | hlt
      · cases hfirst' s hlt e (hprefers.matches hbounded)
      · rw [hsome, hprefers.unique hprefers']
      · cases hfirst s' hlt e' (hprefers'.matches hbounded)

/-- No match is found exactly if there is none. -/
theorem find?_eq_none_iff (hbounded : r.Bounded) :
  r.find? text = none ↔ ∀ k ≤ text.length, ∀ j, ¬ r.Matches text k j
  := by
  rcases find?_cases hbounded text with ⟨hnone, hall⟩ | ⟨s, e, hsome, hs, hprefers, -⟩
  · exact iff_of_true hnone hall
  · rw [hsome]
    simp only [reduceCtorEq, false_iff]
    intro hall
    apply hall s hs e (hprefers.matches hbounded)

end ShiftReduce.Regex
