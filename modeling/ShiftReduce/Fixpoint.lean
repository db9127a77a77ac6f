/-!
# Iteration up to a fixed point

`stabilize f n a` applies `f` to `a` again and again until nothing changes, at most `n`
times.  It keeps what `f` keeps (`stabilize_preserves`).  Where each change makes something
larger that cannot exceed `n`, its value is a fixed point of `f` (`stabilize_fixed`).

`pass.saturate a` makes passes that report whether they have changed anything, without a
bound, until one reports that it has not.  Where the reports are right and a fixed point of
the rounds is reached, the passes end with it (`Pass.exists_saturate`).  A pass usually is a
`sweep`: a step for each entry of a list, any of which can report a change.
-/

namespace ShiftReduce

/-- The first of `a`, `f a`, `f (f a)`, … that `f` does not change, or else the one after
`n` rounds. -/
def stabilize {α : Type} [DecidableEq α] (f : α → α) : Nat → α → α
  | 0, a => a
  | n + 1, a =>
    let b := f a
    if b = a then a else stabilize f n b

variable {α : Type} [DecidableEq α] {f : α → α}

theorem stabilize_of_fixed {a : α} (h : f a = a) (n : Nat) :
  stabilize f n a = a
  := by
  cases n with
  | zero => rfl
  | succ n => simp [stabilize, h]

/-- What holds at the start and is kept by a round holds at the end. -/
theorem stabilize_preserves {I : α → Prop} (hI : ∀ a, I a → I (f a)) (n : Nat) {a : α}
    (ha : I a) :
  I (stabilize f n a)
  := by
  induction n generalizing a with
  | zero => apply ha
  | succ n ih =>
      by_cases h : f a = a
      · rw [stabilize_of_fixed h]
        apply ha
      · simp only [stabilize, h, if_false]
        apply ih (hI a ha)

/-- Where each change makes `size` larger, and `size` cannot exceed the number of rounds,
these are enough. -/
theorem stabilize_fixed {I : α → Prop} (hI : ∀ a, I a → I (f a)) (size : α → Nat)
    (hgrow : ∀ a, I a → f a ≠ a → size a < size (f a)) {k n : Nat}
    (hbound : ∀ a, I a → size a ≤ k) {a : α} (ha : I a) (hn : k ≤ n + size a) :
  f (stabilize f n a) = stabilize f n a
  := by
  induction n generalizing a with
  | zero =>
      by_cases h : f a = a
      · apply h
      · have hlt := hgrow a ha h
        have hle := hbound (f a) (hI a ha)
        omega
  | succ n ih =>
      by_cases h : f a = a
      · rw [stabilize_of_fixed h, h]
      · have hlt := hgrow a ha h
        simp only [stabilize, h, if_false]
        apply ih (hI a ha)
        omega

/-! ### Passes that report changes -/

/-- A change of values, with a report whether anything has changed. -/
structure Pass (α : Type) where
  run : α → α × Bool

namespace Pass

/-- Makes passes until one reports that it has changed nothing.  There is no value if none
ever does. -/
def saturate {α : Type} (pass : Pass α) (a : α) : Option α :=
  let (b, changed) := pass.run a
  if changed then pass |>.saturate b else some b
partial_fixpoint

variable {γ : Type} {pass : Pass γ}

theorem saturate_of_unchanged {c : γ} (h : (pass.run c).2 = false) :
  pass.saturate c = some (pass.run c).1
  := by
  rw [saturate]
  simp [h]

theorem saturate_of_changed {c : γ} (h : (pass.run c).2 = true) :
  pass.saturate c = pass.saturate (pass.run c).1
  := by
  rw [saturate]
  simp [h]

/-- Passes that do to the values of a reading what rounds do, that report a change where they
make the reading larger, and that leave all as it was where they report none, end with the
fixed point that the rounds reach. -/
theorem exists_saturate (pass : Pass γ) {I : γ → Prop} (read : γ → α) (size : α → Nat)
    (hI : ∀ c, I c → I (pass.run c).1)
    (hround : ∀ c, I c → read (pass.run c).1 = f (read c))
    (hsame : ∀ c, I c → (pass.run c).2 = false → (pass.run c).1 = c)
    (hgrow : ∀ c, I c → (pass.run c).2 = true → size (read c) < size (read (pass.run c).1))
    {n : Nat} {c : γ} (hc : I c)
    (hfixed : f (stabilize f n (read c)) = stabilize f n (read c)) :
  ∃ d, pass.saturate c = some d ∧ I d ∧ read d = stabilize f n (read c)
  := by
  have hlast : ∀ c, I c → f (read c) = read c → pass.saturate c = some c := by
    intro c hc h
    cases hchanged : (pass.run c).2 with
    | false => rw [saturate_of_unchanged hchanged, hsame c hc hchanged]
    | true =>
        have hlt := hgrow c hc hchanged
        rw [hround c hc, h] at hlt
        cases Nat.lt_irrefl _ hlt
  induction n generalizing c with
  | zero => exact ⟨c, hlast c hc hfixed, hc, rfl⟩
  | succ n ih =>
      by_cases h : f (read c) = read c
      · rw [stabilize_of_fixed h]
        exact ⟨c, hlast c hc h, hc, rfl⟩
      · have hstep : stabilize f (n + 1) (read c) = stabilize f n (read (pass.run c).1) := by
          rw [hround c hc]
          simp [stabilize, h]
        have hchanged : (pass.run c).2 = true := by
          cases hchanged : (pass.run c).2 with
          | true => rfl
          | false =>
              rw [← hround c hc, hsame c hc hchanged] at h
              cases h rfl
        rw [hstep] at hfixed ⊢
        rw [saturate_of_changed hchanged]
        apply ih (hI c hc) hfixed

end Pass

/-- Makes a step for each entry of a list, and reports whether any of them has reported a
change. -/
def sweep {α β : Type} (step : α → β → α × Bool) (l : List β) (a : α) : α × Bool :=
  l.foldl
    (fun (a, changed) b =>
      let (after, moved) := step a b
      (after, changed || moved))
    (a, false)

/-- A sweep takes the steps one after the other. -/
theorem sweep_fst {α β : Type} (step : α → β → α × Bool) (l : List β) (a : α) :
  (sweep step l a).1 = l.foldl (fun a b => (step a b).1) a
  := by
  suffices h : ∀ changed, (l.foldl (fun (a, changed) b =>
      let (after, moved) := step a b
      (after, changed || moved)) (a, changed)).1 = l.foldl (fun a b => (step a b).1) a from
    h false
  intro changed
  induction l generalizing a changed with
  | nil => rfl
  | cons b rest ih => apply ih

/-- Where a step that reports a change makes something larger, and one that does not leaves
all as it was, so does a sweep. -/
theorem sweep_changed {α β : Type} (step : α → β → α × Bool) {I : α → Prop} {l : List β}
    (size : α → Nat) (hI : ∀ a, I a → ∀ b ∈ l, I (step a b).1)
    (hsame : ∀ a, I a → ∀ b ∈ l, (step a b).2 = false → (step a b).1 = a)
    (hgrow : ∀ a, I a → ∀ b ∈ l, (step a b).2 = true → size a < size (step a b).1)
    {a : α} (ha : I a) :
  I (sweep step l a).1 ∧ ((sweep step l a).2 = false → (sweep step l a).1 = a) ∧
    ((sweep step l a).2 = true → size a < size (sweep step l a).1)
  := by
  suffices h : ∀ start changed, I a → (changed = false → a = start) →
      (changed = true → size start < size a) →
      ∀ swept, swept = l.foldl (fun (a, changed) b =>
        let (after, moved) := step a b
        (after, changed || moved)) (a, changed) →
      I swept.1 ∧ (swept.2 = false → swept.1 = start) ∧
        (swept.2 = true → size start < size swept.1) from
    h a false ha (fun _ => rfl) (by simp) _ rfl
  intro start changed ha hstart hlarger swept hswept
  induction l generalizing a changed with
  | nil =>
      subst hswept
      exact ⟨ha, hstart, hlarger⟩
  | cons b rest ih =>
      have hb := List.mem_cons_self (a := b) (l := rest)
      refine ih (fun a ha b hb => hI a ha b (List.mem_cons_of_mem _ hb))
        (fun a ha b hb => hsame a ha b (List.mem_cons_of_mem _ hb))
        (fun a ha b hb => hgrow a ha b (List.mem_cons_of_mem _ hb)) (hI a ha b hb) _
        (hI a ha b hb) ?_ ?_ hswept
      · intro hnone
        obtain ⟨hchanged, hmoved⟩ := Bool.or_eq_false_iff.mp hnone
        rw [hsame a ha b hb hmoved]
        apply hstart hchanged
      · intro hsome
        cases hmoved : (step a b).2 with
        | true =>
            have hlt := hgrow a ha b hb hmoved
            cases changed with
            | true => exact Nat.lt_trans (hlarger rfl) hlt
            | false =>
                rw [← hstart rfl]
                exact hlt
        | false =>
            rw [hsame a ha b hb hmoved]
            apply hlarger
            simpa [hmoved] using hsome

end ShiftReduce
