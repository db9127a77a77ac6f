import ShiftReduce.Proofs.Regex.ClosingParts
import ShiftReduce.Proofs.Regex.Combination

/-!
# Reading part by part

The reader of expressions goes from part to part.  `Reads` says where it comes; it comes to an
answer exactly if it comes to the end of the text (`readParts_eq_some_iff`).  What it has read
at any time has its bounds in order, and so has the expression that comes of it.
-/

namespace ShiftReduce.Regex

variable {p q : Progress} {text left : List Char}

/-! ### The way of the reader -/

/-- Reads the next part of an expression, if there is one. -/
def nextPart (p : Progress) (text : List Char) : Option (Progress × List Char) :=
  match skip p.flags text with
  | [] => none
  | c :: rest => readPart p c rest

/-- At the end of a text there is no part. -/
theorem nextPart_of_end (h : skip p.flags text = []) :
  nextPart p text = none
  := by rw [nextPart, h]

theorem nextPart_of_skip {c : Char} {rest : List Char} (h : skip p.flags text = c :: rest) :
  nextPart p text = readPart p c rest
  := by rw [nextPart, h]

theorem local_nextPart (p : Progress) :
  Local (nextPart p)
  := by
  have hlocal : Local fun text => match text with
      | [] => none
      | c :: rest => readPart p c rest := local_of_cons rfl (local_readPart p)
  exact hlocal.skip p.flags

theorem length_nextPart_lt (h : nextPart p text = some (q, left)) :
  left.length < text.length
  := by
  have hlength := length_skip_le p.flags text
  cases hskip : skip p.flags text with
  | nil =>
      rw [nextPart_of_end hskip] at h
      cases h
  | cons c rest =>
      rw [hskip, List.length_cons] at hlength
      rw [nextPart_of_skip hskip] at h
      exact Nat.lt_of_le_of_lt ((local_readPart p c).length_le h) hlength

/-- Reading on from one place, the reader comes to another one. -/
inductive Reads : Progress → List Char → Progress → List Char → Prop where
  | done (p : Progress) (text : List Char) : Reads p text p text
  | step {p q r : Progress} {text rest left : List Char} (hpart : nextPart p text = some (q, rest))
      (h : Reads q rest r left) : Reads p text r left

theorem Reads.trans {r : Progress} {text' left' : List Char} (h : Reads p text q text')
    (h' : Reads q text' r left') :
  Reads p text r left'
  := by
  induction h with
  | done => exact h'
  | step hpart _ ih => exact .step hpart (ih h')

/-- The reader passes all places where it comes on the way to the end of the text. -/
theorem Reads.after {r : Progress} {left' : List Char} (h : Reads p text q left)
    (hend : skip q.flags left = []) (h' : Reads p text r left') :
  Reads r left' q left
  := by
  induction h' with
  | done => exact h
  | step hpart _ ih =>
      cases h with
      | done =>
          rw [nextPart_of_end hend] at hpart
          cases hpart
      | step hpart' h =>
          rw [hpart] at hpart'
          cases hpart'
          exact ih h

/-- From the end of a text the reader does not go on. -/
theorem Reads.eq_of_nil (h : Reads p [] q left) :
  q = p ∧ left = []
  := by
  cases h with
  | done => exact ⟨rfl, rfl⟩
  | step hpart =>
      rw [nextPart_of_end (skip_nil p.flags)] at hpart
      cases hpart

theorem Reads.suffix (h : Reads p text q left) :
  left <:+ text
  := by
  induction h with
  | done p text => apply List.suffix_rfl
  | @step p q r text rest left hpart _ ih => exact ih.trans ((local_nextPart p).suffix hpart)

/-- As long as a parenthesis is left, the reader comes to the same place without it and without
what stands after it. -/
theorem Reads.before {text' left' after : List Char} (h : Reads p text' q left')
    (htext : text' = text ++ ')' :: after) (hlt : after.length < left'.length) :
  ∃ left, left' = left ++ ')' :: after ∧ Reads p text q left
  := by
  induction h generalizing text with
  | done p text' => exact ⟨text, htext, .done p text⟩
  | @step p q r text' rest' left' hpart h ih =>
      subst htext
      obtain ⟨rest, hrest, hpart'⟩ := (local_nextPart p).before text after q rest' hpart
        (Nat.lt_of_lt_of_le hlt h.suffix.length_le)
      obtain ⟨left, rfl, hreads⟩ := ih hrest hlt
      exact ⟨left, rfl, .step hpart' hreads⟩

theorem readParts_succ (n : Nat) (p : Progress) (text : List Char) :
  readParts (n + 1) p text
    = if (skip p.flags text).isEmpty then some p
      else (nextPart p text).bind fun (q, rest) => readParts n q rest
  := by
  rw [readParts, nextPart]
  cases skip p.flags text <;> rfl

/-- The reader comes to an answer exactly if it comes to the end of the text. -/
theorem readParts_eq_some_iff {n : Nat} (hn : text.length < n) :
  readParts n p text = some q ↔ ∃ left, Reads p text q left ∧ skip q.flags left = []
  := by
  induction n generalizing p text with
  | zero => cases hn
  | succ n ih =>
      rw [readParts_succ]
      cases hskip : skip p.flags text with
      | nil =>
          constructor
          · intro h
            cases h
            exact ⟨text, .done _ text, hskip⟩
          · rintro ⟨left, hreads, hend⟩
            cases hreads with
            | done => rfl
            | step hpart =>
                rw [nextPart_of_end hskip] at hpart
                cases hpart
      | cons c rest =>
          rw [List.isEmpty_cons, if_neg Bool.false_ne_true, Option.bind_eq_some_iff]
          constructor
          · rintro ⟨⟨r, rest⟩, hpart, h⟩
            have hlt := length_nextPart_lt hpart
            obtain ⟨left, hreads, hend⟩ := (ih (by omega)).mp h
            exact ⟨left, .step hpart hreads, hend⟩
          · rintro ⟨left, hreads, hend⟩
            cases hreads with
            | done =>
                rw [hskip] at hend
                cases hend
            | @step p r q text rest left hpart hreads =>
                have hlt := length_nextPart_lt hpart
                exact ⟨(r, rest), hpart, (ih (by omega)).mpr ⟨left, hreads, hend⟩⟩

/-- There is one progress at most with which the reader comes to the end of a text. -/
theorem Reads.unique {q' : Progress} {left' : List Char} (h : Reads p text q left)
    (hend : skip q.flags left = []) (h' : Reads p text q' left')
    (hend' : skip q'.flags left' = []) :
  q = q'
  := by
  have hparts := (readParts_eq_some_iff (Nat.lt_succ_self text.length)).mpr ⟨left, h, hend⟩
  have hparts' := (readParts_eq_some_iff (Nat.lt_succ_self text.length)).mpr ⟨left', h', hend'⟩
  exact Option.some.inj (hparts.symm.trans hparts')

/-! ### Bounds -/

/-- The bounds of the expressions for which parts and branches stand are in order. -/
structure BoundedParts (branches : List (Regex × Nat)) (parts : List Part) : Prop where
  branches : ∀ branch ∈ branches, branch.1.Bounded
  parts : ∀ part ∈ parts, ∀ r ∈ part.regex?, r.Bounded

/-- The bounds of all expressions that have been read are in order. -/
structure Progress.Bounded (p : Progress) : Prop where
  here : BoundedParts p.branches p.parts
  around : ∀ level ∈ p.around, BoundedParts level.branches level.parts

theorem BoundedParts.ofBranch {branches : List (Regex × Nat)} {parts : List Part}
    (h : BoundedParts branches parts) :
  (ofBranch parts).1.Bounded
  := by
  apply bounded_concatenation
  intro r hr
  obtain ⟨part, hpart, hr⟩ := List.mem_filterMap.mp hr
  exact h.parts part (List.mem_reverse.mp hpart) r hr

theorem BoundedParts.push {branches : List (Regex × Nat)} {parts : List Part}
    (h : BoundedParts branches parts) {r : Regex} (hr : r.Bounded) (height : Nat) :
  BoundedParts branches (.regex r height :: parts)
  where
  branches := h.branches
  parts := List.forall_mem_cons.mpr ⟨fun _ hmem => Option.some.inj hmem ▸ hr, h.parts⟩

namespace Progress.Bounded

theorem value (h : p.Bounded) :
  p.value.1.Bounded
  := by
  apply bounded_alternation
  rw [List.forall_mem_map]
  intro branch hbranch
  rcases List.mem_cons.mp (List.mem_reverse.mp hbranch) with rfl | hbranch
  · exact h.here.ofBranch
  · exact h.here.branches branch hbranch

theorem push (h : p.Bounded) {r : Regex} (hr : r.Bounded) (height : Nat) :
  (p.push r height).Bounded
  where
  here := h.here.push hr height
  around := h.around

theorem pushAtom (h : p.Bounded) (atom : Atom) :
  (p.pushAtom atom).Bounded
  := by
  cases atom with
  | char c => exact h.push (show Regex.Bounded (.set _) from trivial) 0
  | set s => exact h.push (show Regex.Bounded (.set s) from trivial) 0
  | assertion a => exact h.push (show Regex.Bounded (.assertion a) from trivial) 0

theorem alternate (h : p.Bounded) :
  p.alternate.Bounded
  where
  here := ⟨List.forall_mem_cons.mpr ⟨h.here.ofBranch, h.here.branches⟩, nofun⟩
  around := h.around

theorem openLevel (h : p.Bounded) (number : Option Nat) (flags : Flags) :
  (p.openLevel number flags).Bounded
  where
  here := ⟨nofun, nofun⟩
  around := List.forall_mem_cons.mpr ⟨h.here, h.around⟩

theorem closeGroup (h : p.Bounded) (hq : p.closeGroup? = some q) :
  q.Bounded
  := by
  unfold closeGroup? at hq
  split at hq
  · cases hq
  · rename_i level around heq
    cases hq
    have hlevels := heq ▸ h.around
    constructor
    · apply (hlevels level List.mem_cons_self).push
      split
      · exact h.value
      · exact h.value
    · exact (List.forall_mem_cons.mp hlevels).2

theorem repeated (h : p.Bounded) {least : Nat} {most : Option Nat}
    (hmost : ∀ m ∈ most, least ≤ m) {notGreedy : Bool}
    (hq : p.repeat? least most notGreedy = some q) :
  q.Bounded
  := by
  unfold repeat? at hq
  split at hq
  · rename_i r height parts heq
    cases hq
    have hparts := List.forall_mem_cons.mp (heq ▸ h.here.parts)
    have hrest : BoundedParts p.branches parts := ⟨h.here.branches, hparts.2⟩
    exact ⟨hrest.push ((hparts.1 r rfl).repeated hmost _) _, h.around⟩
  · cases hq

theorem readRepetition (h : p.Bounded) {least : Nat} {most : Option Nat}
    (hmost : ∀ m ∈ most, least ≤ m) (hq : readRepetition p least most text = some (q, left)) :
  q.Bounded
  := by
  obtain ⟨q', hrepeat, heq⟩ := Option.map_eq_some_iff.mp hq
  cases heq
  exact h.repeated hmost hrepeat

theorem openGroup (h : p.Bounded) :
  p.openGroup.Bounded
  where
  here := ⟨nofun, nofun⟩
  around := List.forall_mem_cons.mpr ⟨h.here, h.around⟩

theorem readName (h : p.Bounded) (hq : readName p text = some (q, left)) :
  q.Bounded
  := by
  unfold Regex.readName at hq
  dsimp only at hq
  split at hq
  · split at hq
    · cases hq
      exact openGroup ⟨h.here, h.around⟩
    · cases hq
  · cases hq

theorem readGroup (h : p.Bounded) (hq : readGroup p text = some (q, left)) :
  q.Bounded
  := by
  unfold Regex.readGroup at hq
  split at hq
  · unfold readMarkedGroup at hq
    split at hq
    case h_5 | h_6 => exact h.readName hq
    case h_7 =>
      obtain ⟨⟨⟨flags, ended⟩, rest⟩, -, heq⟩ := Option.map_eq_some_iff.mp hq
      cases heq
      cases ended with
      | true => exact ⟨⟨h.here.branches, List.forall_mem_cons.mpr ⟨nofun, h.here.parts⟩⟩, h.around⟩
      | false => exact h.openLevel none flags
    all_goals cases hq
  · cases hq
    exact h.openGroup

/-- The bounds of a repetition are in order. -/
theorem le_of_readBounds {flags : Flags} {least : Nat} {most : Option Nat}
    (h : readBounds flags text = some ((least, most), left)) :
  ∀ m ∈ most, least ≤ m
  := by
  unfold readBounds at h
  generalize readDecimal flags (skip flags text) = result at h
  obtain ⟨least', rest⟩ := result
  cases least' with
  | none => cases h
  | some n =>
      dsimp only [Option.bind_eq_bind, Option.bind_some] at h
      split at h
      · cases h
        simp
      · split at h
        · cases h
          simp
        · split at h
          · split at h
            · cases h
              simpa using by assumption
            · cases h
          · cases h
      · cases h

/-- A part that is read leaves the bounds in order. -/
theorem readPart (h : p.Bounded) {c : Char} {rest : List Char}
    (hq : readPart p c rest = some (q, left)) :
  q.Bounded
  := by
  unfold Regex.readPart at hq
  dsimp only at hq
  split at hq
  · exact h.readGroup hq
  · obtain ⟨q', hclose, heq⟩ := Option.map_eq_some_iff.mp hq
    cases heq
    exact h.closeGroup hclose
  · cases hq
    exact h.alternate
  · obtain ⟨_, -, heq⟩ := Option.map_eq_some_iff.mp hq
    cases heq
    exact h.push (show Regex.Bounded (.set _) from trivial) _
  · exact h.readRepetition (by simp) hq
  · exact h.readRepetition (by simp) hq
  · exact h.readRepetition (by simp) hq
  · obtain ⟨⟨⟨least, most⟩, rest'⟩, hbounds, hq⟩ := Option.bind_eq_some_iff.mp hq
    exact h.readRepetition (le_of_readBounds hbounds) hq
  · obtain ⟨⟨atom, _⟩, -, heq⟩ := Option.map_eq_some_iff.mp hq
    cases heq
    exact h.pushAtom atom
  · split_ifs at hq
    all_goals
      cases hq
      exact h.push (show Regex.Bounded (.set _) from trivial) _
  · cases hq
    exact h.push (show Regex.Bounded (.assertion _) from trivial) _
  · cases hq
    exact h.push (show Regex.Bounded (.assertion _) from trivial) _
  · cases hq
    exact h.pushAtom _

theorem reads (h : p.Bounded) (hreads : Reads p text q left) :
  q.Bounded
  := by
  induction hreads with
  | done => exact h
  | step hpart _ ih =>
      apply ih
      unfold nextPart at hpart
      split at hpart
      · cases hpart
      · exact h.readPart hpart

end Progress.Bounded

end ShiftReduce.Regex
