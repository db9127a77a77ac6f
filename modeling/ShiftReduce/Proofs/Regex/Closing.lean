import Mathlib.Data.List.Permutation
import Mathlib.Tactic.SplitIfs
import ShiftReduce.Regex.Reader

/-!
# Reading before a closing parenthesis

A reader takes something from the start of a text.  If a closing parenthesis is put at the end
of the text, it reads the same, unless it comes to the end: then the parenthesis may go into
what is read, as a character or as part of a comment.  What stands after a parenthesis makes no
difference to what is read before it.  Readers for which this is so are `Local`; it holds of those
that are put together of local ones, so that it need only be looked at what they do at the end of
the text.
-/

namespace ShiftReduce.Regex

open Unicode (CodePoints)

variable {α β : Type}

/-! ### Local readers -/

/-- What can come of a text and of the same text with a closing parenthesis at its end. -/
inductive Closing : Option (α × List Char) → Option (α × List Char) → Prop where
  /-- The parenthesis is left. -/
  | left (x : α) (rest : List Char) : Closing (some (x, rest)) (some (x, rest ++ [')']))
  /-- The parenthesis is passed over. -/
  | passed (x : α) : Closing (some (x, [])) (some (x, []))
  /-- The parenthesis is what was missing. -/
  | missing (x : α) : Closing none (some (x, []))
  /-- Nothing can be read. -/
  | failed : Closing none none

/-- A parenthesis at the end is left if something can be read anyway, unless it is passed. -/
theorem Closing.eq_or {result result' : α × List Char}
    (h : Closing (some result) (some result')) :
  result' = (result.1, result.2 ++ [')']) ∨ result.2 = [] ∧ result' = result
  := by
  cases h with
  | left x rest => exact .inl rfl
  | passed x => exact .inr ⟨rfl, rfl⟩

/-- What can come of a text and of the same text with a closing parenthesis and more after it.  As
long as the parenthesis is left it is the same, and all that comes after is left, too. -/
def Before (after : List Char) (o o' : Option (α × List Char)) : Prop :=
  ∀ x left, o' = some (x, left) → after.length < left.length →
    ∃ rest, left = rest ++ ')' :: after ∧ o = some (x, rest)

theorem before_left (x : α) (rest after : List Char) :
  Before after (some (x, rest)) (some (x, rest ++ ')' :: after))
  := by
  rintro _ _ ⟨⟩ -
  exact ⟨rest, rfl, rfl⟩

theorem before_of_length_le {after : List Char} {o o' : Option (α × List Char)}
    (h : ∀ x left, o' = some (x, left) → left.length ≤ after.length) :
  Before after o o'
  := by
  intro x left ho' hlt
  exact absurd hlt (Nat.not_lt_of_le (h x left ho'))

/-- What a reader makes of a text depends on the end of the text only if it comes there. -/
structure Local (read : List Char → Option (α × List Char)) : Prop where
  suffix {text : List Char} {x : α} {rest : List Char} (h : read text = some (x, rest)) :
    rest <:+ text
  closing (text : List Char) : Closing (read text) (read (text ++ [')']))
  before (text after : List Char) : Before after (read text) (read (text ++ ')' :: after))

variable {read : List Char → Option (α × List Char)}

theorem Local.length_le (h : Local read) {text : List Char} {x : α} {rest : List Char}
    (heq : read text = some (x, rest)) :
  rest.length ≤ text.length
  := (h.suffix heq).length_le

theorem Local.congr {read' : List Char → Option (α × List Char)}
    (heq : ∀ text, read' text = read text) (h : Local read) :
  Local read'
  := by rwa [funext heq]

/-- Nothing is left at the end of a text. -/
theorem Local.at_end (h : Local read) :
  read [] = none ∨ ∃ x, read [] = some (x, [])
  := by
  cases heq : read [] with
  | none => exact .inl rfl
  | some result =>
      obtain ⟨x, rest⟩ := result
      obtain rfl := List.suffix_nil.mp (h.suffix heq)
      exact .inr ⟨x, rfl⟩

theorem local_none :
  Local fun _ => (none : Option (α × List Char))
  where
  suffix h := by cases h
  closing _ := .failed
  before _ _ := before_of_length_le nofun

theorem local_some (x : α) :
  Local fun text => some (x, text)
  where
  suffix h := by
    cases h
    apply List.suffix_rfl
  closing text := .left x text
  before text after := before_left x text after

/-- A local reader may go on where another one has come. -/
theorem Closing.bind {o o' : Option (α × List Char)} (h : Closing o o')
    {next : α × List Char → Option (β × List Char)}
    (hnext : ∀ x, Local fun rest => next (x, rest)) :
  Closing (o.bind next) (o'.bind next)
  := by
  cases h with
  | left x rest => exact (hnext x).closing rest
  | passed x =>
      rcases (hnext x).at_end with h | ⟨y, h⟩
      · simp only [Option.bind_some, h]
        exact .failed
      · simp only [Option.bind_some, h]
        exact .passed y
  | missing x =>
      rcases (hnext x).at_end with h | ⟨y, h⟩
      · simp only [Option.bind_some, h]
        exact .failed
      · simp only [Option.bind_some, h]
        exact .missing y
  | failed => exact .failed

theorem Local.bind (h : Local read) {next : α × List Char → Option (β × List Char)}
    (hnext : ∀ x, Local fun rest => next (x, rest)) :
  Local fun text => (read text).bind next
  where
  suffix heq := by
    obtain ⟨⟨x, rest⟩, hread, hrest⟩ := Option.bind_eq_some_iff.mp heq
    exact ((hnext x).suffix hrest).trans (h.suffix hread)
  closing text := (h.closing text).bind hnext
  before text after := by
    intro y left heq hlt
    obtain ⟨⟨x, middle⟩, hread, hmiddle⟩ := Option.bind_eq_some_iff.mp heq
    have hle := (hnext x).length_le hmiddle
    obtain ⟨rest, rfl, hrest⟩ := h.before text after x middle hread (Nat.lt_of_lt_of_le hlt hle)
    obtain ⟨rest', rfl, hrest'⟩ := (hnext x).before rest after y left hmiddle hlt
    exact ⟨rest', rfl, Option.bind_eq_some_iff.mpr ⟨(x, rest), hrest, hrest'⟩⟩

theorem Local.map (h : Local read) (f : α → β) :
  Local fun text => (read text).map fun (x, rest) => (f x, rest)
  := by
  simp only [Option.map_eq_bind]
  exact h.bind fun x => local_some (f x)

/-- Readers for different characters at the start. -/
def onHead (c : Char) (here other : List Char → Option (α × List Char)) :
    List Char → Option (α × List Char)
  | [] => other []
  | c' :: rest => if c' = c then here rest else other (c' :: rest)

theorem onHead_self {c : Char} {here other : List Char → Option (α × List Char)}
    {rest : List Char} :
  onHead c here other (c :: rest) = here rest
  := if_pos rfl

theorem onHead_of_ne {c : Char} {here other : List Char → Option (α × List Char)}
    {text : List Char} (h : ∀ rest, text = c :: rest → False) :
  onHead c here other text = other text
  := by
  cases text with
  | nil => rfl
  | cons c' rest =>
      apply if_neg
      rintro rfl
      exact h rest rfl

theorem local_onHead {c : Char} (hc : ')' ≠ c)
    {here other : List Char → Option (α × List Char)} (hhere : Local here)
    (hother : Local other) :
  Local (onHead c here other)
  where
  suffix {text x rest} h := by
    match text with
    | [] => exact hother.suffix h
    | c' :: text =>
        rw [onHead] at h
        split_ifs at h
        · exact (hhere.suffix h).trans (List.suffix_cons c' text)
        · exact hother.suffix h
  closing text := by
    match text with
    | [] =>
        have heq : onHead c here other ([] ++ [')']) = other ([] ++ [')']) := if_neg hc
        rw [heq]
        exact hother.closing []
    | c' :: text =>
        simp only [List.cons_append, onHead]
        split
        · exact hhere.closing text
        · exact hother.closing (c' :: text)
  before text after := by
    match text with
    | [] =>
        have heq : onHead c here other ([] ++ ')' :: after) = other ([] ++ ')' :: after) :=
          if_neg hc
        rw [heq]
        exact hother.before [] after
    | c' :: text =>
        simp only [List.cons_append, onHead]
        split
        · exact hhere.before text after
        · exact hother.before (c' :: text) after

theorem local_of_cons (hnil : read [] = none) (h : ∀ c, Local fun rest => read (c :: rest)) :
  Local read
  where
  suffix {text x rest} heq := by
    match text with
    | [] =>
        rw [hnil] at heq
        cases heq
    | c :: text => exact ((h c).suffix heq).trans (List.suffix_cons c text)
  closing text := by
    match text with
    | [] =>
        rw [hnil, List.nil_append]
        rcases (h ')').at_end with h | ⟨x, h⟩
        · rw [h]
          exact .failed
        · rw [h]
          exact .missing x
    | c :: text => exact (h c).closing text
  before text after := by
    match text with
    | [] => exact before_of_length_le fun _ _ => (h ')').length_le
    | c :: text => exact (h c).before text after

theorem local_optionBind (o : Option β) {next : β → List Char → Option (α × List Char)}
    (h : ∀ y, Local (next y)) :
  Local fun text => o.bind fun y => next y text
  := by
  cases o with
  | none => exact local_none
  | some y => exact h y

theorem Local.ite {c : Prop} [Decidable c] {read' : List Char → Option (α × List Char)}
    (h : Local read) (h' : Local read') :
  Local fun text => if c then read text else read' text
  := by
  split
  · exact h
  · exact h'

/-- It may be looked ahead, as long as a parenthesis at the end makes no difference there, and if
what stands after a parenthesis makes one, the parenthesis is passed over. -/
theorem Local.cond (ahead : List Char → Bool)
    (hahead : ∀ text, ahead (text ++ [')']) = ahead text)
    (hafter : ∀ text after, ahead (text ++ ')' :: after) = ahead text
      ∨ ahead (text ++ ')' :: after) = true
        ∧ ∀ x left, read (text ++ ')' :: after) = some (x, left) → left.length ≤ after.length)
    {read' : List Char → Option (α × List Char)} (h : Local read) (h' : Local read') :
  Local fun text => if ahead text then read text else read' text
  where
  suffix heq := by
    split at heq
    · exact h.suffix heq
    · exact h'.suffix heq
  closing text := by
    rw [hahead]
    split
    · exact h.closing text
    · exact h'.closing text
  before text after := by
    rcases hafter text after with heq | ⟨htrue, hpassed⟩
    · rw [heq]
      split
      · exact h.before text after
      · exact h'.before text after
    · rw [if_pos htrue]
      exact before_of_length_le hpassed

/-! ### Blanks -/

variable {flags : Flags}

theorem skipComments_suffix (inComment : Bool) (text : List Char) :
  skipComments inComment text <:+ text
  := by
  induction text generalizing inComment with
  | nil => apply List.suffix_rfl
  | cons c rest ih =>
      unfold skipComments
      split_ifs
      · exact (ih _).trans (List.suffix_cons c rest)
      · exact (ih _).trans (List.suffix_cons c rest)
      · exact (ih _).trans (List.suffix_cons c rest)
      · apply List.suffix_rfl

theorem skip_suffix (flags : Flags) (text : List Char) :
  skip flags text <:+ text
  := by
  unfold skip
  split
  · apply skipComments_suffix
  · apply List.suffix_rfl

theorem skipComments_eq_cons {inComment : Bool} {text rest : List Char} {c : Char}
    (h : skipComments inComment text = c :: rest) :
  ∃ blanks, text = blanks ++ c :: rest ∧ skipComments inComment blanks = []
  := by
  induction text generalizing inComment with
  | nil => cases h
  | cons c' text ih =>
      rw [skipComments] at h
      split_ifs at h with hcomment hblank hmark
      · obtain ⟨blanks, rfl, hskip⟩ := ih h
        exact ⟨c' :: blanks, rfl, by rw [skipComments, if_pos hcomment, hskip]⟩
      · obtain ⟨blanks, rfl, hskip⟩ := ih h
        exact ⟨c' :: blanks, rfl, by rw [skipComments, if_neg hcomment, if_pos hblank, hskip]⟩
      · obtain ⟨blanks, rfl, hskip⟩ := ih h
        use c' :: blanks, rfl
        rw [skipComments, if_neg hcomment, if_neg hblank, if_pos hmark, hskip]
      · exact ⟨[], h, rfl⟩

/-- What is skipped before a character would be skipped at the end of a text, too. -/
theorem skip_eq_cons {flags : Flags} {text rest : List Char} {c : Char}
    (h : skip flags text = c :: rest) :
  ∃ blanks, text = blanks ++ c :: rest ∧ skip flags blanks = []
  := by
  unfold skip at h ⊢
  split_ifs at h ⊢
  · exact skipComments_eq_cons h
  · exact ⟨[], h, rfl⟩

theorem length_skip_le (flags : Flags) (text : List Char) :
  (skip flags text).length ≤ text.length
  := (skip_suffix flags text).length_le

/-- A closing parenthesis is no blank. -/
theorem isBlank_parenthesis :
  isBlank ')' = false
  := by cbv

theorem skip_nil (flags : Flags) :
  skip flags [] = []
  := by
  unfold skip
  split <;> rfl

theorem skipComments_append_cons (inComment : Bool) (text after : List Char) :
  skipComments inComment (text ++ ')' :: after) = skipComments inComment text ++ ')' :: after
    ∨ skipComments inComment text = []
      ∧ (skipComments inComment (text ++ ')' :: after)).length ≤ after.length
  := by
  induction text generalizing inComment with
  | nil =>
      cases inComment with
      | true => exact .inr ⟨rfl, (skipComments_suffix _ after).length_le⟩
      | false =>
          left
          simp [skipComments, isBlank_parenthesis]
  | cons c rest ih =>
      simp only [List.cons_append, skipComments]
      split_ifs
      · apply ih
      · apply ih
      · apply ih
      · exact .inl rfl

/-- A parenthesis and what stands after it are left, unless the parenthesis is part of a
comment. -/
theorem skip_append_cons (flags : Flags) (text after : List Char) :
  skip flags (text ++ ')' :: after) = skip flags text ++ ')' :: after
    ∨ skip flags text = [] ∧ (skip flags (text ++ ')' :: after)).length ≤ after.length
  := by
  unfold skip
  split
  · apply skipComments_append_cons
  · exact .inl rfl

/-- A parenthesis at the end is left, unless it is part of a comment. -/
theorem skip_append (flags : Flags) (text : List Char) :
  skip flags (text ++ [')']) = skip flags text ++ [')']
    ∨ skip flags text = [] ∧ skip flags (text ++ [')']) = []
  := (skip_append_cons flags text []).imp_right (And.imp_right List.length_eq_zero_iff.mp ∘
    And.imp_right Nat.le_zero.mp)

/-- A parenthesis at the end is left if something else is left. -/
theorem skip_append_of_cons {flags : Flags} {text rest : List Char} {c : Char}
    (h : skip flags text = c :: rest) :
  skip flags (text ++ [')']) = c :: rest ++ [')']
  := by
  rcases skip_append flags text with heq | ⟨hnil, -⟩
  · rw [heq, h]
  · rw [h] at hnil
    cases hnil

/-- Blanks may be left out before a local reader. -/
theorem Local.skip (h : Local read) (flags : Flags) :
  Local fun text => read (skip flags text)
  where
  suffix heq := (h.suffix heq).trans (skip_suffix flags _)
  closing text := by
    rcases skip_append flags text with heq | ⟨hnil, hnil'⟩
    · rw [heq]
      exact h.closing _
    · rw [hnil, hnil']
      rcases h.at_end with h | ⟨x, h⟩
      · rw [h]
        exact .failed
      · rw [h]
        exact .passed x
  before text after := by
    rcases skip_append_cons flags text after with heq | ⟨-, hle⟩
    · rw [heq]
      exact h.before _ after
    · exact before_of_length_le fun _ _ heq => Nat.le_trans (h.length_le heq) hle

/-! ### Runs of characters -/

variable {p : Char → Bool}

theorem readRun_suffix (flags : Flags) (p : Char → Bool) (n : Nat) (text : List Char) :
  (readRun flags p n text).2 <:+ text
  := by
  induction n generalizing text with
  | zero => apply List.suffix_rfl
  | succ n ih =>
      match text with
      | [] => apply List.suffix_rfl
      | c :: rest =>
          unfold readRun
          split_ifs
          · exact ((ih _).trans (skip_suffix flags rest)).trans (List.suffix_cons c rest)
          · apply List.suffix_rfl

theorem readRun_nil (flags : Flags) (p : Char → Bool) (n : Nat) :
  readRun flags p n [] = ([], [])
  := by cases n <;> rfl

/-- A run does not depend on how many characters it may have, if these are enough. -/
theorem readRun_eq_readAll {n : Nat} {text : List Char} (hn : text.length ≤ n) :
  readRun flags p n text = readAll flags p text
  := by
  have hadd (m n : Nat) (text : List Char) (hm : text.length ≤ m) (hn : text.length ≤ n) :
      readRun flags p m text = readRun flags p n text := by
    induction m generalizing n text with
    | zero =>
        obtain rfl := List.eq_nil_of_length_eq_zero (Nat.le_zero.mp hm)
        cases n <;> rfl
    | succ m ih =>
        match text, n with
        | [], 0 => rfl
        | [], n + 1 => rfl
        | c :: rest, n + 1 =>
            have hskip := length_skip_le flags rest
            rw [List.length_cons] at hm hn
            simp only [readRun, ih n (Regex.skip flags rest) (by omega) (by omega)]
  exact hadd n text.length text hn (Nat.le_refl _)

/-- A parenthesis at the end is left after a run, unless the run goes on to the end. -/
theorem readRun_append (flags : Flags) (p : Char → Bool) (n : Nat) (text : List Char) :
  readRun flags p n (text ++ [')'])
      = ((readRun flags p n text).1, (readRun flags p n text).2 ++ [')'])
    ∨ (readRun flags p n text).2 = []
      ∧ ∃ run, readRun flags p n (text ++ [')']) = (run, [])
        ∧ (p ')' = false → run = (readRun flags p n text).1)
  := by
  induction n generalizing text with
  | zero => exact .inl rfl
  | succ n ih =>
      match text with
      | [] =>
          by_cases hp : p ')' = true
          · refine .inr ⟨rfl, [')'], ?_, fun h => absurd (h.symm.trans hp) (by decide)⟩
            simp [readRun, hp, skip_nil, readRun_nil]
          · left
            simp [readRun, hp]
      | c :: rest =>
          simp only [List.cons_append, readRun]
          split_ifs
          · rcases skip_append flags rest with heq | ⟨hnil, hnil'⟩
            · rw [heq]
              rcases ih (Regex.skip flags rest) with h | ⟨hend, run, hrun, hp⟩
              · left
                rw [h]
              · right
                rw [hrun]
                exact ⟨hend, c :: run, rfl, fun h => by rw [hp h]⟩
            · right
              rw [hnil, hnil', readRun_nil]
              exact ⟨rfl, [c], rfl, fun _ => rfl⟩
          · exact .inl rfl

/-- A run that does not get past a parenthesis is the same whatever stands after it. -/
theorem readRun_append_cons (flags : Flags) (p : Char → Bool) (n : Nat) (text after : List Char) :
  readRun flags p n (text ++ ')' :: after)
      = ((readRun flags p n text).1, (readRun flags p n text).2 ++ ')' :: after)
    ∨ (readRun flags p n (text ++ ')' :: after)).2.length ≤ after.length
  := by
  induction n generalizing text with
  | zero => exact .inl rfl
  | succ n ih =>
      match text with
      | [] =>
          by_cases hp : p ')' = true
          · right
            simp only [List.nil_append, readRun, hp, if_true]
            exact ((readRun_suffix flags p n _).trans (skip_suffix flags after)).length_le
          · left
            simp [readRun, hp]
      | c :: rest =>
          simp only [List.cons_append, readRun]
          split_ifs
          · rcases skip_append_cons flags rest after with heq | ⟨-, hle⟩
            · rw [heq]
              apply (ih (Regex.skip flags rest)).imp_left
              intro h
              rw [h]
            · exact .inr (Nat.le_trans (readRun_suffix flags p n _).length_le hle)
          · exact .inl rfl

theorem local_readRun (flags : Flags) (p : Char → Bool) (n : Nat) (hp : p ')' = false) :
  Local fun text => some (readRun flags p n text)
  where
  suffix {text run rest} h := by
    have hsuffix := readRun_suffix flags p n text
    rwa [Option.some.inj h] at hsuffix
  closing text := by
    rcases readRun_append flags p n text with h | ⟨hend, run, hrun, heq⟩
    · rw [h]
      exact .left _ _
    · rw [hrun, heq hp, ← Prod.eta (readRun flags p n text), hend]
      exact .passed _
  before text after := by
    rcases readRun_append_cons flags p n text after with h | hle
    · rw [h]
      apply before_left
    · apply before_of_length_le
      intro run left heq
      rwa [Option.some.inj heq] at hle

theorem local_readAll (flags : Flags) (p : Char → Bool) (hp : p ')' = false) :
  Local fun text => some (readAll flags p text)
  where
  suffix h := (local_readRun flags p _ hp).suffix h
  closing text := by
    have hlength : text.length ≤ (text ++ [')']).length := by simp
    rw [← readRun_eq_readAll hlength, ← readRun_eq_readAll (Nat.le_refl (text ++ [')']).length)]
    exact (local_readRun flags p _ hp).closing text
  before text after := by
    have hlength : text.length ≤ (text ++ ')' :: after).length := by simp
    rw [← readRun_eq_readAll hlength,
      ← readRun_eq_readAll (Nat.le_refl (text ++ ')' :: after).length)]
    exact (local_readRun flags p _ hp).before text after

theorem readBraced_eq_some_iff {text run rest : List Char} :
  readBraced flags p text = some (run, rest) ↔ readAll flags p text = (run, '}' :: rest)
  := by
  unfold readBraced
  split
  · rename_i heq
    rw [heq]
    simp
  · rename_i hne
    constructor
    · rintro ⟨⟩
    · exact fun heq => absurd heq (hne run rest)

theorem local_readBraced (flags : Flags) (p : Char → Bool) :
  Local (readBraced flags p)
  where
  suffix {text run rest} h := by
    have hsuffix := readRun_suffix flags p text.length text
    change (readAll flags p text).2 <:+ text at hsuffix
    rw [readBraced_eq_some_iff.mp h] at hsuffix
    exact (List.suffix_cons '}' rest).trans hsuffix
  closing text := by
    have hlength : text.length ≤ (text ++ [')']).length := by simp
    have hrun := readRun_append flags p (text ++ [')']).length text
    rw [readRun_eq_readAll hlength, readRun_eq_readAll (Nat.le_refl _)] at hrun
    unfold readBraced
    rcases hrun with h | ⟨hend, run, h, -⟩
    · rw [h]
      obtain ⟨run, rest⟩ := readAll flags p text
      match rest with
      | [] => exact .failed
      | c :: rest =>
          by_cases hc : c = '}'
          · subst hc
            exact .left run rest
          · simp only [List.cons_append, Prod.mk.injEq, List.cons.injEq, hc, false_and, and_false,
              imp_false, not_false_eq_true, implies_true]
            exact .failed
    · rw [h, ← Prod.eta (readAll flags p text), hend]
      exact .failed
  before text after := by
    have hlength : text.length ≤ (text ++ ')' :: after).length := by simp
    have hrun := readRun_append_cons flags p (text ++ ')' :: after).length text after
    rw [readRun_eq_readAll hlength, readRun_eq_readAll (Nat.le_refl _)] at hrun
    intro run left h hlt
    have hall := readBraced_eq_some_iff.mp h
    rw [hall] at hrun
    rcases hrun with hrun | hle
    · generalize hshort : readAll flags p text = result at hrun
      obtain ⟨run', rest⟩ := result
      obtain ⟨rfl, hleft⟩ := Prod.mk.inj hrun
      cases rest with
      | nil => cases hleft
      | cons c rest =>
          obtain ⟨rfl, rfl⟩ := List.cons.inj hleft
          exact ⟨rest, rfl, readBraced_eq_some_iff.mpr hshort⟩
    · exact absurd (Nat.lt_succ_of_lt hlt) (Nat.not_lt_of_le hle)

/-! ### Numbers, properties and escapes -/

theorem readNumber_eq (flags : Flags) (count : Nat) (text : List Char) :
  readNumber flags count text
    = onHead '{'
        (fun rest => (readBraced flags isHexDigit (skip flags rest)).bind fun (digits, rest) =>
          if digits.isEmpty then none
          else (charOf? (Unicode.readHex digits)).map (·, skip flags rest))
        (fun text => (some (readRun flags isHexDigit count text)).bind fun (digits, rest) =>
          if digits.length < count then none
          else (charOf? (Unicode.readHex digits)).bind fun c =>
            if ! flags.unicode && count = 2 && 128 ≤ c.toNat then none
            else some (c, rest))
        (skip flags text)
  := by
  unfold readNumber
  split
  · rename_i h
    rw [h, onHead_self]
    rfl
  · rename_i hne
    rw [onHead_of_ne hne]
    rfl

theorem local_readNumber (flags : Flags) (count : Nat) :
  Local (readNumber flags count)
  := by
  apply Local.congr (readNumber_eq flags count)
  apply Local.skip
  apply local_onHead (by decide)
  · apply ((local_readBraced flags isHexDigit).skip flags).bind
    intro digits
    apply local_none.ite
    cases charOf? (Unicode.readHex digits) with
    | none => exact local_none
    | some c => exact (local_some c).skip flags
  · apply (local_readRun flags isHexDigit count rfl).bind
    intro digits
    apply local_none.ite
    apply local_optionBind
    intro c
    exact local_none.ite (local_some c)

theorem readPropertyName_eq (flags : Flags) (text : List Char) :
  readPropertyName flags text
    = onHead '{' (fun rest => readBraced flags (· ≠ '}') (skip flags rest))
        (fun text => match text with
          | [] => none
          | c :: rest => if c = '\\' then none else some ([c], skip flags rest))
        (skip flags text)
  := by
  unfold readPropertyName
  split
  · rename_i h
    rw [h]
    rfl
  · rename_i h
    rw [h, onHead_self]
  · rename_i hne h
    rw [h, onHead_of_ne (by simpa using hne)]

theorem local_readPropertyName (flags : Flags) :
  Local (readPropertyName flags)
  := by
  apply Local.congr (readPropertyName_eq flags)
  apply Local.skip
  apply local_onHead (by decide)
  · exact (local_readBraced flags _).skip flags
  · apply local_of_cons rfl
    intro c
    exact local_none.ite ((local_some [c]).skip flags)

theorem local_readProperty (flags : Flags) (negated : Bool) :
  Local (readProperty flags negated)
  := by
  apply (local_readPropertyName flags).bind
  intro name
  dsimp only
  split
  · apply local_optionBind
    intro s
    apply local_some
  · exact local_none

/-- Whether something satisfies `p` after blanks does not depend on a parenthesis at the end. -/
theorem head?_skip_any_append (hp : p ')' = false) (flags : Flags) (text : List Char) :
  (skip flags (text ++ [')'])).head?.any p = (skip flags text).head?.any p
  := by
  rcases skip_append flags text with h | ⟨h, h'⟩
  · rw [h]
    cases skip flags text with
    | nil => exact hp
    | cons => rfl
  · rw [h, h']

/-- Whether what follows seems to be the name of a kind of word boundary in braces. -/
def isBoundaryAhead (flags : Flags) : List Char → Bool
  | '{' :: inner => (skip flags inner).head?.any fun c => c.isAlpha || c = '-'
  | _ => false

theorem isBoundaryAhead_append (flags : Flags) (text : List Char) :
  isBoundaryAhead flags (text ++ [')']) = isBoundaryAhead flags text
  := by
  match text with
  | [] => rfl
  | c :: text =>
      by_cases hc : c = '{'
      · subst hc
        exact head?_skip_any_append rfl flags text
      · simp [isBoundaryAhead, hc]

/-- Reads a kind of word boundary in braces. -/
def readBoundaryKind (flags : Flags) (text : List Char) : Option (Assertion × List Char) :=
  let isName (c : Char) : Bool := c.isAlpha || c = '-'
  (onHead '{' (fun inner => readBraced flags isName (skip flags inner)) (fun _ => none) text).bind
    fun (name, left) =>
      match String.ofList name with
      | "start" => some (.wordStart (wordSet flags), left)
      | "end" => some (.wordEnd (wordSet flags), left)
      | "start-half" => some (.wordStartHalf (wordSet flags), left)
      | "end-half" => some (.wordEndHalf (wordSet flags), left)
      | _ => none

theorem local_readBoundaryKind (flags : Flags) :
  Local (readBoundaryKind flags)
  := by
  apply Local.bind
  · apply local_onHead (by decide) _ local_none
    exact (local_readBraced flags _).skip flags
  · intro name
    dsimp only
    split
    case h_5 => exact local_none
    all_goals apply local_some

/-- If what stands after a parenthesis makes a difference to whether such a name seems to follow,
the parenthesis is passed over, and so the name is read from after it. -/
theorem isBoundaryAhead_append_cons (flags : Flags) (text after : List Char) :
  isBoundaryAhead flags (text ++ ')' :: after) = isBoundaryAhead flags text
    ∨ isBoundaryAhead flags (text ++ ')' :: after) = true
      ∧ ∀ a left, readBoundaryKind flags (text ++ ')' :: after) = some (a, left) →
        left.length ≤ after.length
  := by
  match text with
  | [] => exact .inl rfl
  | c :: inner =>
      by_cases hc : c = '{'
      · subst hc
        rcases skip_append_cons flags inner after with h | ⟨hnil, hle⟩
        · left
          simp only [List.cons_append, isBoundaryAhead, h]
          cases skip flags inner <;> rfl
        · cases hahead : isBoundaryAhead flags ('{' :: inner ++ ')' :: after) with
          | false =>
              left
              simp only [isBoundaryAhead, hnil]
              rfl
          | true =>
              right
              use rfl
              intro a left h
              obtain ⟨⟨name, middle⟩, hname, hkind⟩ := Option.bind_eq_some_iff.mp h
              apply Nat.le_trans _ (Nat.le_trans ((local_readBraced flags _).length_le hname) hle)
              dsimp only at hkind
              split at hkind <;> cases hkind <;> apply Nat.le_refl
      · left
        simp [isBoundaryAhead, hc]

theorem readBoundary_eq (flags : Flags) (text : List Char) :
  readBoundary flags text
    = if isBoundaryAhead flags text then readBoundaryKind flags text
      else some (.boundary (wordSet flags), text)
  := by
  unfold readBoundary isBoundaryAhead
  split
  · rw [readBoundaryKind, onHead_self]
    rfl
  · split
    · simp_all
    · rfl

theorem local_readBoundary (flags : Flags) :
  Local (readBoundary flags)
  := by
  apply Local.congr (readBoundary_eq flags)
  exact (local_readBoundaryKind flags).cond _ (isBoundaryAhead_append flags)
    (isBoundaryAhead_append_cons flags) (local_some _)

theorem local_readEscape (flags : Flags) :
  Local (readEscape flags)
  := by
  apply local_of_cons rfl
  intro c
  unfold readEscape
  dsimp only
  split
  case h_1 | h_2 | h_3 => exact (local_readNumber flags _).map _
  case h_4 | h_5 => exact (local_readProperty flags _).map _
  case h_9 | h_10 | h_11 =>
    cases complement? flags _ with
    | none => exact local_none
    | some s => apply local_some
  case h_20 => exact (local_readBoundary flags).map _
  case h_24 =>
    split
    · apply local_some
    · exact local_none
  all_goals apply local_some

end ShiftReduce.Regex
