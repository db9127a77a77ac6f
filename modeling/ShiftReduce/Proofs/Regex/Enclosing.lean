import ShiftReduce.Proofs.Regex.Anchored
import ShiftReduce.Proofs.Regex.Reading

/-!
# Expressions in parentheses

A text is put between `(?:` and `)`, or between `^(?:` and `)`, before it is read.  Read within the
group that is opened there, the text is read as it is read by itself, up to the place where it
closes a group that it has not opened; by itself it is refused there, but here it is the group
around it that is closed.  At the end of the text the parenthesis closes the group around it,
unless it is passed over as part of a comment.  So a text that stands for an expression by itself
stands for this expression in the group, if it does not end with a comment
(`expression?_enclosed_eq_some_iff`).  Whatever stands in the group, it is closed somewhere, and up
to there the text stands for an expression by itself (`exists_expression?_of_opening`).
-/

namespace ShiftReduce.Regex

variable {p q : Progress} {text left : List Char}

/-! ### What a text stands for -/

theorem expression?_eq_some_iff {result : Regex × Nat} :
  expression? text = some result
    ↔ ∃ p left, Reads {} text p left ∧ skip p.flags left = [] ∧ p.around = [] ∧ p.value = result
  := by
  have hreads (p : Progress) :=
    readParts_eq_some_iff (p := {}) (q := p) (Nat.lt_succ_self text.length)
  constructor
  · intro h
    obtain ⟨p, hp, h⟩ := Option.bind_eq_some_iff.mp h
    split at h
    · rename_i haround
      obtain ⟨left, hread, hend⟩ := (hreads p).mp hp
      exact ⟨p, left, hread, hend, List.isEmpty_iff.mp haround, Option.some.inj h⟩
    · cases h
  · rintro ⟨p, left, hread, hend, haround, rfl⟩
    apply Option.bind_eq_some_iff.mpr
    use p, (hreads p).mpr ⟨left, hread, hend⟩
    rw [haround]
    rfl

/-! ### Within a group -/

/-- The progress within one more group, which is around all others. -/
def Progress.within (level : Level) (p : Progress) : Progress :=
  { p with around := p.around ++ [level] }

/-- What comes of reading, within one more group. -/
def resultWithin (level : Level) (result : Progress × List Char) : Progress × List Char :=
  (result.1.within level, result.2)

variable (level : Level)

theorem Progress.around_within_ne_nil (p : Progress) :
  (p.within level).around ≠ []
  := by simp [within]

theorem repeat?_within (p : Progress) (least : Nat) (most : Option Nat) (notGreedy : Bool) :
  (p.within level).repeat? least most notGreedy
    = (p.repeat? least most notGreedy).map (Progress.within level)
  := by
  obtain ⟨flags, branches, parts, around, names, groups⟩ := p
  cases parts with
  | nil => rfl
  | cons part parts => cases part <;> rfl

theorem closeGroup?_within (h : p.around ≠ []) :
  (p.within level).closeGroup? = p.closeGroup?.map (Progress.within level)
  := by
  obtain ⟨flags, branches, parts, around, names, groups⟩ := p
  cases around with
  | nil => exact absurd rfl h
  | cons outer around => rfl

theorem readName_within (p : Progress) (rest : List Char) :
  readName (p.within level) rest = (readName p rest).map (resultWithin level)
  := by
  unfold readName
  dsimp only
  split
  · have hnames : (p.within level).names = p.names := rfl
    rw [hnames]
    split <;> rfl
  · rfl

theorem readFlagGroup_within (p : Progress) (rest : List Char) :
  readFlagGroup (p.within level) rest = (readFlagGroup p rest).map (resultWithin level)
  := by
  have hflags : (p.within level).flags = p.flags := rfl
  unfold readFlagGroup
  rw [hflags, Option.map_map]
  congr 1
  funext ⟨⟨flags, ended⟩, rest⟩
  cases ended <;> rfl

theorem readGroup_within (p : Progress) (rest : List Char) :
  readGroup (p.within level) rest = (readGroup p rest).map (resultWithin level)
  := by
  have hflags : (p.within level).flags = p.flags := rfl
  unfold readGroup
  rw [hflags]
  split
  · unfold readMarkedGroup
    split
    case h_5 | h_6 => apply readName_within
    case h_7 => apply readFlagGroup_within
    all_goals rfl
  · rfl

theorem readRepetition_within (p : Progress) (least : Nat) (most : Option Nat)
    (rest : List Char) :
  readRepetition (p.within level) least most rest
    = (readRepetition p least most rest).map (resultWithin level)
  := by
  unfold readRepetition
  dsimp only
  rw [repeat?_within, Option.map_map, Option.map_map]
  rfl

/-- Unless a group is closed that is not open, a part is read within a group as it is read
outside of it. -/
theorem readPart_within {c : Char} (h : p.around ≠ [] ∨ c ≠ ')') (rest : List Char) :
  readPart (p.within level) c rest = (readPart p c rest).map (resultWithin level)
  := by
  have hflags : (p.within level).flags = p.flags := rfl
  unfold readPart
  dsimp only
  rw [hflags]
  split
  · apply readGroup_within
  · rw [closeGroup?_within level (h.resolve_right fun h => h rfl), Option.map_map, Option.map_map]
    rfl
  · rfl
  · rw [Option.map_map]
    rfl
  · apply readRepetition_within
  · apply readRepetition_within
  · apply readRepetition_within
  · cases readBounds p.flags rest with
    | none => rfl
    | some => apply readRepetition_within
  · rw [Option.map_map]
    congr 1
    funext ⟨atom, rest⟩
    cases atom <;> rfl
  · split_ifs <;> rfl
  · rfl
  · rfl
  · rfl

theorem nextPart_within {c : Char} {rest : List Char} (hskip : skip p.flags text = c :: rest)
    (h : p.around ≠ [] ∨ c ≠ ')') :
  nextPart (p.within level) text = (nextPart p text).map (resultWithin level)
  := by
  have hskip' : skip (p.within level).flags text = c :: rest := hskip
  rw [nextPart_of_skip hskip, nextPart_of_skip hskip']
  exact readPart_within level h rest

/-- A group that is not open cannot be closed. -/
theorem not_closes_of_nextPart {c : Char} {rest : List Char}
    (hskip : skip p.flags text = c :: rest) (h : nextPart p text = some (q, left)) :
  p.around ≠ [] ∨ c ≠ ')'
  := by
  by_cases hc : c = ')'
  · subst hc
    rw [nextPart_of_skip hskip] at h
    obtain ⟨q', hclose, -⟩ := Option.map_eq_some_iff.mp h
    left
    intro haround
    rw [Progress.closeGroup?, haround] at hclose
    cases hclose
  · exact .inr hc

/-- What can be read can be read within a group. -/
theorem Reads.within (h : Reads p text q left) :
  Reads (p.within level) text (q.within level) left
  := by
  induction h with
  | done => exact .done _ _
  | @step p q r text rest left hpart h ih =>
      apply Reads.step _ ih
      cases hskip : skip p.flags text with
      | nil =>
          rw [nextPart_of_end hskip] at hpart
          cases hpart
      | cons c rest' =>
          rw [nextPart_within level hskip (not_closes_of_nextPart hskip hpart), hpart]
          rfl

/-! ### With a parenthesis at the end -/

/-- As far as a text can be read, it can be read with a parenthesis at the end, which is left
unless it is passed over. -/
theorem Reads.append (h : Reads p text q left) :
  Reads p (text ++ [')']) q (left ++ [')']) ∨ left = [] ∧ Reads p (text ++ [')']) q []
  := by
  induction h with
  | done p text => exact .inl (.done p _)
  | @step p q r text rest left hpart h ih =>
      have hclosing := (local_nextPart p).closing text
      rw [hpart] at hclosing
      generalize hpart' : nextPart p (text ++ [')']) = o at hclosing
      cases hclosing with
      | left =>
          rcases ih with ih | ⟨hnil, ih⟩
          · exact .inl (.step hpart' ih)
          · exact .inr ⟨hnil, .step hpart' ih⟩
      | passed =>
          obtain ⟨rfl, rfl⟩ := h.eq_of_nil
          exact .inr ⟨rfl, .step hpart' (.done _ [])⟩

/-- While a text is read, a group is closed that has not been opened in it. -/
def ClosesOuter (p : Progress) (text : List Char) : Prop :=
  ∃ q left rest, Reads p text q left ∧ q.around = [] ∧ skip q.flags left = ')' :: rest

theorem ClosesOuter.of_step {rest : List Char} (hpart : nextPart p text = some (q, rest))
    (h : ClosesOuter q rest) :
  ClosesOuter p text
  := by
  obtain ⟨r, left, rest', hreads, h⟩ := h
  exact ⟨r, left, rest', .step hpart hreads, h⟩

/-- If no group is open at the end of a text that is read within a group, it has been closed. -/
theorem Reads.closesOuter {p' : Progress} (h : Reads p' text q left) (hp : p' = p.within level)
    (haround : q.around = []) :
  ClosesOuter p text
  := by
  induction h generalizing p with
  | done p' text =>
      subst hp
      exact absurd haround (p.around_within_ne_nil level)
  | @step p' s q text rest left hpart h ih =>
      subst hp
      cases hskip : skip p.flags text with
      | nil =>
          rw [nextPart_of_end (p := p.within level) hskip] at hpart
          cases hpart
      | cons c rest' =>
          by_cases hc : p.around ≠ [] ∨ c ≠ ')'
          · rw [nextPart_within level hskip hc] at hpart
            obtain ⟨⟨s, rest⟩, hpart', heq⟩ := Option.map_eq_some_iff.mp hpart
            cases heq
            exact (ih rfl haround).of_step hpart'
          · obtain ⟨hopen, hc⟩ := not_or.mp hc
            obtain rfl := not_not.mp hc
            exact ⟨p, text, rest', .done p text, not_not.mp hopen, hskip⟩

/-- Where a group is closed that has not been opened, the text before stands for an expression. -/
theorem ClosesOuter.exists_expression? (h : ClosesOuter {} text) :
  ∃ inner rest read, text = inner ++ ')' :: rest ∧ expression? inner = some read
  := by
  obtain ⟨q, left, rest, hreads, haround, hskip⟩ := h
  obtain ⟨blanks, rfl, hblanks⟩ := skip_eq_cons hskip
  obtain ⟨before, rfl⟩ := hreads.suffix
  have hlt : rest.length < (blanks ++ ')' :: rest).length := by
    rw [List.length_append, List.length_cons]
    omega
  obtain ⟨left, hleft, hinner⟩ := hreads.before (List.append_assoc before _ _).symm hlt
  obtain rfl := List.append_cancel_right hleft
  use before ++ blanks, rest, q.value, (List.append_assoc before _ _).symm
  exact expression?_eq_some_iff.mpr ⟨q, blanks, hinner, hblanks, haround, rfl⟩

/-- At the end of the text the parenthesis closes the group around it, and no other one. -/
theorem closeGroup?_of_end_append {s : Progress} {rest : List Char}
    (hskip : skip p.flags text = [])
    (hpart : nextPart (p.within level) (text ++ [')']) = some (s, rest))
    (h : Reads s rest q left) (haround : q.around = []) :
  p.around = [] ∧ (p.within level).closeGroup? = some q
  := by
  rcases skip_append p.flags text with hskip' | ⟨-, hskip'⟩
  · rw [hskip, List.nil_append] at hskip'
    rw [nextPart_of_skip (p := p.within level) hskip'] at hpart
    obtain ⟨s', hs, heq⟩ := Option.map_eq_some_iff.mp hpart
    cases heq
    obtain ⟨rfl, -⟩ := h.eq_of_nil
    refine ⟨?_, hs⟩
    by_contra hopen
    rw [closeGroup?_within level hopen] at hs
    obtain ⟨s, -, rfl⟩ := Option.map_eq_some_iff.mp hs
    exact s.around_within_ne_nil level haround
  · rw [nextPart_of_end (p := p.within level) hskip'] at hpart
    cases hpart

/-- If a group is closed by the parenthesis at the end of the text, it is at the end of the text
that it is closed. -/
theorem Reads.of_within_append {p' q' : Progress} {text' left' : List Char}
    (h : Reads p' text' q' left') (hp : p' = p.within level) (htext : text' = text ++ [')'])
    (haround : q'.around = []) (hclose : ¬ ClosesOuter p text) :
  ∃ q left, Reads p text q left ∧ skip q.flags left = [] ∧ q.around = []
    ∧ (q.within level).closeGroup? = some q'
  := by
  induction h generalizing p text with
  | done p' text' =>
      subst hp
      exact absurd haround (p.around_within_ne_nil level)
  | @step p' s q' text' rest' left' hpart h ih =>
      subst hp htext
      cases hskip : skip p.flags text with
      | nil =>
          obtain ⟨hopen, hclosed⟩ := closeGroup?_of_end_append level hskip hpart h haround
          exact ⟨p, text, .done p text, hskip, hopen, hclosed⟩
      | cons c rest =>
          have hc : p.around ≠ [] ∨ c ≠ ')' := by
            by_contra hcontra
            obtain ⟨hopen, hc⟩ := not_or.mp hcontra
            obtain rfl := not_not.mp hc
            exact hclose ⟨p, text, rest, .done p text, not_not.mp hopen, hskip⟩
          rw [nextPart_within level (skip_append_of_cons hskip) hc] at hpart
          obtain ⟨⟨s, w⟩, hw, heq⟩ := Option.map_eq_some_iff.mp hpart
          cases heq
          have hclosing := (local_nextPart p).closing text
          rw [hw] at hclosing
          generalize hpart' : nextPart p text = o at hclosing
          cases hclosing with
          | left _ rest =>
              obtain ⟨q, left, hreads, hq⟩ :=
                ih rfl rfl haround fun hs => hclose (hs.of_step hpart')
              exact ⟨q, left, .step hpart' hreads, hq⟩
          | passed =>
              obtain ⟨rfl, -⟩ := h.eq_of_nil
              exact absurd haround (s.around_within_ne_nil level)
          | missing =>
              obtain ⟨rfl, -⟩ := h.eq_of_nil
              exact absurd haround (s.around_within_ne_nil level)

/-! ### In a group that captures nothing -/

/-- What opens a group, perhaps behind a circumflex. -/
def opening (atStart : Bool) : List Char :=
  (if atStart then ['^'] else []) ++ ['(', '?', ':']

/-- A text between `(?:` and `)`, perhaps behind a circumflex. -/
def enclosed (atStart : Bool) (text : List Char) : List Char :=
  opening atStart ++ (text ++ [')'])

/-- What has been read before an enclosed text. -/
def partsBefore (atStart : Bool) : List Part :=
  if atStart then [.regex (.assertion .textStart) 0] else []

/-- The group around an enclosed text. -/
def outerLevel (atStart : Bool) : Level :=
  ⟨none, {}, [], partsBefore atStart⟩

/-- What becomes of an expression with its height when its text is enclosed. -/
def placed (atStart : Bool) (read : Regex × Nat) : Regex × Nat :=
  if atStart then (read.1.anchored, read.2 + 2) else (read.1, read.2 + 1)

variable {atStart : Bool}

theorem nextPart_group (text : List Char) :
  nextPart { parts := partsBefore atStart } ('(' :: '?' :: ':' :: text)
    = some (Progress.within (outerLevel atStart) {}, text)
  := by cases atStart <;> rfl

/-- What opens a group leads into the group. -/
theorem reads_opening_iff (hend : skip q.flags left = []) :
  Reads {} (opening atStart ++ text) q left
    ↔ Reads (Progress.within (outerLevel atStart) {}) text q left
  := by
  have hgroup : Reads { parts := partsBefore atStart } ('(' :: '?' :: ':' :: text) q left
      ↔ Reads (Progress.within (outerLevel atStart) {}) text q left := by
    constructor
    · intro h
      cases h with
      | done => cases hend
      | step hpart h =>
          cases hpart.symm.trans (nextPart_group _)
          exact h
    · exact .step (nextPart_group _)
  rw [← hgroup]
  cases atStart with
  | false => rfl
  | true =>
      have hfirst (rest : List Char) :
          nextPart {} ('^' :: rest) = some ({ parts := partsBefore true }, rest) := rfl
      constructor
      · intro h
        cases h with
        | done => cases hend
        | step hpart h =>
            cases hpart.symm.trans (hfirst _)
            exact h
      · exact .step (hfirst _)

/-- A group that has been opened is closed somewhere, and up to there the text after what opens it
stands for an expression. -/
theorem exists_expression?_of_opening {result : Regex × Nat}
    (h : expression? (opening atStart ++ text) = some result) :
  ∃ inner rest read, text = inner ++ ')' :: rest ∧ expression? inner = some read
  := by
  obtain ⟨q, left, hreads, hend, haround, -⟩ := expression?_eq_some_iff.mp h
  have hwithin := (reads_opening_iff hend).mp hreads
  exact (hwithin.closesOuter (outerLevel atStart) rfl haround).exists_expression?

theorem branches_anchored (r : Regex) :
  r.anchored.branches = [r.anchored]
  := by
  unfold anchored
  cases r.parts <;> rfl

theorem settled_placed {read : Regex × Nat} (h : read.1.Settled) :
  (placed atStart read).1.Settled
  := by
  cases atStart with
  | false => exact h
  | true => exact .inl (branches_anchored read.1)

/-- An expression in a group is put together with the condition before it, if there is one. -/
theorem concatenation_placed {read : Regex × Nat} (h : read.1.Normal) :
  concatenation ((partsBefore atStart).filterMap Part.regex? ++ [read.1]) = (placed atStart read).1
  := by
  rw [concatenation, List.flatMap_append, List.flatMap_singleton]
  cases atStart with
  | false => exact h
  | true => rfl

/-- What comes of closing the group around an enclosed text. -/
theorem value_of_closeGroup? (haround : p.around = []) (hnormal : p.value.1.Normal)
    (hsettled : p.value.1.Settled) (h : (p.within (outerLevel atStart)).closeGroup? = some q) :
  q.around = [] ∧ q.value = placed atStart p.value
  := by
  have hregex : q.value.1
      = alternation
          [concatenation ((partsBefore atStart).filterMap Part.regex? ++ [p.value.1])] := by
    obtain ⟨flags, branches, parts, around, names, groups⟩ := p
    cases haround
    cases h
    cases atStart <;> rfl
  have hheight : q.value.2 = (placed atStart p.value).2 := by
    obtain ⟨flags, branches, parts, around, names, groups⟩ := p
    cases haround
    cases h
    cases atStart with
    | false => rfl
    | true =>
        have hpair (height : Nat) : heightOfAll [heightOfAll [height + 1, 0]] = height + 2 := by
          simp [heightOfAll]
        apply hpair
  rw [concatenation_placed hnormal, alternation_singleton (settled_placed hsettled)] at hregex
  refine ⟨?_, Prod.ext hregex hheight⟩
  rw [Progress.closeGroup?, Progress.within, haround] at h
  cases h
  rfl

theorem normal_value (p : Progress) :
  p.value.1.Normal
  := by
  apply normal_alternation
  intro r hr
  rw [List.reverse_cons, List.map_append] at hr
  rcases List.append_eq_singleton_iff.mp hr with ⟨-, hr⟩ | ⟨-, hr⟩
  · rw [← List.singleton_inj.mp hr]
    apply normal_concatenation
  · cases hr

theorem settled_value (p : Progress) :
  p.value.1.Settled
  := settled_alternation _

/-- An enclosed text stands for an expression if the text does by itself and does not end with
a comment. -/
theorem expression?_enclosed {read : Regex × Nat} (h : expression? text = some read)
    (hcomment : expression? (text ++ [')']) = none) (atStart : Bool) :
  expression? (enclosed atStart text) = some (placed atStart read)
  := by
  obtain ⟨p, left, hreads, hend, haround, hvalue⟩ := expression?_eq_some_iff.mp h
  have hpassed {left' : List Char} (hreads' : Reads {} (text ++ [')']) p left')
      (hend' : skip p.flags left' = []) : False := by
    have hsome := expression?_eq_some_iff.mpr ⟨p, left', hreads', hend', haround, rfl⟩
    rw [hcomment] at hsome
    cases hsome
  rcases hreads.append with hreads' | ⟨-, hreads'⟩
  · rcases skip_append p.flags left with hskip | ⟨-, hskip⟩
    · rw [hend, List.nil_append] at hskip
      obtain ⟨q, hq⟩ : ∃ q, (p.within (outerLevel atStart)).closeGroup? = some q := by
        rw [Progress.closeGroup?, Progress.within, haround]
        exact ⟨_, rfl⟩
      have hpart : nextPart (p.within (outerLevel atStart)) (left ++ [')']) = some (q, []) := by
        rw [nextPart_of_skip (p := p.within (outerLevel atStart)) hskip]
        exact congrArg (Option.map (·, [])) hq
      obtain ⟨haround', hvalue'⟩ :=
        value_of_closeGroup? haround (normal_value p) (settled_value p) hq
      rw [hvalue] at hvalue'
      apply expression?_eq_some_iff.mpr
      refine ⟨q, [], (reads_opening_iff (skip_nil _)).mpr ?_, skip_nil _, haround', hvalue'⟩
      exact (hreads'.within (outerLevel atStart)).trans (.step hpart (.done q []))
    · exact absurd hskip (fun h => hpassed hreads' h)
  · exact absurd (skip_nil _) (hpassed hreads')

/-- A text that closes no group but its own stands for an expression by itself if it does when it
is enclosed. -/
theorem of_expression?_enclosed {result : Regex × Nat} (hclose : ¬ ClosesOuter {} text)
    (h : expression? (enclosed atStart text) = some result) :
  ∃ read, expression? text = some read ∧ expression? (text ++ [')']) = none
    ∧ result = placed atStart read
  := by
  obtain ⟨q, left, hreads, hend, haround, rfl⟩ := expression?_eq_some_iff.mp h
  have hwithin := (reads_opening_iff hend).mp hreads
  obtain ⟨p, left', hreads', hend', haround', hq⟩ :=
    hwithin.of_within_append (outerLevel atStart) rfl rfl haround hclose
  refine ⟨p.value, ?_, ?_, ?_⟩
  · exact expression?_eq_some_iff.mpr ⟨p, left', hreads', hend', haround', rfl⟩
  · -- otherwise the group around the text would still be open
    by_contra hsome
    obtain ⟨result, hsome⟩ := Option.ne_none_iff_exists'.mp hsome
    obtain ⟨p', left'', hreads'', hend'', -, -⟩ := expression?_eq_some_iff.mp hsome
    obtain rfl := hwithin.unique hend (hreads''.within (outerLevel atStart)) hend''
    exact p'.around_within_ne_nil (outerLevel atStart) haround
  · exact (value_of_closeGroup? haround' (normal_value p) (settled_value p) hq).2

/-- A text that stands for an expression by itself closes no group but its own. -/
theorem not_closesOuter {result : Regex × Nat} (h : expression? text = some result) :
  ¬ ClosesOuter {} text
  := by
  rintro ⟨q, left, rest, hreads, haround, hskip⟩
  obtain ⟨p, left', hreads', hend, -, -⟩ := expression?_eq_some_iff.mp h
  -- the reader goes the same way up to the parenthesis and does not get past it
  have hstuck : nextPart q left = none := by
    rw [nextPart_of_skip hskip]
    change q.closeGroup?.map _ = none
    rw [Progress.closeGroup?, haround]
    rfl
  cases hreads'.after hend hreads with
  | done =>
      rw [hskip] at hend
      cases hend
  | step hpart =>
      rw [hstuck] at hpart
      cases hpart

/-- A text that stands for an expression by itself stands for it, perhaps with a condition in
front, when it is enclosed, unless it ends with a comment. -/
theorem expression?_enclosed_eq_some_iff {read result : Regex × Nat}
    (h : expression? text = some read) :
  expression? (enclosed atStart text) = some result
    ↔ expression? (text ++ [')']) = none ∧ result = placed atStart read
  := by
  constructor
  · intro henclosed
    obtain ⟨read', h', hcomment, rfl⟩ := of_expression?_enclosed (not_closesOuter h) henclosed
    cases h.symm.trans h'
    exact ⟨hcomment, rfl⟩
  · rintro ⟨hcomment, rfl⟩
    exact expression?_enclosed h hcomment atStart

/-! ### What has been read -/

variable {read : Regex × Nat}

/-- The bounds of an expression that has been read are in order. -/
theorem bounded_of_expression? (h : expression? text = some read) :
  read.1.Bounded
  := by
  obtain ⟨p, left, hreads, -, -, rfl⟩ := expression?_eq_some_iff.mp h
  have hempty : Progress.Bounded {} := ⟨⟨nofun, nofun⟩, nofun⟩
  exact (hempty.reads hreads).value

theorem normal_of_expression? (h : expression? text = some read) :
  read.1.Normal
  := by
  obtain ⟨p, left, -, -, -, rfl⟩ := expression?_eq_some_iff.mp h
  exact normal_value p

end ShiftReduce.Regex
