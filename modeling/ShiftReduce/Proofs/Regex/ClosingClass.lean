import ShiftReduce.Proofs.Regex.Closing

/-!
# Classes and bounds before a closing parenthesis

The readers of classes in brackets and of the bounds of repetitions are local.  Within a class
a closing parenthesis has no meaning of its own, and a class that is not closed is not closed
by it (`local_readBracketed`).
-/

namespace ShiftReduce.Regex

open Unicode (CodePoints)

variable {flags : Flags}

/-! ### What comes next -/

theorem peekPast_append_cons {first : Option Char} {c : Char} (hfirst : first ≠ some c)
    (hc : c ≠ ')') (inComment : Bool) (text after : List Char) :
  peekPast first inComment (text ++ ')' :: after) = some c
    ↔ peekPast first inComment text = some c
  := by
  induction text generalizing inComment with
  | nil =>
      have hparenthesis : peekPast first inComment (')' :: after) = some ')' := by
        simp [peekPast, isBlank_parenthesis]
      rw [List.nil_append, hparenthesis]
      simp [peekPast, hc.symm, hfirst]
  | cons c' rest ih =>
      simp only [List.cons_append, peekPast]
      split_ifs
      · apply ih
      · apply ih
      · rfl

/-- Whether a certain character comes next does not depend on a parenthesis and what stands after
it. -/
theorem peek?_append_cons {c : Char} (hblank : isBlank c = false) (hc : c ≠ '#') (hc' : c ≠ ')')
    (flags : Flags) (text after : List Char) :
  peek? flags (text ++ ')' :: after) = some c ↔ peek? flags text = some c
  := by
  unfold peek?
  split
  · match text with
    | [] =>
        have hparenthesis : peekPast (some ')') false (')' :: after) = some ')' := by
          simp [peekPast, isBlank_parenthesis]
        rw [List.nil_append, List.head?_cons, hparenthesis]
        simp [peekPast, hc'.symm]
    | c' :: rest =>
        by_cases h : c' = c
        · subst h
          simp [peekPast, hblank, hc]
        · exact peekPast_append_cons (by simp [h]) hc' false (c' :: rest) after
  · match text with
    | [] => simp [hc'.symm]
    | c' :: rest => rfl

/-! ### Members -/

theorem local_readMember_cons (flags : Flags) (c : Char) :
  Local fun rest => readMember flags (c :: rest)
  := by
  by_cases hc : c = '\\'
  · subst hc
    exact local_readEscape flags
  · apply Local.congr _ (local_some (.char c))
    intro rest
    simp [readMember]

/-- Whether a hyphen follows and a member of a class after it. -/
def isHyphenAhead (flags : Flags) : List Char → Bool
  | '-' :: rest => ! (peek? flags rest = some ']' || peek? flags rest = some '-')
  | _ => false

theorem isHyphenAhead_append_cons (flags : Flags) (text after : List Char) :
  isHyphenAhead flags (text ++ ')' :: after) = isHyphenAhead flags text
  := by
  match text with
  | [] => rfl
  | c :: rest =>
      by_cases hc : c = '-'
      · subst hc
        simp only [List.cons_append, isHyphenAhead,
          peek?_append_cons (by cbv) (show ']' ≠ '#' by decide) (by decide),
          peek?_append_cons (by cbv) (show '-' ≠ '#' by decide) (by decide)]
      · simp [isHyphenAhead, hc]

theorem local_optionMap {α β : Type} (o : Option β) (f : β → α) :
  Local fun rest => o.map fun y => (f y, rest)
  := by
  cases o with
  | none => exact local_none
  | some y => exact local_some (f y)

theorem readEnd_eq (flags : Flags) (first : Atom) (text : List Char) :
  readEnd flags first text
    = if isHyphenAhead flags text then
        onHead '-'
          (fun rest => (readMember flags (skip flags rest)).bind fun (last, rest) =>
            (interval? flags first last).map (·, rest))
          (fun _ => none) text
      else (single? flags first).map (·, text)
  := by
  unfold readEnd isHyphenAhead
  split
  · simp only [onHead_self, Bool.not_eq_true', ← Bool.not_eq_true, ite_not]
    rfl
  · simp

theorem local_readEnd (flags : Flags) (first : Atom) :
  Local (readEnd flags first)
  := by
  apply Local.congr (readEnd_eq flags first)
  apply Local.cond _ (isHyphenAhead_append_cons flags · [])
    (fun text after => .inl (isHyphenAhead_append_cons flags text after)) _ (local_optionMap _ _)
  apply local_onHead (by decide) _ local_none
  have hmember : Local (readMember flags) := local_of_cons rfl (local_readMember_cons flags)
  apply (hmember.skip flags).bind
  intro last
  apply local_optionMap

theorem local_readInterval_cons (flags : Flags) (c : Char) :
  Local fun rest => readInterval flags (c :: rest)
  := by
  apply (local_readMember_cons flags c).bind
  intro first
  exact (local_readEnd flags first).skip flags

/-! ### Opening brackets -/

theorem readHyphens_of_ne {text : List Char} (h : ∀ rest, text ≠ '-' :: rest) (n : Nat)
    (b : Bracket) :
  readHyphens flags n b text = (b, text)
  := by
  unfold readHyphens
  split
  · rename_i rest
    exact absurd rfl (h rest)
  · rfl

theorem readHyphens_suffix (n : Nat) (b : Bracket) (text : List Char) :
  (readHyphens flags n b text).2 <:+ text
  := by
  induction n generalizing b text with
  | zero => apply List.suffix_rfl
  | succ n ih =>
      unfold readHyphens
      split
      · rename_i heq
        cases heq
        exact ((ih _ _).trans (skip_suffix flags _)).trans (List.suffix_cons _ _)
      · apply List.suffix_rfl

/-- The text with a parenthesis after it starts with a hyphen only if the text does. -/
theorem append_cons_ne_hyphen {text : List Char} (h : ¬ ∃ rest, text = '-' :: rest)
    (after : List Char) :
  ∀ rest, text ++ ')' :: after ≠ '-' :: rest
  := by
  intro rest heq
  cases text with
  | nil => cases heq
  | cons c text =>
      obtain ⟨rfl, -⟩ := List.cons.inj heq
      exact h ⟨text, rfl⟩

/-- All hyphens are read if so many may be read as there are characters. -/
theorem closing_readHyphens {n n' : Nat} {text : List Char} (hn : text.length ≤ n)
    (hn' : text.length ≤ n') (b : Bracket) :
  Closing (some (readHyphens flags n b text)) (some (readHyphens flags n' b (text ++ [')'])))
  := by
  induction n generalizing n' b text with
  | zero =>
      obtain rfl := List.eq_nil_of_length_eq_zero (Nat.le_zero.mp hn)
      rw [readHyphens_of_ne (by simp), readHyphens_of_ne (by simp)]
      apply Closing.left
  | succ n ih =>
      by_cases h : ∃ rest, text = '-' :: rest
      · obtain ⟨rest, rfl⟩ := h
        obtain ⟨n', rfl⟩ := Nat.exists_eq_add_of_le' (Nat.lt_of_lt_of_le (Nat.succ_pos _) hn')
        have hlength := length_skip_le flags rest
        simp only [List.length_cons, Nat.add_le_add_iff_right] at hn hn'
        rw [List.cons_append, readHyphens, readHyphens]
        rcases skip_append flags rest with h | ⟨h, h'⟩
        · rw [h]
          exact ih (Nat.le_trans hlength hn) (Nat.le_trans hlength hn') _
        · rw [h, h', readHyphens_of_ne (by simp), readHyphens_of_ne (by simp)]
          apply Closing.passed
      · rw [readHyphens_of_ne (not_exists.mp h), readHyphens_of_ne (append_cons_ne_hyphen h [])]
        apply Closing.left

theorem before_readHyphens {n n' : Nat} {text : List Char} (hn : text.length ≤ n)
    (hn' : text.length ≤ n') (b : Bracket) (after : List Char) :
  Before after (some (readHyphens flags n b text))
    (some (readHyphens flags n' b (text ++ ')' :: after)))
  := by
  induction n generalizing n' b text with
  | zero =>
      obtain rfl := List.eq_nil_of_length_eq_zero (Nat.le_zero.mp hn)
      rw [readHyphens_of_ne (by simp), readHyphens_of_ne (by simp)]
      apply before_left
  | succ n ih =>
      by_cases h : ∃ rest, text = '-' :: rest
      · obtain ⟨rest, rfl⟩ := h
        obtain ⟨n', rfl⟩ := Nat.exists_eq_add_of_le' (Nat.lt_of_lt_of_le (Nat.succ_pos _) hn')
        have hlength := length_skip_le flags rest
        simp only [List.length_cons, Nat.add_le_add_iff_right] at hn hn'
        rw [List.cons_append, readHyphens, readHyphens]
        rcases skip_append_cons flags rest after with h | ⟨-, hle⟩
        · rw [h]
          exact ih (Nat.le_trans hlength hn) (Nat.le_trans hlength hn') _
        · apply before_of_length_le
          intro b' left heq
          have hsuffix :
              (readHyphens flags n' (b.addChar '-') (skip flags (rest ++ ')' :: after))).2
                <:+ skip flags (rest ++ ')' :: after) := readHyphens_suffix n' _ _
          rw [Option.some.inj heq] at hsuffix
          exact Nat.le_trans hsuffix.length_le hle
      · rw [readHyphens_of_ne (not_exists.mp h),
          readHyphens_of_ne (append_cons_ne_hyphen h after)]
        apply before_left

theorem local_readHyphens (flags : Flags) (b : Bracket) :
  Local fun text => some (readHyphens flags text.length b text)
  where
  suffix {text b' rest} h := by
    have hsuffix : (readHyphens flags text.length b text).2 <:+ text :=
      readHyphens_suffix _ b text
    rwa [Option.some.inj h] at hsuffix
  closing text := closing_readHyphens (Nat.le_refl _) (by simp) b
  before text after := before_readHyphens (Nat.le_refl _) (by simp) b after

theorem readNegated_eq (flags : Flags) (text : List Char) :
  some (match text with
    | '^' :: rest => (true, skip flags rest)
    | _ => (false, text))
  = onHead '^' (fun rest => some (true, skip flags rest)) (fun text => some (false, text)) text
  := by
  split
  · rw [onHead_self]
  · rename_i hne
    rw [onHead_of_ne hne]

theorem readFirstBracket_eq (flags : Flags) (b : Bracket) (text : List Char) :
  some (match text with
    | ']' :: rest => if b.members.isEmpty then (b.addChar ']', skip flags rest) else (b, text)
    | _ => (b, text))
  = if b.members.isEmpty then
      onHead ']' (fun rest => some (b.addChar ']', skip flags rest))
        (fun text => some (b, text)) text
    else some (b, text)
  := by
  split
  · rw [onHead_self]
    split <;> rfl
  · rename_i hne
    rw [onHead_of_ne hne]
    split <;> rfl

theorem readOpening_eq (flags : Flags) (text : List Char) :
  some (readOpening flags text)
    = (onHead '^' (fun rest => some (true, skip flags rest)) (fun text => some (false, text))
          (skip flags text)).bind fun (negated, text) =>
        (some (readHyphens flags text.length { negated } text)).bind fun (b, text) =>
          if b.members.isEmpty then
            onHead ']' (fun rest => some (b.addChar ']', skip flags rest))
              (fun text => some (b, text)) text
          else some (b, text)
  := by
  rw [← readNegated_eq]
  exact readFirstBracket_eq flags _ _

theorem local_readOpening (flags : Flags) :
  Local fun text => some (readOpening flags text)
  := by
  apply Local.congr (readOpening_eq flags)
  apply Local.bind
  · exact (local_onHead (by decide) ((local_some _).skip flags) (local_some _)).skip flags
  · intro negated
    apply (local_readHyphens flags { negated }).bind
    intro b
    apply Local.ite
    · exact local_onHead (by decide) ((local_some _).skip flags) (local_some _)
    · apply local_some

/-! ### Parts of classes -/

/-- No parenthesis stands in the name of a set of ASCII characters. -/
theorem ascii?_eq_none {name : List Char} (h : ')' ∈ name) :
  ClassName.ascii? name = none
  := by
  have hname (other : String) (heq : String.ofList name = other) : ')' ∈ other.toList := by
    rwa [← heq, String.toList_ofList]
  unfold ClassName.ascii?
  split
  case h_15 => rfl
  all_goals
    rename_i heq
    exact absurd (hname _ heq) (by decide)

theorem readNameOfSet_append_cons (negated : Bool) (text after : List Char) :
  readNameOfSet negated (text ++ ')' :: after)
    = (readNameOfSet negated text).map fun (negated, s, left) =>
        (negated, s, left ++ ')' :: after)
  := by
  unfold readNameOfSet
  rw [List.dropWhile_append]
  cases hdrop : text.dropWhile (· ≠ ':') with
  | nil =>
      -- the name goes on after the parenthesis, and so it is none
      have hname : ClassName.ascii? ((text ++ ')' :: after).takeWhile (· ≠ ':')) = none := by
        apply ascii?_eq_none
        have hall := List.takeWhile_append_dropWhile (p := (· ≠ ':')) (l := text)
        rw [hdrop, List.append_nil] at hall
        rw [List.takeWhile_append, hall, if_pos rfl]
        simp
      rw [hname]
      split <;> rfl
  | cons c left =>
      have htake : (text ++ ')' :: after).takeWhile (· ≠ ':') = text.takeWhile (· ≠ ':') := by
        rw [List.takeWhile_append, if_neg]
        intro hlength
        have happend := congrArg List.length
          (List.takeWhile_append_dropWhile (p := (· ≠ ':')) (l := text))
        rw [List.length_append, hlength, hdrop, List.length_cons] at happend
        omega
      rw [htake]
      match left with
      | [] => simp
      | c' :: left =>
          simp only [List.isEmpty_cons, Bool.false_eq_true, if_false, List.cons_append]
          split
          · rename_i heq
            cases heq
            simp [Option.map_map, Function.comp_def]
          · rename_i hne
            split
            · rename_i heq
              cases heq
              exact absurd rfl (hne _)
            · rfl

/-- A name of a set is read as before. -/
theorem readAsciiName_append_cons (text after : List Char) :
  readAsciiName (text ++ ')' :: after)
    = (readAsciiName text).map fun (negated, s, left) => (negated, s, left ++ ')' :: after)
  := by
  match text with
  | [] => rfl
  | c :: text =>
      by_cases hc : c = ':'
      · subst hc
        match text with
        | [] => exact readNameOfSet_append_cons false [] after
        | c' :: text =>
            by_cases hc' : c' = '^'
            · subst hc'
              exact readNameOfSet_append_cons true text after
            · have hname (text : List Char) :
                  readAsciiName (':' :: c' :: text) = readNameOfSet false (c' :: text) := by
                simp [readAsciiName, hc']
              rw [List.cons_append, List.cons_append, hname, hname]
              exact readNameOfSet_append_cons false (c' :: text) after
      · simp [readAsciiName, hc]

theorem readNameOfSet_suffix {negated negated' : Bool} {text left : List Char}
    {s : CodePoints} (h : readNameOfSet negated text = some (negated', s, left)) :
  left <:+ text
  := by
  unfold readNameOfSet at h
  split at h
  · rename_i left' heq
    obtain ⟨s', -, heq'⟩ := Option.map_eq_some_iff.mp h
    cases heq'
    have hsuffix := List.dropWhile_suffix (· ≠ ':') (l := text)
    rw [heq] at hsuffix
    exact ((List.suffix_cons ']' left).trans (List.suffix_cons ':' _)).trans hsuffix
  · cases h

theorem readAsciiName_suffix {negated : Bool} {text left : List Char} {s : CodePoints}
    (h : readAsciiName text = some (negated, s, left)) :
  left <:+ text
  := by
  unfold readAsciiName at h
  split at h
  · rename_i rest
    exact ((readNameOfSet_suffix h).trans (List.suffix_cons '^' rest)).trans
      (List.suffix_cons ':' _)
  · rename_i rest _
    exact (readNameOfSet_suffix h).trans (List.suffix_cons ':' rest)
  · cases h

/-- After an opening bracket there is the name of a set, which is read as before, or the start
of a class. -/
theorem local_readClassPart_open (flags : Flags) (b : Bracket) (around : List Bracket) :
  Local fun rest => readClassPart flags b around ('[' :: rest)
  := by
  have hname {rest left : List Char} {negated : Bool} {s : CodePoints}
      (h : readAsciiName rest = some (negated, s, left)) :
      readClassPart flags b around ('[' :: rest)
        = (if negated then complement? flags (foldSet flags s) else some (foldSet flags s)).map
            fun s => (.within (b.add { set := s }) around, left) := by
    rw [readClassPart, h]
  have hopening {rest : List Char} (h : readAsciiName rest = none) :
      readClassPart flags b around ('[' :: rest)
        = (some (readOpening flags rest)).map fun (inner, rest) =>
            (.within inner (b :: around), rest) := by
    rw [readClassPart, h]
    rfl
  have hlocal := (local_readOpening flags).map fun inner => ClassPart.within inner (b :: around)
  have hnone {rest : List Char} (h : readAsciiName rest = none) (after : List Char) :
      readAsciiName (rest ++ ')' :: after) = none := by
    rw [readAsciiName_append_cons, h]
    rfl
  have hsome {rest left : List Char} {negated : Bool} {s : CodePoints}
      (h : readAsciiName rest = some (negated, s, left)) (after : List Char) :
      readAsciiName (rest ++ ')' :: after) = some (negated, s, left ++ ')' :: after) := by
    rw [readAsciiName_append_cons, h]
    rfl
  constructor
  · intro rest part left h
    match hrest : readAsciiName rest with
    | none =>
        rw [hopening hrest] at h
        exact hlocal.suffix h
    | some (negated, s, left') =>
        rw [hname hrest] at h
        obtain ⟨s', -, heq⟩ := Option.map_eq_some_iff.mp h
        cases heq
        exact readAsciiName_suffix hrest
  · intro rest
    match hrest : readAsciiName rest with
    | none =>
        rw [hopening hrest, hopening (hnone hrest [])]
        exact hlocal.closing rest
    | some (negated, s, left) =>
        rw [hname hrest, hname (hsome hrest [])]
        exact (local_optionMap _ _).closing left
  · intro rest after
    match hrest : readAsciiName rest with
    | none =>
        rw [hopening hrest, hopening (hnone hrest after)]
        exact hlocal.before rest after
    | some (negated, s, left) =>
        rw [hname hrest, hname (hsome hrest after)]
        exact (local_optionMap _ _).before left after

/-- A closing bracket ends the class or a bracket in it. -/
theorem local_readClassPart_close (flags : Flags) (b : Bracket) (around : List Bracket) :
  Local fun rest => readClassPart flags b around (']' :: rest)
  := by
  cases around with
  | nil =>
      apply Local.congr _ (local_optionMap (b.close? flags) .closed)
      intro rest
      unfold readClassPart
      cases b.close? flags <;> rfl
  | cons outer around =>
      apply Local.congr _
        (local_optionMap (b.close? flags) fun m => .within (outer.add m) around)
      intro rest
      unfold readClassPart
      cases b.close? flags <;> rfl

/-- Other characters are members of the class, unless they are doubled and stand for an
operation. -/
theorem local_readClassPart_other (flags : Flags) (b : Bracket) (around : List Bracket) {c : Char}
    (hopen : c ≠ '[') (hclose : c ≠ ']') :
  Local fun rest => readClassPart flags b around (c :: rest)
  := by
  have hmember := (local_readInterval_cons flags c).map
    fun s => ClassPart.within (b.add { set := s }) around
  cases hoperation : SetOperation.of? c with
  | none =>
      apply Local.congr _ hmember
      intro rest
      simp [readClassPart, hoperation]
  | some operation =>
      have hc : c ≠ ')' := by
        rintro rfl
        cases hoperation
      have hahead (rest after : List Char) :
          decide ((rest ++ ')' :: after).head? = some c) = decide (rest.head? = some c) := by
        cases rest with
        | nil => simp [hc.symm]
        | cons => rfl
      have htail : Local fun rest =>
          some (ClassPart.within (b.suspend flags operation) around, rest.tail) := by
        constructor
        · intro rest part left h
          cases h
          apply List.tail_suffix
        · intro rest
          cases rest with
          | nil => apply Closing.passed
          | cons => apply Closing.left
        · intro rest after
          cases rest with
          | nil =>
              apply before_of_length_le
              rintro part left ⟨⟩
              apply Nat.le_refl
          | cons => apply before_left
      apply Local.congr _ (htail.cond (fun rest => rest.head? = some c) (hahead · [])
        (fun rest after => .inl (hahead rest after)) hmember)
      intro rest
      simp [readClassPart, hoperation]

theorem local_readClassPart_cons (flags : Flags) (b : Bracket) (around : List Bracket) (c : Char) :
  Local fun rest => readClassPart flags b around (c :: rest)
  := by
  by_cases hopen : c = '['
  · subst hopen
    apply local_readClassPart_open
  · by_cases hclose : c = ']'
    · subst hclose
      apply local_readClassPart_close
    · exact local_readClassPart_other flags b around hopen hclose

theorem local_readClassPart (flags : Flags) (b : Bracket) (around : List Bracket) :
  Local (readClassPart flags b around)
  := local_of_cons rfl (local_readClassPart_cons flags b around)

/-! ### Classes -/

theorem readClass_suffix {n : Nat} {b : Bracket} {around : List Bracket}
    {text rest : List Char} {m : Member} (h : readClass flags n b around text = some (m, rest)) :
  rest <:+ text
  := by
  induction n generalizing b around text with
  | zero => cases h
  | succ n ih =>
      obtain ⟨⟨part, left⟩, hpart, hrest⟩ := Option.bind_eq_some_iff.mp h
      have hsuffix := ((local_readClassPart flags b around).skip flags).suffix hpart
      cases part with
      | closed m =>
          cases hrest
          exact hsuffix
      | within b around => exact (ih hrest).trans hsuffix

theorem readClass_nil (n : Nat) (b : Bracket) (around : List Bracket) :
  readClass flags n b around [] = none
  := by
  cases n with
  | zero => rfl
  | succ n =>
      rw [readClass, skip_nil]
      rfl

/-- A part of a class has a character at least. -/
theorem length_readClassPart_lt {b : Bracket} {around : List Bracket} {text rest : List Char}
    {part : ClassPart} (h : readClassPart flags b around (skip flags text) = some (part, rest)) :
  rest.length < text.length
  := by
  have hlength := length_skip_le flags text
  cases hskip : skip flags text with
  | nil =>
      rw [hskip] at h
      cases h
  | cons c left =>
      rw [hskip] at h hlength
      apply Nat.lt_of_le_of_lt _ hlength
      exact (local_readClassPart_cons flags b around c).length_le h

/-- So many parts may be read as there are characters, and one more. -/
theorem closing_readClass {n n' : Nat} {text : List Char} (hn : text.length < n)
    (hn' : text.length < n') (b : Bracket) (around : List Bracket) :
  Closing (readClass flags n b around text) (readClass flags n' b around (text ++ [')']))
  := by
  induction n generalizing n' b around text with
  | zero => cases hn
  | succ n ih =>
      obtain ⟨n', rfl⟩ := Nat.exists_eq_add_one.mpr (Nat.lt_of_le_of_lt (Nat.zero_le _) hn')
      have hclosing := ((local_readClassPart flags b around).skip flags).closing text
      have hlength : ∀ part rest, readClassPart flags b around (skip flags text) = some (part, rest)
          → rest.length < text.length := fun _ _ => length_readClassPart_lt
      rw [readClass, readClass]
      generalize readClassPart flags b around (skip flags text) = o at hclosing hlength
      generalize readClassPart flags b around (skip flags (text ++ [')'])) = o' at hclosing
      cases hclosing with
      | left part rest =>
          cases part with
          | closed m => exact .left m rest
          | within b around =>
              have hlt := hlength _ _ rfl
              exact ih (by omega) (by omega) b around
      | passed part =>
          cases part with
          | closed m => exact .passed m
          | within b around =>
              change Closing (readClass flags n b around []) (readClass flags n' b around [])
              rw [readClass_nil, readClass_nil]
              exact .failed
      | missing part =>
          cases part with
          | closed m => exact .missing m
          | within b around =>
              change Closing none (readClass flags n' b around [])
              rw [readClass_nil]
              exact .failed
      | failed => exact .failed

theorem before_readClass {n n' : Nat} {text : List Char} (hn : text.length < n)
    (hn' : text.length < n') (b : Bracket) (around : List Bracket) (after : List Char) :
  Before after (readClass flags n b around text)
    (readClass flags n' b around (text ++ ')' :: after))
  := by
  induction n generalizing n' b around text with
  | zero => cases hn
  | succ n ih =>
      obtain ⟨n', rfl⟩ := Nat.exists_eq_add_one.mpr (Nat.lt_of_le_of_lt (Nat.zero_le _) hn')
      intro m left h hlt
      obtain ⟨⟨part, middle⟩, hpart, hmiddle⟩ := Option.bind_eq_some_iff.mp h
      have hle : left.length ≤ middle.length := by
        cases part with
        | closed m =>
            cases hmiddle
            apply Nat.le_refl
        | within b around => exact (readClass_suffix hmiddle).length_le
      obtain ⟨rest, rfl, hrest⟩ :=
        ((local_readClassPart flags b around).skip flags).before text after
          part middle hpart (Nat.lt_of_lt_of_le hlt hle)
      have hshorter := length_readClassPart_lt hrest
      cases part with
      | closed m =>
          cases hmiddle
          exact ⟨rest, rfl, Option.bind_eq_some_iff.mpr ⟨_, hrest, rfl⟩⟩
      | within b around =>
          obtain ⟨rest', rfl, hrest'⟩ :=
            ih (by omega) (by omega) b around m left hmiddle hlt
          exact ⟨rest', rfl, Option.bind_eq_some_iff.mpr ⟨_, hrest, hrest'⟩⟩

/-- A class depends on the end of the text only if it goes on to there. -/
theorem local_readBracketed (flags : Flags) :
  Local (readBracketed flags)
  where
  suffix h := (readClass_suffix h).trans ((local_readOpening flags).suffix rfl)
  closing text := by
    have hlength : (readOpening flags text).2.length ≤ text.length :=
      (local_readOpening flags).length_le rfl
    unfold readBracketed
    dsimp only
    rcases ((local_readOpening flags).closing text).eq_or with h | ⟨h, h'⟩
    · rw [h]
      apply closing_readClass
      · exact Nat.lt_succ_of_le hlength
      · rw [List.length_append, List.length_singleton]
        omega
    · rw [h', h, readClass_nil, readClass_nil]
      exact .failed
  before text after := by
    have hlength : (readOpening flags text).2.length ≤ text.length :=
      (local_readOpening flags).length_le rfl
    have hopening := (local_readOpening flags).before text after
    unfold readBracketed
    generalize readOpening flags text = short at hlength hopening ⊢
    generalize readOpening flags (text ++ ')' :: after) = long at hopening ⊢
    intro m left h hlt
    have hle := (readClass_suffix h).length_le
    obtain ⟨rest, hrest, heq⟩ := hopening long.1 long.2 rfl (Nat.lt_of_lt_of_le hlt hle)
    cases heq
    dsimp only at h hlength ⊢
    rw [hrest] at h
    apply before_readClass (Nat.lt_succ_of_le hlength) _ _ _ after m left h hlt
    rw [List.length_append]
    omega

/-! ### Bounds of repetitions -/

theorem dropBlanks_append_cons (text after : List Char) :
  (text ++ ')' :: after).dropWhile isBlank = text.dropWhile isBlank ++ ')' :: after
  := by
  have hparenthesis : (')' :: after).dropWhile isBlank = ')' :: after := by
    simp [isBlank_parenthesis]
  rw [List.dropWhile_append, hparenthesis]
  split
  · rename_i hnil
    rw [List.isEmpty_iff.mp hnil]
    rfl
  · rfl

theorem local_dropBlanks :
  Local fun text => some ((), text.dropWhile isBlank)
  where
  suffix {text x rest} h := by
    cases h
    apply List.dropWhile_suffix
  closing text := by
    rw [dropBlanks_append_cons]
    apply Closing.left
  before text after := by
    rw [dropBlanks_append_cons]
    apply before_left

/-- The number for which digits stand, if it has at most 32 bits. -/
def decimal? (digits : List Char) : Option Nat :=
  let n := digits.foldl (fun n c => 10 * n + (c.toNat - '0'.toNat)) 0
  if digits.isEmpty || UInt32.size ≤ n then none else some n

theorem readDecimal_eq (flags : Flags) (text : List Char) :
  some (readDecimal flags text)
    = (some ((), text.dropWhile isBlank)).bind fun (_, text) =>
        (some (readAll flags Char.isDigit text)).bind fun (digits, rest) =>
          (some (readAll flags isBlank rest)).map fun (_, rest) => (decimal? digits, rest)
  := rfl

theorem local_readDecimal (flags : Flags) :
  Local fun text => some (readDecimal flags text)
  := by
  have hdigits := local_readAll flags Char.isDigit (by decide)
  have hblanks := local_readAll flags isBlank isBlank_parenthesis
  apply Local.congr (readDecimal_eq flags)
  apply local_dropBlanks.bind
  intro _
  apply hdigits.bind
  intro digits
  exact hblanks.map fun _ => decimal? digits

theorem readMost_eq (least : Nat) (most : Option Nat) (text : List Char) :
  (match (most, text) with
    | (some most, '}' :: rest) => if least ≤ most then some ((least, some most), rest) else none
    | _ => none)
  = most.bind fun most =>
      onHead '}' (fun rest => if least ≤ most then some ((least, some most), rest) else none)
        (fun _ => none) text
  := by
  cases most with
  | none => rfl
  | some most =>
      rw [Option.bind_some]
      split
      · rename_i heq
        cases heq
        rw [onHead_self]
      · rename_i hne
        rw [onHead_of_ne fun left heq => hne most left (by rw [heq])]

theorem readBounds_eq (flags : Flags) (text : List Char) :
  readBounds flags text
    = (some (readDecimal flags (skip flags text))).bind fun (least, rest) =>
        least.bind fun least =>
          onHead '}' (fun rest => some ((least, some least), rest))
            (onHead ',' (fun rest =>
                onHead '}' (fun rest => some ((least, none), rest))
                  (fun rest => (some (readDecimal flags rest)).bind fun (most, rest) =>
                    most.bind fun most =>
                      onHead '}' (fun rest =>
                          if least ≤ most then some ((least, some most), rest) else none)
                        (fun _ => none) rest)
                  (skip flags rest))
              fun _ => none)
            rest
  := by
  unfold readBounds
  obtain ⟨least, rest⟩ := readDecimal flags (skip flags text)
  cases least with
  | none => rfl
  | some least =>
      simp only [Option.bind_some]
      dsimp only [Option.bind_eq_bind, Option.bind_some]
      split
      · rw [onHead_self]
      · rename_i rest
        rw [onHead_of_ne (by simp), onHead_self]
        split
        · rename_i h
          rw [h, onHead_self]
        · rename_i hne
          rw [onHead_of_ne hne]
          exact readMost_eq least _ _
      · rename_i hne hne'
        rw [onHead_of_ne hne, onHead_of_ne hne']

theorem local_readBounds (flags : Flags) :
  Local (readBounds flags)
  := by
  apply Local.congr (readBounds_eq flags)
  apply ((local_readDecimal flags).skip flags).bind
  intro least
  apply local_optionBind
  intro least
  apply local_onHead (by decide) (local_some _)
  apply local_onHead (by decide) _ local_none
  apply Local.skip _ flags
  apply local_onHead (by decide) (local_some _)
  apply (local_readDecimal flags).bind
  intro most
  apply local_optionBind
  intro most
  apply local_onHead (by decide) _ local_none
  exact (local_some _).ite local_none

end ShiftReduce.Regex
