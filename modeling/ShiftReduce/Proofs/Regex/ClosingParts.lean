import ShiftReduce.Proofs.Regex.ClosingClass

/-!
# Parts of expressions before a closing parenthesis

The reader of the parts of an expression is local as well.  Flags that are not ended may be
ended by the parenthesis; all other parts that the parenthesis could become part of are
escapes and comments.
-/

namespace ShiftReduce.Regex

/-! ### Names and flags -/

/-- A name is read up to the mark that ends it. -/
theorem dropWhile_of_readName {p p' : Progress} {text rest : List Char}
    (h : readName p text = some (p', rest)) :
  ∃ c, text.dropWhile (· ≠ '>') = c :: rest
  := by
  unfold readName at h
  dsimp only at h
  split at h
  · rename_i first more c rest' htake hdrop
    split at h
    · cases h
      exact ⟨c, hdrop⟩
    · cases h
  · cases h

/-- A name that ends before a parenthesis is read as before. -/
theorem readName_append_cons (p : Progress) {text : List Char}
    (h : text.dropWhile (· ≠ '>') ≠ []) (after : List Char) :
  readName p (text ++ ')' :: after)
    = (readName p text).map fun (p, rest) => (p, rest ++ ')' :: after)
  := by
  obtain ⟨c, left, hdrop⟩ := List.exists_cons_of_ne_nil h
  have htake : (text ++ ')' :: after).takeWhile (· ≠ '>') = text.takeWhile (· ≠ '>') := by
    rw [List.takeWhile_append, if_neg]
    intro hlength
    have happend := congrArg List.length
      (List.takeWhile_append_dropWhile (p := (· ≠ '>')) (l := text))
    rw [List.length_append, hlength, hdrop, List.length_cons] at happend
    omega
  unfold readName
  rw [List.dropWhile_append, hdrop, htake]
  cases text.takeWhile (· ≠ '>') with
  | nil => rfl
  | cons first more =>
      simp only [List.isEmpty_cons, Bool.false_eq_true, if_false, List.cons_append]
      split <;> rfl

/-- What is left after a text that does not end a name. -/
theorem dropWhile_append_cons {text : List Char} (h : text.dropWhile (· ≠ '>') = [])
    (after : List Char) :
  (text ++ ')' :: after).dropWhile (· ≠ '>') = after.dropWhile (· ≠ '>')
  := by
  rw [List.dropWhile_append, h]
  rfl

theorem local_readFlags (flags : Flags) (met : List Char) :
  Local (readFlags flags met)
  where
  suffix {text result rest} h := by
    induction text generalizing flags met with
    | nil => cases h
    | cons c text ih =>
        rw [readFlags] at h
        split_ifs at h
        · cases h
          apply List.suffix_cons
        · exact (ih _ _ h).trans (List.suffix_cons c text)
        · exact (ih _ _ h).trans (List.suffix_cons c text)
  closing text := by
    induction text generalizing flags met with
    | nil =>
        rw [List.nil_append, readFlags, readFlags]
        split_ifs
        · exact .failed
        · exact .missing _
        all_goals exact .failed
    | cons c text ih =>
        simp only [List.cons_append, readFlags]
        split_ifs
        · exact .failed
        · exact .left _ text
        · exact .failed
        · apply ih
        · apply ih
        · exact .failed
  before text after := by
    induction text generalizing flags met with
    | nil =>
        -- flags that a parenthesis ends are read up to what stands after it
        apply before_of_length_le
        intro result left h
        rw [List.nil_append, readFlags] at h
        split_ifs at h
        · cases h
          apply Nat.le_refl
        all_goals simp_all
    | cons c text ih =>
        simp only [List.cons_append, readFlags]
        split_ifs
        · exact before_of_length_le nofun
        · apply before_left
        · exact before_of_length_le nofun
        · apply ih
        · apply ih
        · exact before_of_length_le nofun

theorem local_readFlagGroup (p : Progress) :
  Local (readFlagGroup p)
  := (local_readFlags p.flags []).map fun (result : Flags × Bool) =>
    (if result.2 then { p with flags := result.1, parts := .directive :: p.parts }
      else p.openLevel none result.1 : Progress)

theorem local_readName (p : Progress) :
  Local (readName p)
  where
  suffix {text p' rest} h := by
    obtain ⟨c, hdrop⟩ := dropWhile_of_readName h
    have hsuffix := List.dropWhile_suffix (· ≠ '>') (l := text)
    rw [hdrop] at hsuffix
    exact (List.suffix_cons c rest).trans hsuffix
  closing text := by
    by_cases hdrop : text.dropWhile (· ≠ '>') = []
    · have hnone {text : List Char} (hdrop : text.dropWhile (· ≠ '>') = []) :
          readName p text = none := by
        rw [Option.eq_none_iff_forall_ne_some]
        intro result h
        obtain ⟨c, hcons⟩ := dropWhile_of_readName h
        rw [hdrop] at hcons
        cases hcons
      rw [hnone hdrop, hnone (dropWhile_append_cons hdrop [])]
      exact .failed
    · rw [readName_append_cons p hdrop]
      cases readName p text with
      | none => exact .failed
      | some result => exact .left result.1 result.2
  before text after := by
    by_cases hdrop : text.dropWhile (· ≠ '>') = []
    · apply before_of_length_le
      intro p' left h
      obtain ⟨c, hcons⟩ := dropWhile_of_readName h
      have hsuffix := List.dropWhile_suffix (· ≠ '>') (l := after)
      rw [← dropWhile_append_cons hdrop, hcons] at hsuffix
      exact Nat.le_of_succ_le hsuffix.length_le
    · rw [readName_append_cons p hdrop]
      cases readName p text with
      | none => exact before_of_length_le nofun
      | some result => apply before_left

theorem readMarkedGroup_eq (p : Progress) (text : List Char) :
  readMarkedGroup p text
    = onHead '=' (fun _ => none) (onHead '!' (fun _ => none)
        (onHead '<' (onHead '=' (fun _ => none) (onHead '!' (fun _ => none) (readName p)))
          (fun text =>
            if ['P', '<'].isPrefixOf text then
              onHead 'P' (onHead '<' (readName p) (fun _ => none)) (fun _ => none) text
            else readFlagGroup p text)))
        text
  := by
  unfold readMarkedGroup
  split
  case h_5 =>
    rename_i heq hmark
    rw [onHead_of_ne (by simp), onHead_of_ne (by simp), onHead_self, onHead_of_ne heq,
      onHead_of_ne hmark]
  case h_7 =>
    rename_i heq hmark _ _ hname hname'
    rw [onHead_of_ne heq, onHead_of_ne hmark, onHead_of_ne hname, if_neg]
    intro hprefix
    obtain ⟨rest, rfl⟩ := List.isPrefixOf_iff_prefix.mp hprefix
    exact hname' rest rfl
  all_goals simp [onHead]

theorem local_readMarkedGroup (p : Progress) :
  Local (readMarkedGroup p)
  := by
  apply Local.congr (readMarkedGroup_eq p)
  apply local_onHead (by decide) local_none
  apply local_onHead (by decide) local_none
  apply local_onHead (by decide)
  · apply local_onHead (by decide) local_none
    exact local_onHead (by decide) local_none (local_readName p)
  · have hahead (text after : List Char) :
        ['P', '<'].isPrefixOf (text ++ ')' :: after) = ['P', '<'].isPrefixOf text := by
      match text with
      | [] => rfl
      | [c] => simp [List.isPrefixOf]
      | _ :: _ :: _ => rfl
    apply Local.cond _ (hahead · []) (fun text after => .inl (hahead text after)) _
      (local_readFlagGroup p)
    · apply local_onHead (by decide) _ local_none
      exact local_onHead (by decide) (local_readName p) local_none

theorem local_readGroup (p : Progress) :
  Local (readGroup p)
  := by
  have heq (text : List Char) : readGroup p text
      = onHead '?' (readMarkedGroup p) (fun rest => some (p.openGroup, rest))
          (skip p.flags text) := by
    unfold readGroup
    split
    · rename_i h
      rw [h, onHead_self]
    · rename_i hne
      rw [onHead_of_ne hne]
  apply Local.congr heq
  apply Local.skip _ p.flags
  exact local_onHead (by decide) (local_readMarkedGroup p) (local_some _)

/-! ### Parts -/

theorem local_readLazy :
  Local fun text => some (readLazy text)
  := by
  have heq (text : List Char) : some (readLazy text)
      = onHead '?' (fun rest => some (true, rest)) (fun text => some (false, text)) text := by
    unfold readLazy
    split
    · rw [onHead_self]
    · rename_i hne
      rw [onHead_of_ne hne]
  apply Local.congr heq
  exact local_onHead (by decide) (local_some true) (local_some false)

theorem readRepetition_eq (p : Progress) (least : Nat) (most : Option Nat) (text : List Char) :
  readRepetition p least most text
    = (some (readLazy text)).bind fun (notGreedy, rest) =>
        (p.repeat? least most notGreedy).map (·, rest)
  := rfl

theorem local_readRepetition (p : Progress) (least : Nat) (most : Option Nat) :
  Local (readRepetition p least most)
  := by
  apply Local.congr (readRepetition_eq p least most)
  apply local_readLazy.bind
  intro notGreedy
  exact local_optionMap (p.repeat? least most notGreedy) id

/-- What a part is depends on the end of the text only if it goes on to there. -/
theorem local_readPart (p : Progress) (c : Char) :
  Local (readPart p c)
  := by
  unfold readPart
  dsimp only
  split
  · exact local_readGroup p
  · exact local_optionMap p.closeGroup? id
  · apply local_some
  · exact (local_readBracketed p.flags).map fun m => p.push (.set m.set) m.height
  · apply local_readRepetition
  · apply local_readRepetition
  · apply local_readRepetition
  · apply (local_readBounds p.flags).bind
    intro bounds
    exact (local_readRepetition p bounds.1 bounds.2).skip p.flags
  · exact (local_readEscape p.flags).map p.pushAtom
  · exact local_none.ite ((local_some _).ite (local_some _))
  · apply local_some
  · apply local_some
  · apply local_some

end ShiftReduce.Regex
