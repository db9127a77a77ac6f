import ShiftReduce.Proofs.Regex.Language

/-!
# Places in regular expressions

While an expression is matched before a rest of frames, the stacks that are met have it or one of
its parts on top.  The parts stand in blocks, one after the other, each with a range of places of
its own and its own rest.  So a stack is known by the place of its topmost frame
(`Inside.unique`).  The stacks that continue one that is met are met as well, or are what is left
once the expression has been matched (`Inside.expand`).
-/

namespace ShiftReduce.Regex

/-! ### Blocks -/

/-- An expression at a place, before a rest of frames. -/
structure Block where
  place : Nat
  regex : Regex
  rest : List Frame

/-- The stack with which the matching of a block begins. -/
def Block.stack (b : Block) : List Frame :=
  .regex b.place b.regex :: b.rest

/-- The blocks of a first round and of the rounds left after it. -/
def writtenOut (place : Nat) (r : Regex) (least : Nat) (most : Option Nat) (greedy : Bool)
    (rest : List Frame) : List Block :=
  [⟨place + 1, r, .regex (place + 1 + r.width) (repetition r least most greedy) :: rest⟩,
   ⟨place + 1 + r.width, repetition r least most greedy, rest⟩]

/-- The parts of an expression, in the order of their places. -/
def blocks (place : Nat) (rest : List Frame) : Regex → List Block
  | empty => []
  | set _ => []
  | assertion _ => []
  | sequence r s =>
    [⟨place + 1, r, .regex (place + 1 + r.width) s :: rest⟩, ⟨place + 1 + r.width, s, rest⟩]
  | either r s => [⟨place + 1, r, rest⟩, ⟨place + 1 + r.width, s, rest⟩]
  | repetition r least most greedy =>
    match least, most with
    | 0, some 0 => []
    | 0, some (m + 1) => writtenOut place r 0 (some m) greedy rest
    | 0, none => [⟨place + 2, r, .rounds (place + 1) r greedy :: rest⟩]
    | 1, none => [⟨place + 2, r, .rounds (place + 1) r greedy :: rest⟩]
    | n + 1, most => writtenOut place r n (most.map (· - 1)) greedy rest
  | group _ r => [⟨place + 1, r, rest⟩]

/-- The stacks that have an expression or one of its parts on top, where the expression is at a
place and before a rest of frames. -/
inductive Inside : Nat → Regex → List Frame → List Frame → Prop where
  | here (place : Nat) (r : Regex) (rest : List Frame) :
      Inside place r rest (.regex place r :: rest)
  | rounds (place : Nat) (r : Regex) {least : Nat} (greedy : Bool) (rest : List Frame)
      (h : least ≤ 1) :
      Inside place (repetition r least none greedy) rest (.rounds (place + 1) r greedy :: rest)
  | block {place : Nat} {r : Regex} {rest stack : List Frame} {b : Block}
      (hb : b ∈ blocks place rest r) (h : Inside b.place b.regex b.rest stack) :
      Inside place r rest stack

variable {place : Nat} {r : Regex} {rest stack : List Frame} {b : Block}

theorem inside_of_mem (hb : b ∈ blocks place rest r) :
  Inside place r rest b.stack
  := .block hb (.here b.place b.regex b.rest)

/-! ### Ranges -/

theorem width_pos (r : Regex) :
  0 < r.width
  := by
  cases r with
  | repetition r least most greedy =>
      cases most with
      | none =>
          simp only [width]
          omega
      | some m => apply Nat.succ_pos
  | _ =>
      simp only [width]
      omega

theorem width_repetition_some (r : Regex) (least m : Nat) (greedy : Bool) :
  (repetition r least (some m) greedy).width = m * (1 + r.width) + 1
  := rfl

theorem width_repetition_none (r : Regex) (least : Nat) (greedy : Bool) :
  (repetition r least none greedy).width = (least - 1) * (1 + r.width) + 2 + r.width
  := rfl

/-- One more round takes places for it and for what is repeated. -/
theorem width_repetition_succ {least : Nat} {most : Option Nat} {greedy : Bool}
    (hmost : ∀ m ∈ most, least + 1 ≤ m) (h : most = none → 0 < least) :
  (repetition r (least + 1) most greedy).width
    = 1 + r.width + (repetition r least (most.map (· - 1)) greedy).width
  := by
  cases most with
  | none =>
      obtain ⟨n, rfl⟩ := Nat.exists_eq_add_one.mpr (h rfl)
      simp only [Option.map_none, width_repetition_none, Nat.add_sub_cancel, Nat.succ_mul]
      omega
  | some m =>
      obtain ⟨m, rfl⟩ : ∃ m', m = m' + 1 := by
        have hle := hmost m rfl
        exact Nat.exists_eq_add_one.mpr (by omega)
      simp only [Option.map_some, width_repetition_some, Nat.add_sub_cancel, Nat.succ_mul]
      omega

/-- The blocks have ranges of places within that of the expression, one after the other. -/
structure Ranged (place width : Nat) (l : List Block) : Prop where
  within : ∀ b ∈ l, place < b.place ∧ b.place + b.regex.width ≤ place + width
  apart : l.Pairwise fun b b' => b.place + b.regex.width ≤ b'.place

theorem ranged_nil (place width : Nat) :
  Ranged place width []
  := ⟨nofun, .nil⟩

theorem ranged_single {width : Nat} (h : place < b.place)
    (h' : b.place + b.regex.width ≤ place + width) :
  Ranged place width [b]
  := ⟨by simpa using ⟨h, h'⟩, List.pairwise_singleton _ _⟩

/-- Two blocks right after each other. -/
theorem ranged_pair {width : Nat} {s : Regex} {rest rest' : List Frame}
    (h : 1 + r.width + s.width ≤ width) :
  Ranged place width [⟨place + 1, r, rest⟩, ⟨place + 1 + r.width, s, rest'⟩]
  := by
  constructor
  · have hr := r.width_pos
    simp only [List.mem_cons, List.not_mem_nil, or_false, forall_eq_or_imp, forall_eq]
    omega
  · simp

theorem ranged_blocks (hbounded : r.Bounded) (place : Nat) (rest : List Frame) :
  Ranged place r.width (blocks place rest r)
  := by
  cases r with
  | empty => apply ranged_nil
  | set s => apply ranged_nil
  | assertion a => apply ranged_nil
  | sequence r s => apply ranged_pair (Nat.le_refl _)
  | either r s => apply ranged_pair (Nat.le_refl _)
  | group number r =>
      apply ranged_single (Nat.lt_succ_self place)
      simp only [width]
      omega
  | repetition r least most greedy =>
      have hbounds := hbounded.2
      unfold blocks
      dsimp only
      split
      · apply ranged_nil
      · apply ranged_pair
        rw [width_repetition_some, width_repetition_some, Nat.succ_mul]
        omega
      · apply ranged_single
        · simp
        · simp only [width_repetition_none]
          omega
      · apply ranged_single
        · simp
        · simp only [width_repetition_none]
          omega
      · rename_i hnone
        apply ranged_pair
        apply Nat.le_of_eq
        apply (width_repetition_succ hbounds _).symm
        intro hmost
        apply Nat.pos_of_ne_zero
        intro hzero
        apply hnone hmost hzero

/-- The bounds of the blocks of an expression are in order if its own bounds are. -/
theorem bounded_of_mem (hbounded : r.Bounded) (hb : b ∈ blocks place rest r) :
  b.regex.Bounded
  := by
  have hpair : ∀ {b b₁ b₂ : Block}, b ∈ [b₁, b₂] → b₁.regex.Bounded → b₂.regex.Bounded →
      b.regex.Bounded := by
    intro b b₁ b₂ hb h₁ h₂
    rw [List.mem_cons, List.mem_singleton] at hb
    rcases hb with rfl | rfl
    · apply h₁
    · apply h₂
  cases r with
  | empty => cases hb
  | set s => cases hb
  | assertion a => cases hb
  | sequence r s => apply hpair hb hbounded.1 hbounded.2
  | either r s => apply hpair hb hbounded.1 hbounded.2
  | group number r =>
      obtain rfl := List.mem_singleton.mp hb
      apply hbounded
  | repetition r least most greedy =>
      obtain ⟨hr, hbounds⟩ := hbounded
      unfold blocks at hb
      dsimp only at hb
      split at hb
      · cases hb
      · apply hpair hb hr ⟨hr, fun m _ => Nat.zero_le m⟩
      · obtain rfl := List.mem_singleton.mp hb
        apply hr
      · obtain rfl := List.mem_singleton.mp hb
        apply hr
      · apply hpair hb hr ⟨hr, ?_⟩
        intro m hm
        obtain ⟨m, hm', rfl⟩ := Option.map_eq_some_iff.mp hm
        have hle := hbounds m hm'
        omega

namespace Inside

variable {frame frame' : Frame} {below below' : List Frame}

/-- The place of a frame that is met is in the range of the expression. -/
theorem range (hbounded : r.Bounded) (h : Inside place r rest (frame :: below)) :
  place ≤ frame.place ∧ frame.place < place + r.width
  := by
  generalize hstack : frame :: below = stack at h
  induction h with
  | here place r rest =>
      cases hstack
      use Nat.le_refl place
      apply Nat.lt_add_of_pos_right r.width_pos
  | rounds place r greedy rest h =>
      cases hstack
      rw [width_repetition_none, Frame.place]
      omega
  | @block place r rest stack b hb h ih =>
      obtain ⟨hlt, hle⟩ := (ranged_blocks hbounded place rest).within b hb
      obtain ⟨hle', hlt'⟩ := ih (bounded_of_mem hbounded hb) hstack
      omega

/-- The places in a block come after the place of the expression. -/
theorem lt_of_block (hbounded : r.Bounded) (hb : b ∈ blocks place rest r)
    (h : Inside b.place b.regex b.rest (frame :: below)) :
  place < frame.place
  := by
  have hlt := ((ranged_blocks hbounded place rest).within b hb).1
  apply Nat.lt_of_lt_of_le hlt (h.range (bounded_of_mem hbounded hb)).1

/-- They also come after the place of the frame of further rounds. -/
theorem lt_of_block_of_rounds {least : Nat} {greedy : Bool} (hleast : least ≤ 1)
    (hbounded : (repetition r least none greedy).Bounded)
    (hb : b ∈ blocks place rest (repetition r least none greedy))
    (h : Inside b.place b.regex b.rest (frame :: below)) :
  place + 1 < frame.place
  := by
  have hlt : place + 1 < b.place := by
    have hcases : least = 0 ∨ least = 1 := by omega
    rcases hcases with rfl | rfl <;>
      · obtain rfl := List.mem_singleton.mp hb
        simp
  apply Nat.lt_of_lt_of_le hlt (h.range (bounded_of_mem hbounded hb)).1

/-- Different blocks have different places. -/
theorem eq_of_blocks (hbounded : r.Bounded) {b' : Block} (hb : b ∈ blocks place rest r)
    (hb' : b' ∈ blocks place rest r) (h : Inside b.place b.regex b.rest (frame :: below))
    (h' : Inside b'.place b'.regex b'.rest (frame' :: below'))
    (hplace : frame.place = frame'.place) :
  b = b'
  := by
  obtain ⟨hle, hlt⟩ := h.range (bounded_of_mem hbounded hb)
  obtain ⟨hle', hlt'⟩ := h'.range (bounded_of_mem hbounded hb')
  have hall := List.Pairwise.forall_of_forall_of_flip
    (R := fun c c' : Block => frame.place < c.place + c.regex.width → c'.place ≤ frame.place →
      c.place ≤ frame.place → frame.place < c'.place + c'.regex.width → c = c')
    (fun _ _ _ _ _ _ => rfl)
    ((ranged_blocks hbounded place rest).apart.imp fun happart _ _ _ _ => by omega)
    ((ranged_blocks hbounded place rest).apart.imp fun happart _ _ _ _ => by omega)
  rw [← hplace] at hle' hlt'
  apply hall hb hb' hlt hle' hle hlt'

/-- A stack that is met is known by the place of its topmost frame. -/
theorem unique (hbounded : r.Bounded) (h : Inside place r rest (frame :: below))
    (h' : Inside place r rest (frame' :: below')) (hplace : frame.place = frame'.place) :
  frame :: below = frame' :: below'
  := by
  generalize hstack : frame :: below = stack at h
  induction h with
  | here place r rest =>
      cases hstack
      cases h' with
      | here => rfl
      | rounds => cases Nat.ne_of_lt (Nat.lt_succ_self place) hplace
      | block hb h' => cases Nat.ne_of_lt (h'.lt_of_block hbounded hb) hplace
  | rounds place r greedy rest h =>
      cases hstack
      cases h' with
      | here => cases Nat.ne_of_gt (Nat.lt_succ_self place) hplace
      | rounds => rfl
      | block hb h' => cases Nat.ne_of_lt (h'.lt_of_block_of_rounds h hbounded hb) hplace
  | @block place r rest stack b hb h ih =>
      subst hstack
      cases h' with
      | here => cases Nat.ne_of_gt (h.lt_of_block hbounded hb) hplace
      | rounds _ _ _ _ hleast =>
          cases Nat.ne_of_gt (h.lt_of_block_of_rounds hleast hbounded hb) hplace
      | block hb' h' =>
          obtain rfl := eq_of_blocks hbounded hb hb' h h' hplace
          apply ih (bounded_of_mem hbounded hb) h' rfl

/-- The topmost frame is bounded as the expression is. -/
theorem bounded (hbounded : r.Bounded) (h : Inside place r rest (frame :: below)) :
  frame.Bounded
  := by
  generalize hstack : frame :: below = stack at h
  induction h with
  | here =>
      cases hstack
      apply hbounded
  | rounds =>
      cases hstack
      apply hbounded.1
  | block hb _ ih => apply ih (bounded_of_mem hbounded hb) hstack

/-! ### Going on -/

/-- A stack that is met, or what is left once the expression has been matched. -/
def OrRest (place : Nat) (r : Regex) (rest stack : List Frame) : Prop :=
  stack = rest ∨ Inside place r rest stack

/-- What is left once a block has been matched is met. -/
theorem rest_of_mem (hb : b ∈ blocks place rest r) :
  OrRest place r rest b.rest
  := by
  have hpair : ∀ {b₁ b₂ : Block}, blocks place rest r = [b₁, b₂] → b₂.rest = rest →
      b₁.rest = rest ∨ b₁.rest = b₂.stack → OrRest place r rest b.rest := by
    intro b₁ b₂ hblocks h₂ h₁
    have hmem : b₂ ∈ blocks place rest r := by simp [hblocks]
    rw [hblocks, List.mem_cons, List.mem_singleton] at hb
    rcases hb with rfl | rfl
    · rcases h₁ with h₁ | h₁
      · exact .inl h₁
      · rw [h₁]
        exact .inr (inside_of_mem hmem)
    · exact .inl h₂
  cases r with
  | empty => cases hb
  | set s => cases hb
  | assertion a => cases hb
  | sequence r s => apply hpair rfl rfl (.inr rfl)
  | either r s => apply hpair rfl rfl (.inl rfl)
  | group number r =>
      obtain rfl := List.mem_singleton.mp hb
      exact .inl rfl
  | repetition r least most greedy =>
      match least, most with
      | 0, some 0 => cases hb
      | 0, some (m + 1) => apply hpair rfl rfl (.inr rfl)
      | 0, none =>
          obtain rfl := List.mem_singleton.mp hb
          exact .inr (.rounds place r greedy rest (Nat.zero_le 1))
      | 1, none =>
          obtain rfl := List.mem_singleton.mp hb
          exact .inr (.rounds place r greedy rest (Nat.le_refl 1))
      | n + 2, none => apply hpair rfl rfl (.inr rfl)
      | 1, some m => apply hpair rfl rfl (.inr rfl)
      | n + 2, some m => apply hpair rfl rfl (.inr rfl)

/-- What is below the topmost frame is met. -/
theorem tail (h : Inside place r rest (frame :: below)) :
  OrRest place r rest below
  := by
  generalize hstack : frame :: below = stack at h
  induction h with
  | here =>
      cases hstack
      exact .inl rfl
  | rounds =>
      cases hstack
      exact .inl rfl
  | block hb _ ih =>
      rcases ih hstack with rfl | hbelow
      · apply rest_of_mem hb
      · exact .inr (.block hb hbelow)

/-- The stacks that continue an expression begin with its blocks, or with its rounds. -/
theorem expand_here {before after : Option Char}
    (h : stack ∈ (Frame.regex place r).expand before after rest) :
  OrRest place r rest stack
  := by
  have hmem : ∀ {b : Block}, b ∈ blocks place rest r → stack = b.stack →
      OrRest place r rest stack := by
    rintro b hb rfl
    exact .inr (inside_of_mem hb)
  have hchoose : ∀ {greedy : Bool} {more : List Frame}, stack ∈ choose greedy more rest →
      (stack = more → OrRest place r rest stack) → OrRest place r rest stack := by
    intro greedy more hstack hmore
    rcases mem_choose.mp hstack with hstack | hstack
    · apply hmore hstack
    · exact .inl hstack
  cases r with
  | empty => exact .inl (List.mem_singleton.mp h)
  | set s => cases h
  | assertion a =>
      rw [Frame.expand] at h
      split at h
      · exact .inl (List.mem_singleton.mp h)
      · cases h
  | sequence r s => apply hmem (.head _) (List.mem_singleton.mp h)
  | either r s =>
      rw [Frame.expand, List.mem_cons, List.mem_singleton] at h
      rcases h with h | h
      · apply hmem (.head _) h
      · apply hmem (.tail _ (.head _)) h
  | group number r => apply hmem (.head _) (List.mem_singleton.mp h)
  | repetition r least most greedy =>
      rcases least with _ | _ | n
      · rcases most with _ | _ | m
        · change stack ∈ (if r.consumes then _ else _) at h
          split at h
          · obtain rfl := List.mem_singleton.mp h
            exact .inr (.rounds place r greedy rest (Nat.zero_le 1))
          · apply hchoose h
            apply hmem (.head _)
        · exact .inl (List.mem_singleton.mp h)
        · apply hchoose h
          apply hmem (.head _)
      · cases most with
        | none => apply hmem (.head _) (List.mem_singleton.mp h)
        | some m => apply hmem (.head _) (List.mem_singleton.mp h)
      · cases most with
        | none => apply hmem (.head _) (List.mem_singleton.mp h)
        | some m => apply hmem (.head _) (List.mem_singleton.mp h)

/-- The stacks that continue one that is met are met. -/
theorem expand (h : Inside place r rest (frame :: below)) {before after : Option Char}
    (hstack : stack ∈ frame.expand before after below) :
  OrRest place r rest stack
  := by
  generalize htop : frame :: below = top at h
  induction h with
  | here =>
      cases htop
      apply expand_here hstack
  | @rounds place r least greedy rest hleast =>
      cases htop
      rw [Frame.expand] at hstack
      rcases mem_choose.mp hstack with rfl | rfl
      · have hcases : least = 0 ∨ least = 1 := by omega
        right
        rcases hcases with rfl | rfl <;>
          exact .block (.head _) (.here (place + 2) r _)
      · exact .inl rfl
  | block hb _ ih =>
      rcases ih htop with rfl | hstack
      · apply rest_of_mem hb
      · exact .inr (.block hb hstack)

end Inside

/-- The stacks that are met while an expression is matched, the empty one included. -/
def Met (r : Regex) (stack : List Frame) : Prop :=
  Inside.OrRest 1 r [] stack

namespace Met

variable {frame frame' : Frame} {below below' : List Frame}

theorem inside (h : r.Met (frame :: below)) :
  Inside 1 r [] (frame :: below)
  := h.resolve_left (List.cons_ne_nil frame below)

theorem unique (hbounded : r.Bounded) (h : r.Met (frame :: below))
    (h' : r.Met (frame' :: below')) (hplace : frame.place = frame'.place) :
  frame :: below = frame' :: below'
  := h.inside.unique hbounded h'.inside hplace

theorem range (hbounded : r.Bounded) (h : r.Met (frame :: below)) :
  0 < frame.place ∧ frame.place ≤ r.width
  := by
  obtain ⟨hle, hlt⟩ := h.inside.range hbounded
  omega

theorem tail (h : r.Met (frame :: below)) :
  r.Met below
  := h.inside.tail

theorem expand (h : r.Met (frame :: below)) {before after : Option Char}
    (hstack : stack ∈ frame.expand before after below) :
  r.Met stack
  := h.inside.expand hstack

end Met

end ShiftReduce.Regex
