import Mathlib.Data.Fintype.Basic
import Mathlib.Data.Fintype.Card
import Mathlib.Data.Fintype.EquivFin
import Mathlib.Logic.Relation
import ShiftReduce.Proofs.Parser.Reduction

/-!
# Reductions come to an end

Without conflicts the reductions on a lookahead come to an end also where the lookahead
cannot be read, although a faithful automaton may go on with them for a while.  As long as
the reductions stay above a state they are those of a prefix that leads to the state and
that the lookahead may follow, and these come to an end.  So a run that goes on must go
below the state.  It can do so without making the prefix shorter only by replacing its last
symbol, and these replacements do not go round in a circle (`not_transGen_collapses`).
-/

namespace ShiftReduce

/-- On a lookahead, a reduction by some rule leads from one stack to another. -/
def Turns (t : ParseTable) (x : SymbolId) (stack stack' : List StateId) : Prop :=
  ∃ index, Reduces t x index stack stack'

/-- The reductions on a lookahead come to an end. -/
def Halts (t : ParseTable) (x : SymbolId) (stack : List StateId) : Prop :=
  Acc (fun stack' stack => Turns t x stack stack') stack

variable {t : ParseTable} {g : Grammar} {a : Automaton} {x : SymbolId}

/-- There are no reductions where the action of the top is something else. -/
theorem halts_of_action {q : StateId} {below : List StateId} {b : Action}
    (hb : t.action? q x = some b) (hne : ∀ id, b ≠ .reduce id) :
  Halts t x (q :: below)
  := by
  constructor
  rintro stack' ⟨index, hreduces⟩
  cases hreduces with
  | mk haction _ _ _ =>
      rw [hb] at haction
      cases hne _ (Option.some.inj haction)

/-- A lookahead that settles ends the reductions. -/
theorem Settles.halts {stack : List StateId} (h : Settles t x stack) :
  Halts t x stack
  := by
  induction h with
  | shift h => apply halts_of_action h nofun
  | accept h => apply halts_of_action h nofun
  | clash h =>
      obtain ⟨shifts, reduces, h⟩ := h
      apply halts_of_action h nofun
  | reduce h _ ih =>
      constructor
      rintro stack' ⟨index, hreduces⟩
      obtain ⟨-, rfl⟩ := h.unique hreduces
      apply ih

/-- A stack whose reductions come to an end does not come back. -/
theorem Halts.not_transGen {stack : List StateId} (h : Halts t x stack) :
  ¬ Relation.TransGen (Turns t x) stack stack
  := by
  intro hcycle
  have hacc := Acc.transGen h
  have hswap := Relation.transGen_swap.mpr hcycle
  induction hacc with
  | intro stack _ ih => apply ih stack hswap h hcycle hswap

/-! ### Replacing the last symbol -/

/-- A rule expands a symbol to one that stands first, followed by symbols that vanish. -/
def Wraps (g : Grammar) (i i' : SymbolId) : Prop :=
  ∃ δ, ⟨i', i :: δ⟩ ∈ g.allRules ∧ g.Vanishes δ

/-- A symbol may be read next after a prefix, and then a lookahead may come. -/
def Awaits (g : Grammar) (γ : List SymbolId) (i x : SymbolId) : Prop :=
  ∃ c rest, Follows g γ c x ∧ c.after g = i :: rest ∧ g.Vanishes rest

/-- A symbol that may come before the lookahead is replaced by one that it wraps. -/
def Collapses (g : Grammar) (x i i' : SymbolId) : Prop :=
  Wraps g i i' ∧ ∃ γ, Awaits g γ i x

theorem Awaits.of_wraps (h : t.Over g a) {γ : List SymbolId} {i i' : SymbolId}
    (hi' : Awaits g γ i' x) (hwraps : Wraps g i i') :
  Awaits g γ i x
  := by
  obtain ⟨c, rest, hfollows, hafter, hrest⟩ := hi'
  obtain ⟨δ, hr, hδ⟩ := hwraps
  obtain ⟨index, hrule, hid⟩ := exists_user_rule h.proper hafter hr
  refine ⟨⟨.user index, 0⟩, δ, .pass hfollows hafter hid hrest, ?_, hδ⟩
  rw [Core.after_of_rule hrule]
  rfl

/-- Without conflicts a wrapped symbol is replaced by reductions. -/
theorem transGen_of_wraps (h : t.Over g a) (hclash : ∀ q, ¬ t.Clashes q x)
    {γ : List SymbolId} {i i' : SymbolId} (hi' : Awaits g γ i' x) (hwraps : Wraps g i i')
    {stack : List StateId} (hs : a.Spells stack (i :: γ)) :
  ∃ stack', a.Spells stack' (i' :: γ) ∧ Relation.TransGen (Turns t x) stack stack'
  := by
  obtain ⟨c, rest, hfollows, hafter, hrest⟩ := hi'
  obtain ⟨δ, hr, hδ⟩ := hwraps
  obtain ⟨index, hrule, hid⟩ := exists_user_rule h.proper hafter hr
  have hfront := Follows.pass hfollows hafter hid hrest
  have hafter' : (Core.mk (.user index) 0).after g = i :: δ := by
    rw [Core.after_of_rule hrule]
    rfl
  have hread := hfront.read hafter'
  have hP : Backward t x fun stack => ∃ stack', a.Spells stack' (i' :: γ)
      ∧ Relation.TransGen (Turns t x) stack stack' := by
    constructor
    · intro q _ hq
      cases hclash q hq
    · rintro index stack₁ stack₂ hreduces ⟨stack', hs', hsteps⟩
      exact ⟨stack', hs', .head ⟨index, hreduces⟩ hsteps⟩
  have hrest' := (Core.after_advance hafter').trans (List.append_nil δ).symm
  apply hP.vanished h hδ hread.viable hrest' (.inr ⟨.nil, hread⟩) hs
  intro stack₁ hs₁
  have hrhs : δ.reverse ++ i :: γ = (i :: δ).reverse ++ γ := by simp
  rw [hrhs] at hs₁
  obtain ⟨q, below, rfl⟩ := hs₁.exists_eq_cons
  rcases reduces_or_clashes h hrule hs₁ hfront with hq | ⟨stack₂, hreduces, hs₂⟩
  · cases hclash q hq
  · exact ⟨stack₂, hs₂, .single ⟨index, hreduces⟩⟩

theorem transGen_of_transGen_wraps (h : t.Over g a) (hclash : ∀ q, ¬ t.Clashes q x)
    {γ : List SymbolId} {i i' : SymbolId} (hi' : Awaits g γ i' x)
    (hwraps : Relation.TransGen (Wraps g) i i') :
  Awaits g γ i x ∧ ∀ stack, a.Spells stack (i :: γ) →
    ∃ stack', a.Spells stack' (i' :: γ) ∧ Relation.TransGen (Turns t x) stack stack'
  := by
  induction hwraps using Relation.TransGen.head_induction_on with
  | single hwraps =>
      use hi'.of_wraps h hwraps
      intro stack hs
      apply transGen_of_wraps h hclash hi' hwraps hs
  | head hwraps _ ih =>
      obtain ⟨hmiddle, hrun⟩ := ih
      use hmiddle.of_wraps h hwraps
      intro stack hs
      obtain ⟨stack₁, hs₁, hsteps₁⟩ := transGen_of_wraps h hclash hmiddle hwraps hs
      obtain ⟨stack₂, hs₂, hsteps₂⟩ := hrun stack₁ hs₁
      exact ⟨stack₂, hs₂, hsteps₁.trans hsteps₂⟩

/-- Without conflicts replacements do not go round in a circle. -/
theorem not_transGen_collapses (h : t.Over g a) (hclash : ∀ q, ¬ t.Clashes q x)
    (i : SymbolId) :
  ¬ Relation.TransGen (Collapses g x) i i
  := by
  intro hcycle
  obtain ⟨i', ⟨_, γ, hawaits⟩, _⟩ := Relation.TransGen.head'_iff.mp hcycle
  have hle : Collapses g x ≤ Wraps g := fun _ _ hcollapses => hcollapses.1
  have hwraps := Relation.TransGen.mono hle _ _ hcycle
  obtain ⟨-, hrun⟩ := transGen_of_transGen_wraps h hclash hawaits hwraps
  obtain ⟨c, rest, hfollows, hafter, hrest⟩ := hawaits
  obtain ⟨stack, hs⟩ := h.faithful.exists_spells (hfollows.viable.read hafter)
  obtain ⟨stack', hs', hsteps⟩ := hrun stack hs
  obtain rfl := hs.unique hs'
  have hsettles := settles_of_follows h hfollows (s := [i]) hafter hrest hs
  apply hsettles.halts.not_transGen hsteps

/-- Without conflicts there is no endless sequence of replacements. -/
theorem acc_collapses (h : t.Over g a) (hclash : ∀ q, ¬ t.Clashes q x) (i : SymbolId) :
  Acc (fun i' i => Collapses g x i i') i
  := by
  have hlt : ∀ {i i'}, Collapses g x i i' → i' < g.symbolCount := by
    rintro i i' ⟨⟨δ, hr, -⟩, -⟩
    obtain ⟨id, hid⟩ := Grammar.mem_allRules.mp hr
    apply (h.proper.lhs_of_rule? hid).2.1
  let R : Fin g.symbolCount → Fin g.symbolCount → Prop :=
    Relation.TransGen fun i' i => Collapses g x i.val i'.val
  have hirrefl : Std.Irrefl R := by
    constructor
    intro j hj
    apply not_transGen_collapses h hclash j.val
    apply Relation.transGen_swap.mp
    apply hj.lift Fin.val fun _ _ hstep => hstep
  have hwf : WellFounded R := Finite.wellFounded_of_trans_of_irrefl R
  have hfin : ∀ j : Fin g.symbolCount, Acc (fun i' i => Collapses g x i i') j.val := by
    intro j
    induction j using hwf.induction with
    | _ j ih =>
        constructor
        intro i' hcollapses
        apply ih ⟨i', hlt hcollapses⟩ (.single hcollapses)
  constructor
  intro i' hcollapses
  apply hfin ⟨i', hlt hcollapses⟩

/-! ### Runs above a state -/

/-- A reduction that stays above a state is the same whatever is below the state. -/
theorem Reduces.frame {index : Nat} {u below below' stack : List StateId} {q : StateId}
    {shape : Reduction} (hreduces : Reduces t x index (u ++ q :: below) stack)
    (hshape : t.reductions[index]? = some shape) (hle : shape.length ≤ u.length) :
  ∃ target, stack = target :: u.drop shape.length ++ q :: below
    ∧ Reduces t x index (u ++ q :: below') (target :: u.drop shape.length ++ q :: below')
  := by
  generalize hstack : u ++ q :: below = former at hreduces
  obtain ⟨haction, hshape', hdrop, hgoto⟩ := hreduces
  rename_i p top target below₁ rest shape'
  rw [hshape] at hshape'
  cases hshape'
  rw [← hstack, List.drop_append_of_le_length hle] at hdrop
  have htop : ∀ {l : List StateId} {p rest}, l ++ q :: below = p :: rest →
      ∃ rest', l ++ q :: below' = p :: rest' := by
    intro l p rest hl
    cases l with
    | nil =>
        cases hl
        exact ⟨below', rfl⟩
    | cons p' l =>
        cases hl
        exact ⟨_, rfl⟩
  obtain ⟨below₂, hstack'⟩ := htop hstack
  obtain ⟨rest', hdrop'⟩ := htop hdrop
  refine ⟨target, ?_, ?_⟩
  · rw [List.cons_append, hdrop]
  · rw [List.cons_append, hdrop', hstack']
    apply Reduces.mk haction hshape _ hgoto
    rw [← hstack', List.drop_append_of_le_length hle, hdrop']

/-- If a run above a state comes to an end over one stack, it does so over every stack with
that state on top, provided it does so when it goes below the state. -/
theorem halts_of_frame (h : t.Over g a) {q : StateId} {below below' : List StateId}
    {γ : List SymbolId}
    (hunder : ∀ {v stack stack' index r}, g.Vanishes v → a.Spells stack (v ++ γ) →
      Reduces t x index stack stack' → g.rule? (.user index) = some r →
      v.length < r.rhs.length → Halts t x stack')
    (hhalts : Halts t x (q :: below')) (hs : a.Spells (q :: below) γ) :
  Halts t x (q :: below)
  := by
  -- the symbols `v` have been read above the state, by reductions alone
  have hall : ∀ {former}, Halts t x former → ∀ {u v}, former = u ++ q :: below' →
      a.Spells (u ++ q :: below) (v ++ γ) → v.length = u.length → g.Vanishes v →
      Halts t x (u ++ q :: below) := by
    intro former hformer
    induction hformer with
    | intro former _ ih =>
        rintro u v rfl hs hlength hv
        constructor
        rintro stack ⟨index, hreduces⟩
        obtain ⟨r, δ, hr, hspelled, hs', -⟩ := hreduces.exists_rule h hs
        by_cases hle : r.rhs.length ≤ v.length
        · obtain ⟨v', rfl⟩ : ∃ v', v = r.rhs.reverse ++ v' := by
            have hprefix := List.prefix_of_prefix_length_le (List.prefix_append _ δ)
              (hspelled ▸ List.prefix_append v γ) (by rwa [List.length_reverse])
            obtain ⟨v', hv'⟩ := hprefix
            exact ⟨v', hv'.symm⟩
          rw [List.append_assoc] at hspelled
          obtain rfl := List.append_cancel_left hspelled
          obtain ⟨hrhs, hv'⟩ := Vanishes.append_iff.mp hv
          obtain ⟨target, rfl, hother⟩ :=
            hreduces.frame (h.shape_of_rule hr) (Nat.le_trans hle (Nat.le_of_eq hlength))
          apply ih _ ⟨index, hother⟩ rfl (v := r.lhs :: v') hs'
          · rw [List.length_append, List.length_reverse] at hlength
            rw [List.length_cons, List.length_cons, List.length_drop, ← hlength,
              Nat.add_sub_cancel_left]
          · apply Vanishes.cons (Grammar.mem_allRules.mpr ⟨_, hr⟩) _ hv'
            apply Vanishes.reverse_iff.mp hrhs
        · apply hunder hv hs hreduces hr (Nat.lt_of_not_le hle)
  apply hall hhalts (u := []) (v := []) rfl hs rfl .nil

/-! ### Every run comes to an end -/

/-- A prefix is left behind if the reductions come to an end from all stacks that spell
shorter prefixes, and from those that spell the prefix with the last symbol replaced. -/
structure Left (t : ParseTable) (g : Grammar) (a : Automaton) (x : SymbolId)
    (γ : List SymbolId) : Prop where
  shorter : ∀ {γ' stack}, γ'.length < γ.length → a.Spells stack γ' → Halts t x stack
  replaced : ∀ {i i' δ stack}, γ = i :: δ → Collapses g x i i' →
    a.Spells stack (i' :: δ) → Halts t x stack

/-- A reduction of more than the symbols that have been read since, all of which vanish,
makes a prefix shorter or replaces its last symbol. -/
theorem Left.halts (h : t.Over g a) {γ : List SymbolId} (hγ : Left t g a x γ)
    {v : List SymbolId} {stack stack' : List StateId} {index : Nat} {r : Rule}
    (hv : g.Vanishes v) (hs : a.Spells stack (v ++ γ))
    (hreduces : Reduces t x index stack stack') (hr : g.rule? (.user index) = some r)
    (hlt : v.length < r.rhs.length) :
  Halts t x stack'
  := by
  obtain ⟨r', δ, hr', hspelled, hs', δ', hfollows⟩ := hreduces.exists_rule h hs
  rw [hr] at hr'
  cases hr'
  obtain ⟨v', hv', rfl⟩ : ∃ v', r.rhs.reverse = v ++ v' ∧ γ = v' ++ δ := by
    have hprefix := List.prefix_of_prefix_length_le (List.prefix_append v γ)
      (hspelled ▸ List.prefix_append _ δ)
      (by rw [List.length_reverse]; apply Nat.le_of_lt hlt)
    obtain ⟨v', hv'⟩ := hprefix
    rw [← hv', List.append_assoc] at hspelled
    exact ⟨v', hv'.symm, List.append_cancel_left hspelled⟩
  have hlength := congrArg List.length hv'
  rw [List.length_reverse, List.length_append] at hlength
  match v' with
  | [] =>
      rw [List.length_nil, Nat.add_zero] at hlength
      cases Nat.ne_of_gt hlt hlength
  | [i] =>
      have hrhs : r.rhs = i :: v.reverse := by
        rw [← List.reverse_reverse r.rhs, hv', List.reverse_append]
        rfl
      have hv := Vanishes.reverse_iff.mpr hv
      apply hγ.replaced List.singleton_append _ hs'
      refine ⟨⟨v.reverse, ?_, hv⟩, δ', ⟨.user index, 0⟩, v.reverse, hfollows, ?_, hv⟩
      · rw [← hrhs]
        apply Grammar.mem_allRules.mpr ⟨_, hr⟩
      · rw [Core.after_of_rule hr, List.drop_zero, hrhs]
  | i :: i' :: v' =>
      apply hγ.shorter _ hs'
      simp only [List.length_cons, List.length_append]
      omega

/-- The reductions come to an end where a prefix is left behind. -/
theorem Left.halts_of_spells (h : t.Over g a) {γ : List SymbolId} (hγ : Left t g a x γ)
    {stack : List StateId} (hs : a.Spells stack γ) :
  Halts t x stack
  := by
  -- without a reduction there is nothing to show, and with one some prefix that the
  -- lookahead may follow leads to the same state
  constructor
  rintro stack₁ ⟨index, hreduces⟩
  have hhalts : Halts t x stack := by
    cases hreduces with
    | mk haction _ _ _ =>
        obtain ⟨_, _, _, -, hq, hlook, hcomplete⟩ := h.looks_of_reduce haction
        obtain ⟨below', γ', hs', hfollows⟩ := h.faithful.origin hq hlook
        have hsettles := settles_of_follows h hfollows (s := []) hcomplete.2 .nil hs'
        apply halts_of_frame h _ hsettles.halts hs
        intro v stack stack' index r hv hs hreduces hr hlt
        apply hγ.halts h hv hs hreduces hr hlt
  apply hhalts.inv ⟨index, hreduces⟩

/-- Without conflicts the reductions on a lookahead come to an end wherever a prefix is
spelled. -/
theorem halts_of_spells (h : t.Over g a) (hclash : ∀ q, ¬ t.Clashes q x)
    {γ : List SymbolId} {stack : List StateId} (hs : a.Spells stack γ) :
  Halts t x stack
  := by
  induction hn : γ.length using Nat.strong_induction_on generalizing γ stack with
  | _ n ih =>
      have hshorter : ∀ {γ' stack'}, γ'.length < n → a.Spells stack' γ' →
          Halts t x stack' := by
        intro γ' stack' hlt hs'
        apply ih _ hlt hs' rfl
      cases γ with
      | nil =>
          apply Left.halts_of_spells h _ hs
          constructor
          · intro γ' stack' hlt hs'
            apply hshorter (hn ▸ hlt) hs'
          · intro i i' δ stack' hnil
            cases hnil
      | cons i δ =>
          -- the last symbol can be replaced only finitely often
          induction acc_collapses (x := x) h hclash i generalizing stack with
          | intro i _ ih' =>
              apply Left.halts_of_spells h _ hs
              constructor
              · intro γ' stack' hlt hs'
                apply hshorter (hn ▸ hlt) hs'
              · intro i₁ i₂ δ' stack' hcons hcollapses hs'
                cases hcons
                apply ih' i₂ hcollapses hs' hn

end ShiftReduce
