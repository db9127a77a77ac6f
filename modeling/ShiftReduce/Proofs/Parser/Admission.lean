import ShiftReduce.Proofs.Parser.Reduction

/-!
# Lookaheads that are admitted

A lookahead is admitted after a prefix if it may come where some core is that is viable after
the prefix.  This does not depend on a table: every table over a faithful automaton has an
action for a lookahead that is admitted, and shifts or accepts no other one.  A reduction does
not make a lookahead admitted that has not been before.
-/

namespace ShiftReduce

/-- After a prefix a lookahead may come. -/
def Admits (g : Grammar) (γ : List SymbolId) (x : SymbolId) : Prop :=
  ∃ c, Viable g γ c ∧ Expects g γ c (c.after g) x

variable {g : Grammar} {γ δ : List SymbolId} {c : Core} {i x : SymbolId}

/-! ### Taking back a symbol -/

/-- What begins the rest of a core after some symbol may come after that symbol. -/
theorem Viable.exists_expects (h : Viable g (i :: γ) c) (hx : g.Begins (c.after g) x) :
  ∃ c' rest, Viable g γ c' ∧ c'.after g = i :: rest ∧ Expects g γ c' rest x
  := by
  -- a core that has been called for is left for its caller until the symbol has been read last
  generalize hδ : i :: γ = δ at h
  induction h with
  | start => cases hδ
  | call h hc hid ih =>
      obtain ⟨r, hr, rfl⟩ := Grammar.mem_rulesFor.mp hid
      rw [Core.after_of_rule hr, List.drop_zero] at hx
      apply ih _ hδ
      rw [hc]
      apply Begins.expand (Grammar.mem_allRules.mpr ⟨_, hr⟩) hx
  | read h hc =>
      cases hδ
      rw [Core.after_advance hc] at hx
      exact ⟨_, _, h, hc, .inl hx⟩

/-- What follows a core whose rest vanishes after some symbol may come after that symbol. -/
theorem Follows.exists_expects (h : Follows g (i :: γ) c x) (hrest : g.Vanishes (c.after g)) :
  ∃ c' rest, Viable g γ c' ∧ c'.after g = i :: rest ∧ Expects g γ c' rest x
  := by
  generalize hδ : i :: γ = δ at h
  induction h with
  | start => cases hδ
  | first h hc hid ha =>
      cases hδ
      obtain ⟨r, hr, rfl⟩ := Grammar.mem_rulesFor.mp hid
      rw [Core.after_of_rule hr, List.drop_zero] at hrest
      apply h.exists_expects
      rw [hc]
      apply Begins.skip (.cons (Grammar.mem_allRules.mpr ⟨_, hr⟩) hrest .nil) ha
  | pass h hc hid hrest' ih =>
      obtain ⟨r, hr, rfl⟩ := Grammar.mem_rulesFor.mp hid
      rw [Core.after_of_rule hr, List.drop_zero] at hrest
      apply ih _ hδ
      rw [hc]
      apply Vanishes.cons (Grammar.mem_allRules.mpr ⟨_, hr⟩) hrest hrest'
  | read h hc =>
      cases hδ
      rw [Core.after_advance hc] at hrest
      exact ⟨_, _, h.viable, hc, .inr ⟨hrest, h⟩⟩

/-- A lookahead that is admitted after the left-hand side of a rule is admitted after its
right-hand side. -/
theorem Admits.of_reduced {index : Nat} {r : Rule} (hr : g.rule? (.user index) = some r)
    (h : Admits g (r.lhs :: δ) x) :
  Admits g (r.rhs.reverse ++ δ) x
  := by
  obtain ⟨c, hc, hx⟩ := h
  obtain ⟨c', rest, hc', hafter, hexpects⟩ : ∃ c' rest, Viable g δ c'
      ∧ c'.after g = r.lhs :: rest ∧ Expects g δ c' rest x := by
    rcases hx with hx | ⟨hrest, hx⟩
    · apply hc.exists_expects hx
    · apply hx.exists_expects hrest
  have hfollows := hexpects.follows hc' hafter (Grammar.mem_rulesFor.mpr ⟨r, hr, rfl⟩)
  have hrhs := Core.after_front hr
  obtain ⟨hread, hcomplete⟩ := hfollows.viable.read_append hrhs
  refine ⟨_, hread, .inr ⟨?_, hfollows.read_append hrhs⟩⟩
  rw [hcomplete]
  apply Vanishes.nil

/-! ### Actions on a lookahead -/

section

variable {t : ParseTable} {a : Automaton} {q : StateId} {below stack : List StateId}

/-- A lookahead that is admitted settles. -/
theorem Admits.settles (h : t.Over g a) (hx : Admits g γ x) (hs : a.Spells stack γ) :
  Settles t x stack
  := by
  obtain ⟨c, hc, hx | ⟨hrest, hx⟩⟩ := hx
  · apply settles_of_begins h hx hc (List.append_nil _).symm hs
  · apply settles_of_follows h hx (s := []) rfl hrest hs

/-- There is an action for a lookahead that settles. -/
theorem Settles.exists_action (h : Settles t x (q :: below)) :
  ∃ b, t.action? q x = some b ∧ ∀ target, b ≠ .goto target
  := by
  cases h with
  | shift h => exact ⟨_, h, nofun⟩
  | accept h => exact ⟨_, h, nofun⟩
  | clash h =>
      obtain ⟨shifts, reduces, h⟩ := h
      exact ⟨_, h, nofun⟩
  | reduce h _ =>
      cases h with
      | mk haction _ _ _ => exact ⟨_, haction, nofun⟩

/-- Where there is no action a lookahead does not settle. -/
theorem not_settles
    (haction : t.action? q x = none ∨ ∃ target, t.action? q x = some (.goto target)) :
  ¬ Settles t x (q :: below)
  := by
  intro hsettles
  obtain ⟨b, hb, hne⟩ := hsettles.exists_action
  rw [hb] at haction
  rcases haction with haction | ⟨target, haction⟩
  · cases haction
  · apply hne target (Option.some.inj haction)

/-- Where there is no action a lookahead is not admitted. -/
theorem not_admits (h : t.Over g a) (hs : a.Spells (q :: below) γ)
    (haction : t.action? q x = none ∨ ∃ target, t.action? q x = some (.goto target)) :
  ¬ Admits g γ x
  := fun hx => not_settles haction (hx.settles h hs)

/-- What is shifted is admitted. -/
theorem admits_of_shift (h : t.Over g a) (hs : a.Spells (q :: below) γ) {target : StateId}
    (haction : t.action? q x = some (.shift target)) :
  Admits g γ x
  := by
  obtain ⟨htarget, hterminal⟩ := h.target_of_shift haction
  obtain ⟨c, rest, hc, hafter⟩ := (h.faithful.exists_target_iff hs x).mp ⟨_, htarget⟩
  obtain ⟨r, hr, hmem⟩ := Core.mem_rhs_of_mem_after (hafter ▸ List.mem_cons_self)
  refine ⟨c, hc, .inl ?_⟩
  rw [hafter]
  apply Begins.here
  apply Grammar.getElem?_kinds_eq_terminal.mpr ⟨(h.proper.of_mem_rhs hr hmem).2, hterminal⟩

/-- What is accepted is admitted. -/
theorem admits_of_accept (h : t.Over g a) (hs : a.Spells (q :: below) γ)
    (haction : t.action? q x = some .accept) :
  Admits g γ x
  := by
  obtain ⟨rfl, rfl⟩ := h.eq_start_of_accept hs haction
  have hafter : (Core.mk .accept 0).after g = [g.start] := rfl
  refine ⟨_, Viable.start.read hafter, .inr ⟨?_, Follows.start.read hafter⟩⟩
  rw [Core.after_advance hafter]
  apply Vanishes.nil

end

end ShiftReduce
