import ShiftReduce.Proofs.Table.Driving

/-!
# Reductions on a lookahead

Reductions change only the stack of states, and only the lookahead matters for them.  In a
table over a faithful automaton a reduction replaces the right-hand side of a rule by its
left-hand side in the prefix that the stack spells.  If the lookahead may come where the
parser is, it is shifted or accepted after finitely many reductions, unless there is a
conflict on the way (`settles_of_begins`, `settles_of_follows`).
-/

namespace ShiftReduce

/-- On a lookahead, the reduction by a rule of the language leads from one stack to
another. -/
inductive Reduces (t : ParseTable) (x : SymbolId) (index : Nat) :
    List StateId → List StateId → Prop where
  | mk {q top target : StateId} {below rest : List StateId} {shape : Reduction}
      (haction : t.action? q x = some (.reduce (.user index)))
      (hshape : t.reductions[index]? = some shape)
      (hdrop : (q :: below).drop shape.length = top :: rest)
      (hgoto : t.action? top shape.lhs = some (.goto target)) :
      Reduces t x index (q :: below) (target :: top :: rest)

/-- After finitely many reductions the lookahead is shifted or accepted, or it is met by a
conflict. -/
inductive Settles (t : ParseTable) (x : SymbolId) : List StateId → Prop where
  | shift {q target : StateId} {below : List StateId}
      (h : t.action? q x = some (.shift target)) : Settles t x (q :: below)
  | accept {q : StateId} {below : List StateId} (h : t.action? q x = some .accept) :
      Settles t x (q :: below)
  | clash {q : StateId} {below : List StateId} (h : t.Clashes q x) : Settles t x (q :: below)
  | reduce {index : Nat} {stack stack' : List StateId} (h : Reduces t x index stack stack')
      (h' : Settles t x stack') : Settles t x stack

/-- What holds at a conflict, and before a reduction if it holds after it. -/
structure Backward (t : ParseTable) (x : SymbolId) (P : List StateId → Prop) : Prop where
  clash : ∀ {q below}, t.Clashes q x → P (q :: below)
  reduce : ∀ {index stack stack'}, Reduces t x index stack stack' → P stack' → P stack

theorem backward_settles (t : ParseTable) (x : SymbolId) :
  Backward t x (Settles t x)
  where
  clash := .clash
  reduce := .reduce

/-- Reductions are deterministic. -/
theorem Reduces.unique {t : ParseTable} {x : SymbolId} {index index' : Nat}
    {stack stack₁ stack₂ : List StateId} (h₁ : Reduces t x index stack stack₁)
    (h₂ : Reduces t x index' stack stack₂) :
  index = index' ∧ stack₁ = stack₂
  := by
  obtain ⟨haction₁, hshape₁, hdrop₁, hgoto₁⟩ := h₁
  obtain ⟨haction₂, hshape₂, hdrop₂, hgoto₂⟩ := h₂
  rw [haction₁] at haction₂
  cases haction₂
  rw [hshape₁] at hshape₂
  cases hshape₂
  rw [hdrop₁] at hdrop₂
  cases hdrop₂
  rw [hgoto₁] at hgoto₂
  cases hgoto₂
  apply And.intro rfl rfl

/-- A reduction is an action of the top of the stack. -/
theorem Reduces.exists_action {t : ParseTable} {x : SymbolId} {index : Nat}
    {stack stack' : List StateId} (h : Reduces t x index stack stack') :
  ∃ q below, stack = q :: below ∧ t.action? q x = some (.reduce (.user index))
  := by
  cases h with
  | mk haction _ _ _ => exact ⟨_, _, rfl, haction⟩

/-! ### Lookaheads after what remains -/

/-- A lookahead may come when symbols remain after a core: it begins them, or they vanish
and it follows the core. -/
def Expects (g : Grammar) (γ : List SymbolId) (c : Core) (rest : List SymbolId)
    (x : SymbolId) : Prop :=
  g.Begins rest x ∨ g.Vanishes rest ∧ Follows g γ c x

namespace Expects

variable {g : Grammar} {γ rest : List SymbolId} {c : Core} {i x : SymbolId}

/-- What may come after some symbols may still come when a symbol has been read. -/
theorem read {rest' : List SymbolId} (h : Expects g γ c rest x)
    (hafter : c.after g = i :: rest') :
  Expects g (i :: γ) c.advance rest x
  := by
  rcases h with h | ⟨hrest, h⟩
  · apply Or.inl h
  · apply Or.inr ⟨hrest, h.read hafter⟩

/-- What may come after the next symbol follows the rules of that symbol. -/
theorem follows (h : Expects g γ c rest x) (hc : Viable g γ c)
    (hafter : c.after g = i :: rest) {id : RuleId} (hid : id ∈ g.rulesFor i) :
  Follows g γ ⟨id, 0⟩ x
  := by
  rcases h with h | ⟨hrest, h⟩
  · apply Follows.first hc hafter hid h
  · apply Follows.pass h hafter hid hrest

/-- What may come after some symbols may come also before symbols that vanish. -/
theorem of_vanishes {s : List SymbolId} (hs : g.Vanishes s) (h : Expects g γ c rest x) :
  Expects g γ c (s ++ rest) x
  := by
  rcases h with h | ⟨hrest, h⟩
  · apply Or.inl (Begins.append_left hs h)
  · apply Or.inr ⟨Vanishes.append_iff.mpr ⟨hs, hrest⟩, h⟩

end Expects

/-! ### Steps -/

section

variable {t : ParseTable} {g : Grammar} {a : Automaton}

/-- The rules that expand a symbol after a dot are rules of the language. -/
theorem user_of_mem_rulesFor (hg : g.Proper) {c : Core} {i : SymbolId} {rest : List SymbolId}
    (hafter : c.after g = i :: rest) {id : RuleId} (hid : id ∈ g.rulesFor i) :
  ∃ index r, id = .user index ∧ g.rule? (.user index) = some r ∧ r.lhs = i
  := by
  obtain ⟨r, hr, hlhs⟩ := Grammar.mem_rulesFor.mp hid
  cases id with
  | accept =>
      obtain ⟨r', hr', hmem⟩ := Core.mem_rhs_of_mem_after (hafter ▸ List.mem_cons_self)
      have hlabel := (hg.of_mem_rhs hr' hmem).1
      cases hr
      cases Nat.ne_of_lt hlabel hlhs
  | user index => exact ⟨index, r, rfl, hr, hlhs⟩

theorem exists_user_rule (hg : g.Proper) {c : Core} {i : SymbolId} {rest rhs : List SymbolId}
    (hafter : c.after g = i :: rest) (hr : ⟨i, rhs⟩ ∈ g.allRules) :
  ∃ index, g.rule? (.user index) = some ⟨i, rhs⟩ ∧ .user index ∈ g.rulesFor i
  := by
  obtain ⟨id, hid⟩ := Grammar.mem_allRules.mp hr
  have hmem := Grammar.mem_rulesFor.mpr ⟨_, hid, rfl⟩
  obtain ⟨index, _, rfl, -, -⟩ := user_of_mem_rulesFor hg hafter hmem
  exact ⟨index, hid, hmem⟩

/-- An expanded symbol is a nonterminal. -/
theorem isTerminal_lhs (h : t.Over g a) {id : RuleId} {r : Rule} (hr : g.rule? id = some r) :
  g.isTerminal r.lhs = false
  := by
  rw [Grammar.isTerminal_eq_not, h.proper.isNonterminal_iff.mpr ⟨id, r, hr, rfl⟩]
  rfl

/-- When a table reduces, the right-hand side of the rule has been read, and its left-hand
side takes its place. -/
theorem exists_reduces (h : t.Over g a) {q : StateId} {below : List StateId}
    {γ : List SymbolId} (hs : a.Spells (q :: below) γ) {x : SymbolId} {id : RuleId}
    (haction : t.action? q x = some (.reduce id)) :
  ∃ index r δ stack', id = .user index ∧ g.rule? (.user index) = some r
    ∧ γ = r.rhs.reverse ++ δ ∧ Viable g δ ⟨.user index, 0⟩
    ∧ Reduces t x index (q :: below) stack' ∧ a.Spells stack' (r.lhs :: δ)
  := by
  obtain ⟨index, dot, node, rfl, hq, hlook, hcomplete⟩ := h.looks_of_reduce haction
  have hviable := h.faithful.viable_of_hasCore hs hq hlook.hasCore
  obtain ⟨δ, r, ⟨hr, -, hspelled⟩, hfront⟩ := hviable.unread
  have hdot : dot = r.rhs.length := hviable.dot_eq_length hr hcomplete
  subst hdot
  rw [List.take_length] at hspelled
  obtain ⟨c, i, rest, hc, hafter, hid⟩ := hfront.caller
  obtain ⟨r', hr', rfl⟩ := Grammar.mem_rulesFor.mp hid
  rw [hr] at hr'
  cases hr'
  have hbelow := Automaton.Spells.of_append (hspelled ▸ hs)
  rw [List.length_reverse] at hbelow
  obtain ⟨top, rest', hdrop⟩ := hbelow.exists_eq_cons
  rw [hdrop] at hbelow
  obtain ⟨target, htarget, hgoto⟩ := h.goto hbelow hc hafter (isTerminal_lhs h hr)
  refine ⟨index, r, δ, target :: top :: rest', rfl, hr, hspelled, hfront, ?_,
    .edge hbelow htarget⟩
  apply Reduces.mk haction (h.shape_of_rule hr) hdrop hgoto

/-- A reduction has a rule whose right-hand side has been read, and which the lookahead
follows after some prefix. -/
theorem Reduces.exists_rule (h : t.Over g a) {x : SymbolId} {index : Nat}
    {stack stack' : List StateId} {γ : List SymbolId} (hreduces : Reduces t x index stack stack')
    (hs : a.Spells stack γ) :
  ∃ r δ, g.rule? (.user index) = some r ∧ γ = r.rhs.reverse ++ δ
    ∧ a.Spells stack' (r.lhs :: δ) ∧ ∃ δ', Follows g δ' ⟨.user index, 0⟩ x
  := by
  obtain ⟨q, below, rfl, haction⟩ := hreduces.exists_action
  obtain ⟨index', dot, node, hindex, hq, hlook, -⟩ := h.looks_of_reduce haction
  cases hindex
  obtain ⟨_, _, _, hfollows⟩ := h.faithful.origin hq hlook
  obtain ⟨δ', _, _, hfront⟩ := hfollows.unread
  obtain ⟨index', r, δ, stack'', hindex, hr, hspelled, -, hreduces', hs'⟩ :=
    exists_reduces h hs haction
  cases hindex
  obtain ⟨-, rfl⟩ := hreduces.unique hreduces'
  exact ⟨r, δ, hr, hspelled, hs', δ', hfront⟩

/-- A rule that has been read is reduced by if the lookahead follows it, or there is a
conflict. -/
theorem reduces_or_clashes (h : t.Over g a) {q : StateId} {below : List StateId}
    {γ : List SymbolId} {index : Nat} {r : Rule} (hr : g.rule? (.user index) = some r)
    (hs : a.Spells (q :: below) (r.rhs.reverse ++ γ)) {x : SymbolId}
    (hx : Follows g γ ⟨.user index, 0⟩ x) :
  t.Clashes q x ∨ ∃ stack', Reduces t x index (q :: below) stack'
    ∧ a.Spells stack' (r.lhs :: γ)
  := by
  have hafter := Core.after_front hr
  have hread := hx.read_append hafter
  have hcomplete := (hx.viable.read_append hafter).2
  rcases h.reduce hs hread ⟨⟨r, hr⟩, hcomplete⟩ with haction | hclash
  · obtain ⟨index', r', δ, stack', hindex, hr', hspelled, -, hreduces, hs'⟩ :=
      exists_reduces h hs haction
    cases hindex
    rw [hr] at hr'
    cases hr'
    obtain rfl := List.append_cancel_left hspelled
    apply Or.inr ⟨stack', hreduces, hs'⟩
  · apply Or.inl hclash

/-! ### Runs of reductions -/

/-- When a rule has been read and the lookahead follows it, its left-hand side is read. -/
theorem Backward.reduced (h : t.Over g a) {x : SymbolId} {P : List StateId → Prop}
    (hP : Backward t x P) {γ : List SymbolId} {index : Nat} {r : Rule}
    (hr : g.rule? (.user index) = some r) (hx : Follows g γ ⟨.user index, 0⟩ x)
    {stack : List StateId} (hs : a.Spells stack (r.rhs.reverse ++ γ))
    (hnext : ∀ stack', a.Spells stack' (r.lhs :: γ) → P stack') :
  P stack
  := by
  obtain ⟨q, below, rfl⟩ := hs.exists_eq_cons
  rcases reduces_or_clashes h hr hs hx with hclash | ⟨stack', hreduces, hs'⟩
  · apply hP.clash hclash
  · apply hP.reduce hreduces (hnext stack' hs')

/-- Symbols that vanish are read by reductions alone, if the lookahead may come after
them. -/
theorem Backward.vanished (h : t.Over g a) {x : SymbolId} {P : List StateId → Prop}
    (hP : Backward t x P) {s : List SymbolId} (hvanishes : g.Vanishes s)
    {γ : List SymbolId} {c : Core} {rest : List SymbolId} (hc : Viable g γ c)
    (hafter : c.after g = s ++ rest) (hx : Expects g γ c rest x) {stack : List StateId}
    (hs : a.Spells stack γ)
    (hnext : ∀ stack', a.Spells stack' (s.reverse ++ γ) → P stack') :
  P stack
  := by
  induction hvanishes generalizing γ c rest stack with
  | nil => apply hnext stack hs
  | @cons i rhs s hr hrhs hrest ihrhs ihrest =>
      obtain ⟨index, hrule, hid⟩ := exists_user_rule h.proper hafter hr
      have hfollows := (hx.of_vanishes hrest).follows hc hafter hid
      apply ihrhs hfollows.viable (Core.after_front hrule) (.inr ⟨.nil, hfollows⟩) hs
      intro stack₁ hs₁
      apply hP.reduced h hrule hfollows hs₁
      intro stack₂ hs₂
      apply ihrest (hc.read hafter) (Core.after_advance hafter) (hx.read hafter) hs₂
      intro stack₃ hs₃
      apply hnext stack₃
      rw [List.reverse_cons, List.append_assoc]
      apply hs₃

/-- A lookahead that begins what may be read next settles. -/
theorem settles_of_begins (h : t.Over g a) {s : List SymbolId} {x : SymbolId}
    (hbegins : g.Begins s x) {γ : List SymbolId} {c : Core} {rest : List SymbolId}
    (hc : Viable g γ c) (hafter : c.after g = s ++ rest) {stack : List StateId}
    (hs : a.Spells stack γ) :
  Settles t x stack
  := by
  induction hbegins generalizing γ c rest stack with
  | @here x s ha =>
      obtain ⟨q, below, rfl⟩ := hs.exists_eq_cons
      have hterminal := (Grammar.getElem?_kinds_eq_terminal.mp ha).2
      obtain ⟨target, -, haction | hclash⟩ := h.shift hs hc hafter hterminal
      · apply Settles.shift haction
      · apply Settles.clash hclash
  | @expand i x rhs s hr _ ih =>
      obtain ⟨index, hrule, hid⟩ := exists_user_rule h.proper hafter hr
      apply ih (hc.call hafter hid) (Core.after_front hrule) hs
  | @skip i x s hi hbegins ih =>
      apply (backward_settles t x).vanished h hi hc hafter
        (.inl (hbegins.append_right rest)) hs
      intro stack' hs'
      apply ih (hc.read hafter) (Core.after_advance hafter) hs'

/-- Where what remains of a rule vanishes and the lookahead follows the rule, it settles if it
settles after the rule has been read. -/
theorem settles_of_read (h : t.Over g a) {γ : List SymbolId} {c : Core} {x : SymbolId}
    (hx : Follows g γ c x) {s rest : List SymbolId} (hafter : c.after g = s ++ rest)
    (hrest : g.Vanishes rest) {stack : List StateId} (hs : a.Spells stack (s.reverse ++ γ))
    (hnext : ∀ stack', a.Spells stack' ((c.after g).reverse ++ γ) → Settles t x stack') :
  Settles t x stack
  := by
  have hx' := hx.read_append hafter
  obtain ⟨hc', hcomplete⟩ := hx.viable.read_append hafter
  have hafter' := hcomplete.trans (List.append_nil rest).symm
  apply (backward_settles t x).vanished h hrest hc' hafter' (.inr ⟨.nil, hx'⟩) hs
  intro stack' hs'
  apply hnext stack'
  rw [hafter, List.reverse_append, List.append_assoc]
  apply hs'

/-- Where what remains of the rule of a symbol vanishes, a lookahead that follows the rule
settles if it settles after the symbol. -/
theorem settles_of_expanded (h : t.Over g a) {γ : List SymbolId} {c : Core} {i x : SymbolId}
    {rest' : List SymbolId} (hafter' : c.after g = i :: rest') {id : RuleId}
    (hid : id ∈ g.rulesFor i) (hx : Follows g γ ⟨id, 0⟩ x) {s rest : List SymbolId}
    (hafter : (Core.mk id 0).after g = s ++ rest) (hrest : g.Vanishes rest)
    {stack : List StateId} (hs : a.Spells stack (s.reverse ++ γ))
    (hnext : ∀ stack', a.Spells stack' (i :: γ) → Settles t x stack') :
  Settles t x stack
  := by
  obtain ⟨index, r, rfl, hr, rfl⟩ := user_of_mem_rulesFor h.proper hafter' hid
  apply settles_of_read h hx hafter hrest hs
  intro stack' hs'
  rw [Core.after_of_rule hr, List.drop_zero] at hs'
  apply (backward_settles t x).reduced h hr hx hs' hnext

/-- A lookahead that follows a core settles where what remains of its rule vanishes. -/
theorem settles_of_follows (h : t.Over g a) {γ : List SymbolId} {c : Core} {x : SymbolId}
    (hx : Follows g γ c x) {s rest : List SymbolId} (hafter : c.after g = s ++ rest)
    (hrest : g.Vanishes rest) {stack : List StateId} (hs : a.Spells stack (s.reverse ++ γ)) :
  Settles t x stack
  := by
  -- at the end of a rule the induction goes on at the core that has called for the rule
  induction hx generalizing s rest stack with
  | start =>
      apply settles_of_read h .start hafter hrest hs
      intro stack' hs'
      have hafter' : (Core.mk .accept 0).after g = [g.start] ++ [] := rfl
      obtain ⟨hc', hcomplete⟩ := Viable.start.read_append hafter'
      obtain ⟨q, below, rfl⟩ := hs'.exists_eq_cons
      rcases h.accept hs' hc' ⟨⟨g.accept, rfl⟩, hcomplete⟩ with haction | hclash
      · apply Settles.accept haction
      · apply Settles.clash hclash
  | first hc hc' hid hx' =>
      apply settles_of_expanded h hc' hid (.first hc hc' hid hx') hafter hrest hs
      intro stack' hs'
      have hafter' := (Core.after_advance hc').trans (List.append_nil _).symm
      apply settles_of_begins h hx' (hc.read hc') hafter' hs'
  | @pass _ _ i _ _ _ hx' hc' hid hrest' ih =>
      apply settles_of_expanded h hc' hid (.pass hx' hc' hid hrest') hafter hrest hs
      intro stack' hs'
      apply ih (s := [i]) hc' hrest' hs'
  | @read γ c i x rest' hx' hc' ih =>
      have hafter' : c.after g = (i :: s) ++ rest := by
        rw [Core.after_advance hc'] at hafter
        rw [hc', hafter]
        rfl
      apply ih hafter' hrest
      rw [List.reverse_cons, List.append_assoc]
      apply hs

end

end ShiftReduce
