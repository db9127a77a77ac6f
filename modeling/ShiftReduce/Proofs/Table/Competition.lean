import ShiftReduce.Proofs.Automaton.Indexed
import ShiftReduce.Proofs.Automaton.WellFormed
import ShiftReduce.Proofs.Table.Conflicts

/-!
# What competes in a place

On a terminal, a state can move along its edge, and it can reduce by the rules of its complete
items that have the terminal among their lookaheads.  The table has exactly these: nothing, or
the only one, or the conflict of all of them, each listed once and in the order of the items
(`ParseTable.holds_competing_actions`).

Actions are put in a place one at a time, and a conflict with another action is a longer
conflict.  Since no two of the actions are for the same state or the same rule, what comes of
it is the list of all (`contest_eq_conflict`).
-/

namespace ShiftReduce

/-! ### Contests without repetitions -/

theorem appendNew_eq_append {α : Type} [DecidableEq α] {l l' : List α} (h : (l ++ l').Nodup) :
  Action.appendNew l l' = l ++ l'
  := by
  rw [Action.appendNew]
  induction l' generalizing l with
  | nil => simp
  | cons x rest ih =>
      have hx : x ∉ l := by
        rw [List.nodup_append] at h
        intro hx
        apply h.2.2 x hx x List.mem_cons_self rfl
      have happend : l ++ x :: rest = (l ++ [x]) ++ rest := by simp
      rw [List.foldl_cons, if_neg hx, happend]
      apply ih
      rw [← happend]
      apply h

/-- Actions that have no state and no rule in common become the conflict of all of them. -/
theorem contest_some_eq_conflict {former : Action} {actions : List Action} (hne : actions ≠ [])
    (htargets : ((former :: actions).flatMap Action.targets).Nodup)
    (hrules : ((former :: actions).flatMap Action.rules).Nodup) :
  contest (some former) actions
    = some (.conflict ((former :: actions).flatMap Action.targets)
        ((former :: actions).flatMap Action.rules))
  := by
  induction actions generalizing former with
  | nil => cases hne rfl
  | cons a rest ih =>
      rw [List.flatMap_cons, List.flatMap_cons, ← List.append_assoc] at htargets hrules
      have htargets' : (former.contend a).targets = former.targets ++ a.targets :=
        appendNew_eq_append (List.nodup_append.mp htargets).1
      have hrules' : (former.contend a).rules = former.rules ++ a.rules :=
        appendNew_eq_append (List.nodup_append.mp hrules).1
      have hcontend : former.contend a
          = .conflict (former.targets ++ a.targets) (former.rules ++ a.rules) := by
        rw [← htargets', ← hrules']
        rfl
      rw [contest]
      by_cases hrest : rest = []
      · subst hrest
        rw [contest, hcontend]
        simp
      · rw [ih hrest, List.flatMap_cons, List.flatMap_cons, htargets', hrules']
        · simp
        · rw [List.flatMap_cons, htargets']
          apply htargets
        · rw [List.flatMap_cons, hrules']
          apply hrules

theorem contest_eq_conflict {actions : List Action} (hlength : 2 ≤ actions.length)
    (htargets : (actions.flatMap Action.targets).Nodup)
    (hrules : (actions.flatMap Action.rules).Nodup) :
  contest none actions
    = some (.conflict (actions.flatMap Action.targets) (actions.flatMap Action.rules))
  := by
  cases actions with
  | nil => cases hlength
  | cons first rest =>
      rw [contest]
      apply contest_some_eq_conflict _ htargets hrules
      rintro rfl
      cases Nat.not_succ_le_self 1 hlength

namespace Action

/-- To reduce by a rule; by the accepting rule, to accept. -/
def reduction : RuleId → Action
  | .accept => .accept
  | .user index => .reduce (.user index)

/-- What is in a place when some states and some rules compete for it. -/
def compete : List StateId → List RuleId → Option Action
  | [], [] => none
  | [target], [] => some (.shift target)
  | [], [rule] => some (.reduction rule)
  | shifts, reduces => some (.conflict shifts reduces)

@[simp]
theorem targets_shift (target : StateId) :
  (shift target).targets = [target]
  := rfl

@[simp]
theorem rules_shift (target : StateId) :
  (shift target).rules = []
  := rfl

@[simp]
theorem targets_reduction (rule : RuleId) :
  (reduction rule).targets = []
  := by cases rule <;> rfl

@[simp]
theorem rules_reduction (rule : RuleId) :
  (reduction rule).rules = [rule]
  := by cases rule <;> rfl

theorem reduction_ne_conflict (rule : RuleId) (shifts : List StateId) (reduces : List RuleId) :
  reduction rule ≠ .conflict shifts reduces
  := by cases rule <;> exact nofun

theorem compete_of_two_le {shifts : List StateId} {reduces : List RuleId}
    (h : 2 ≤ shifts.length + reduces.length) :
  compete shifts reduces = some (.conflict shifts reduces)
  := by
  unfold compete
  split
  · simp at h
  · simp at h
  · simp at h
  · rfl

/-- Where fewer than two compete there is none, one state or one rule. -/
theorem competing_cases {shifts : List StateId} {reduces : List RuleId}
    (h : ¬ 2 ≤ shifts.length + reduces.length) :
  shifts = [] ∧ reduces = [] ∨ (∃ target, shifts = [target] ∧ reduces = [])
    ∨ ∃ rule, shifts = [] ∧ reduces = [rule]
  := by
  cases shifts with
  | nil =>
      cases reduces with
      | nil => simp
      | cons rule rest =>
          have hrest : rest = [] := by
            apply List.length_eq_zero_iff.mp
            simp only [List.length_nil, List.length_cons] at h
            omega
          simp [hrest]
  | cons target rest =>
      simp only [List.length_cons] at h
      have hrest : rest = [] := by
        apply List.length_eq_zero_iff.mp
        omega
      have hreduces : reduces = [] := by
        apply List.length_eq_zero_iff.mp
        omega
      simp [hrest, hreduces]

/-- There is a conflict where at least two compete. -/
theorem exists_compete_eq_conflict_iff {shifts : List StateId} {reduces : List RuleId} :
  (∃ shifts' reduces', compete shifts reduces = some (.conflict shifts' reduces'))
    ↔ 2 ≤ shifts.length + reduces.length
  := by
  constructor
  · rintro ⟨shifts', reduces', h⟩
    by_contra hfew
    rcases competing_cases hfew with ⟨rfl, rfl⟩ | ⟨target, rfl, rfl⟩ | ⟨rule, rfl, rfl⟩
    · cases h
    · cases h
    · apply reduction_ne_conflict _ _ _ (Option.some.inj h)
  · intro h
    use shifts, reduces, compete_of_two_le h

end Action

/-- If states and rules are not repeated, a contest ends with what they compete for. -/
theorem contest_eq_compete {shifts : List StateId} {reduces : List RuleId}
    (hshifts : shifts.Nodup) (hreduces : reduces.Nodup) :
  contest none (shifts.map Action.shift ++ reduces.map Action.reduction)
    = Action.compete shifts reduces
  := by
  by_cases hlength : 2 ≤ shifts.length + reduces.length
  · have htargets : (shifts.map Action.shift ++ reduces.map Action.reduction).flatMap
        Action.targets = shifts := by
      simp [List.flatMap_map]
    have hrules : (shifts.map Action.shift ++ reduces.map Action.reduction).flatMap
        Action.rules = reduces := by
      simp [List.flatMap_map]
    rw [Action.compete_of_two_le hlength, contest_eq_conflict, htargets, hrules]
    · simpa using hlength
    · rw [htargets]
      apply hshifts
    · rw [hrules]
      apply hreduces
  · rcases Action.competing_cases hlength with ⟨rfl, rfl⟩ | ⟨target, rfl, rfl⟩ | ⟨rule, rfl, rfl⟩
    · rfl
    · rfl
    · rfl

/-! ### The claimants of a symbol -/

/-- The rules of the complete items of a state that have a symbol among their lookaheads, in the
order of the items. -/
def Node.completed (g : Grammar) (node : Node) (x : SymbolId) : List RuleId :=
  (node.items.items.filter fun item => item.isComplete g && item.lookaheads.contains x).map
    fun item => item.core.rule

theorem Node.mem_completed {g : Grammar} {node : Node} {x : SymbolId} {rule : RuleId} :
  rule ∈ node.completed g x
    ↔ ∃ item ∈ node.items.items, item.core.Complete g ∧ x ∈ item.lookaheads
      ∧ item.core.rule = rule
  := by
  simp only [completed, List.mem_map, List.mem_filter, Bool.and_eq_true, Row.isComplete_iff,
    SymbolSet.contains_iff, and_assoc]

namespace Row

/-- The accepting item, once complete, waits for the end of input and for nothing else. -/
def AcceptsAtEnd (g : Grammar) (item : Item) : Prop :=
  item.core.rule = .accept → item.core.Complete g → ∀ x, x ∈ item.lookaheads ↔ x = endOfInputId

/-- An item claims each of its lookaheads once. -/
theorem claimants_itemClaims {g : Grammar} {item : Item} (haccept : AcceptsAtEnd g item)
    (x : SymbolId) :
  claimants (itemClaims g item) x
    = if item.isComplete g && item.lookaheads.contains x then [.reduction item.core.rule] else []
  := by
  rw [itemClaims]
  by_cases hcomplete : item.isComplete g = true
  · rw [if_pos hcomplete, hcomplete, Bool.true_and]
    cases hrule : item.core.rule with
    | accept =>
        have hx : item.lookaheads.contains x = decide (endOfInputId = x) := by
          rw [Bool.eq_iff_iff, SymbolSet.contains_iff, decide_eq_true_iff, eq_comm]
          apply haccept hrule (isComplete_iff.mp hcomplete)
        by_cases heq : endOfInputId = x
        · simp [claimants, hx, heq, Action.reduction]
        · simp [claimants, hx, heq]
    | user index =>
        have hkey : (fun claim : SymbolId × Action => decide (claim.1 = x))
            ∘ (fun i => (i, Action.reduce (.user index))) = fun i => decide (i = x) := rfl
        rw [claimants, List.filter_map, hkey, List.filter_eq,
          item.lookaheads.nodup_members.count]
        by_cases hx : x ∈ item.lookaheads.members
        · simp [SymbolSet.contains, SymbolSet.mem_def, hx, Action.reduction]
        · simp [SymbolSet.contains, SymbolSet.mem_def, hx]
  · rw [if_neg hcomplete]
    simp [hcomplete, claimants]

/-- The items of a state claim a symbol for the reductions by the rules that wait for it. -/
theorem claimants_items {g : Grammar} {node : Node} {x : SymbolId}
    (haccept : ∀ item ∈ node.items.items, AcceptsAtEnd g item) :
  claimants (node.items.items.flatMap (itemClaims g)) x
    = (node.completed g x).map .reduction
  := by
  rw [Node.completed]
  generalize node.items.items = items at haccept ⊢
  induction items with
  | nil => rfl
  | cons item rest ih =>
      rw [List.forall_mem_cons] at haccept
      rw [List.flatMap_cons, claimants_append, claimants_itemClaims haccept.1, ih haccept.2,
        List.filter_cons]
      split
      · rfl
      · rfl

end Row

namespace ParseTable

variable {g : Grammar}

namespace Over

variable {t : ParseTable} {a : Automaton} {q : StateId} {node : Node} {below : List StateId}
  {γ : List SymbolId}

theorem acceptsAtEnd (h : t.Over g a) (hs : a.Spells (q :: below) γ)
    (hq : a.node? q = some node) {item : Item} (hitem : item ∈ node.items.items) :
  Row.AcceptsAtEnd g item
  := by
  intro hrule _ x
  rw [← ItemSet.looks_core_iff hitem]
  constructor
  · intro hx
    obtain ⟨stack, γ', -, hfollows⟩ := h.faithful.origin hq hx
    apply hfollows.eq_endOfInput_of_accept h.proper hrule
  · rintro rfl
    have hviable := h.faithful.viable_of_hasCore hs hq ⟨item, hitem, rfl⟩
    apply h.faithful.looks hs hq (hviable.follows_of_accept h.proper hrule)

/-- No rule is completed twice in a state, as all its complete items end where the rule does. -/
theorem nodup_completed (h : t.Over g a) (hs : a.Spells (q :: below) γ)
    (hq : a.node? q = some node) (x : SymbolId) :
  (node.completed g x).Nodup
  := by
  rw [Node.completed, List.Nodup, List.pairwise_map]
  apply (node.items.ascending.filter _).imp_of_mem
  intro item other hitem hother hlt hrule
  rw [List.mem_filter] at hitem hother
  have hclaim : ∀ item ∈ node.items.items,
      (item.isComplete g && item.lookaheads.contains x) = true →
      (x, Action.reduction item.core.rule) ∈ Row.itemClaims g item := by
    intro item hitem hwaits
    rw [← Row.mem_claimants, Row.claimants_itemClaims (h.acceptsAtEnd hs hq hitem), if_pos hwaits]
    apply List.mem_singleton_self
  have hcore := h.core_eq_of_mem_itemClaims hs hq hitem.1 hother.1
    (hclaim item hitem.1 hitem.2) (hrule ▸ hclaim other hother.1 hother.2)
  rw [hcore] at hlt
  apply Core.lt_irrefl _ hlt

/-- On a terminal a state does what its edge and its complete items compete for. -/
theorem action?_eq_compete (h : t.Over g a) (hs : a.Spells (q :: below) γ)
    (hq : a.node? q = some node) {x : SymbolId} (hx : g.isTerminal x = true) :
  t.action? q x = Action.compete (node.edges.get? x).toList (node.completed g x)
  := by
  have hitems := Row.claimants_items (x := x) fun item hitem => h.acceptsAtEnd hs hq hitem
  rw [h.action?_eq hq, Row.claims, Row.claimants_append, Row.claimants_edges, hitems, if_pos hx]
  apply contest_eq_compete _ (h.nodup_completed hs hq x)
  cases node.edges.get? x with
  | none => apply List.nodup_nil
  | some target => apply List.nodup_singleton

/-- Accepting is among what a state can do where its accepting item is complete, at the end of
input. -/
theorem accept_mem_completed_iff (h : t.Over g a) (hs : a.Spells (q :: below) γ)
    (hq : a.node? q = some node) {x : SymbolId} :
  .accept ∈ node.completed g x
    ↔ x = endOfInputId
      ∧ ∃ item ∈ node.items.items, item.core.rule = .accept ∧ item.core.Complete g
  := by
  rw [Node.mem_completed]
  constructor
  · rintro ⟨item, hitem, hcomplete, hx, hrule⟩
    exact ⟨(h.acceptsAtEnd hs hq hitem hrule hcomplete x).mp hx, item, hitem, hrule, hcomplete⟩
  · rintro ⟨hx, item, hitem, hrule, hcomplete⟩
    exact ⟨item, hitem, hcomplete, (h.acceptsAtEnd hs hq hitem hrule hcomplete x).mpr hx, hrule⟩

end Over

/-! ### Tables over both automata -/

/-- All states of the automata that tables are built over can be reached. -/
theorem exists_spells_of_built (hg : g.Proper) {a : Automaton}
    (ha : a = .canonical g ∨ (Automaton.canonical g).merged = .ok a) :
  a.Faithful g ∧ ∀ {q node}, a.node? q = some node → ∃ below γ, a.Spells (q :: below) γ
  := by
  have hdrawn := Automaton.canonical_drawn hg
  rcases ha with rfl | ha
  · use hdrawn.faithful hg
    intro q node hq
    apply hdrawn.exists_spells hq
  · obtain ⟨m, cls, hm, hmerges⟩ := Automaton.exists_merged hdrawn.nodes_ne
    rw [ha] at hm
    obtain rfl := Except.ok.inj hm
    use hmerges.faithful hg hdrawn
    intro q node hq
    apply hmerges.exists_spells_top hg hdrawn hq

/-- The table of an automaton of a language, merged or not, has in the place of a state and a
nonterminal the goto along the edge, if there is one.  In that of a state and a terminal it has
what the shift along the edge and the reductions by the rules of the complete items with that
lookahead compete for, no rule being listed twice; accepting is one of them exactly at the end of
input, when the accepting item is complete.  So on nonterminals there are only gotos, the end of
input alone is accepted, and the table is conflicted exactly if at least two compete in some
place. -/
theorem holds_competing_actions {V E : Type} {language : Language V E} (hl : language.Definable)
    (hg : Grammar.ofLanguage language = .ok g) {a : Automaton}
    (ha : a = .canonical g ∨ (Automaton.canonical g).merged = .ok a) {kind : TableKind}
    (hkind : kind ≠ .conflicted) :
  (∀ q node, a.node? q = some node → ∀ x,
      (g.isNonterminal x = true →
        (ofAutomaton g a kind).action? q x = (a.target? q x).map .goto)
      ∧ (g.isTerminal x = true →
        (ofAutomaton g a kind).action? q x
          = Action.compete (a.target? q x).toList (node.completed g x))
      ∧ (node.completed g x).Nodup
      ∧ (.accept ∈ node.completed g x ↔ x = endOfInputId
        ∧ ∃ item ∈ node.items.items, item.core.rule = .accept ∧ item.isComplete g = true))
    ∧ (∀ q x action, (ofAutomaton g a kind).action? q x = some action →
      (g.isNonterminal x = true → ∃ target, action = .goto target)
      ∧ (action = .accept → x = endOfInputId))
    ∧ ((ofAutomaton g a kind).kind = .conflicted
      ↔ ∃ q node x, a.node? q = some node ∧ g.isTerminal x = true
        ∧ 2 ≤ (a.target? q x).toList.length + (node.completed g x).length)
  := by
  have hproper := (Grammar.encodes_of_ofLanguage hg).proper hl
  obtain ⟨hfaithful, hspells⟩ := exists_spells_of_built hproper ha
  have h : (ofAutomaton g a kind).Over g a := ofAutomaton_over hproper hfaithful
  have hgoto : ∀ {q node x}, a.node? q = some node → g.isNonterminal x = true →
      (ofAutomaton g a kind).action? q x = (a.target? q x).map .goto := by
    intro q node x hq hx
    apply h.action?_eq_goto hq
    rw [Grammar.isTerminal_eq_not, hx]
    rfl
  have hcompete : ∀ {q node x}, a.node? q = some node → g.isTerminal x = true →
      (ofAutomaton g a kind).action? q x
        = Action.compete (a.target? q x).toList (node.completed g x) := by
    intro q node x hq hx
    obtain ⟨below, γ, hs⟩ := hspells hq
    rw [Automaton.target?_of_node hq]
    apply h.action?_eq_compete hs hq hx
  constructor
  · intro q node hq x
    obtain ⟨below, γ, hs⟩ := hspells hq
    use hgoto hq, hcompete hq, h.nodup_completed hs hq x
    simp only [Row.isComplete_iff]
    apply h.accept_mem_completed_iff hs hq
  constructor
  · intro q x action haction
    obtain ⟨node, hq⟩ := h.exists_node haction
    constructor
    · intro hx
      rw [hgoto hq hx, Option.map_eq_some_iff] at haction
      obtain ⟨target, -, rfl⟩ := haction
      use target
    · rintro rfl
      obtain ⟨dot, node, hx, -⟩ := h.hasCore_of_accept haction
      apply hx
  · rw [kind_ofAutomaton_iff h hkind]
    constructor
    · rintro ⟨q, x, shifts, reduces, haction⟩
      obtain ⟨node, hq⟩ := h.exists_node haction
      cases hx : g.isTerminal x with
      | true =>
          use q, node, x, hq, hx
          rw [hcompete hq hx] at haction
          apply Action.exists_compete_eq_conflict_iff.mp ⟨shifts, reduces, haction⟩
      | false =>
          rw [Grammar.isTerminal_eq_not, Bool.not_eq_false'] at hx
          rw [hgoto hq hx, Option.map_eq_some_iff] at haction
          obtain ⟨target, -, heq⟩ := haction
          cases heq
    · rintro ⟨q, node, x, hq, hx, hlength⟩
      obtain ⟨shifts, reduces, hconflict⟩ := Action.exists_compete_eq_conflict_iff.mpr hlength
      use q, x, shifts, reduces
      rw [hcompete hq hx, hconflict]

/-- In the merged automaton of the crossed language, the two rules for `e` compete for the symbols
behind it. -/
theorem holds_competing_actions_crossed :
  ∃ m node, (Automaton.canonical .crossed).merged = .ok m ∧ m.node? 6 = some node
    ∧ node.completed .crossed 5 = [.user 4, .user 5]
    ∧ (ofAutomaton .crossed m .merged).action? 6 5
      = Action.compete (m.target? 6 5).toList (node.completed .crossed 5)
    ∧ (ofAutomaton .crossed m .merged).kind = .conflicted
  := by
  have hstate : ∃ m ∈ (Automaton.canonical .crossed).merged.toOption, ∃ node ∈ m.node? 6,
      node.completed .crossed 5 = [.user 4, .user 5] := by
    decide +kernel
  obtain ⟨m, hm, -⟩ := Automaton.exists_merged_canonical
    ((Grammar.encodes_of_ofLanguage Grammar.ofLanguage_crossed).proper Language.crossed_definable)
  rw [hm] at hstate
  obtain ⟨a, ha, node, hq, hcompleted⟩ := hstate
  cases ha
  have hkind : TableKind.merged ≠ .conflicted := nofun
  obtain ⟨hstates, -, hconflicted⟩ := holds_competing_actions Language.crossed_definable
    Grammar.ofLanguage_crossed (.inr hm) hkind
  obtain ⟨-, hcompete, -⟩ := hstates 6 node hq 5
  have hterminal : Grammar.crossed.isTerminal 5 = true := by decide +kernel
  use m, node, hm, hq, hcompleted, hcompete hterminal
  apply hconflicted.mpr ⟨6, node, 5, hq, hterminal, _⟩
  rw [hcompleted]
  apply Nat.le_add_left

end ParseTable

end ShiftReduce
