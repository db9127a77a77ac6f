import Mathlib.Algebra.BigOperators.Fin
import ShiftReduce.Proofs.Automaton.Renumbering
import ShiftReduce.Proofs.Table.Driving

/-!
# Renumbering tables

The states of automata that differ only in numbers make the same claims, under the other numbers.
So their tables have the same actions, and conflicts in the same places, although the actions that
compete there may be listed in another order.  The tables have equally many states and conflicts
and are of the same kind, and so the default table is the merged one for both grammars or the
canonical one for both (`ParseTable.generate_renumbered`).
-/

namespace ShiftReduce

variable {f : Renumbering} {states : Equiv.Perm StateId}

/-! ### Actions -/

namespace Action

/-- The second action is the first one under the other numbers. -/
inductive Renumbers (f : Renumbering) (states : Equiv.Perm StateId) : Action → Action → Prop where
  | shift (target : StateId) : Renumbers f states (.shift target) (.shift (states target))
  | goto (target : StateId) : Renumbers f states (.goto target) (.goto (states target))
  | reduce (id : RuleId) : Renumbers f states (.reduce id) (.reduce (f.ruleId id))
  | accept : Renumbers f states .accept .accept

/-- Different actions stay different. -/
theorem Renumbers.injective {b₁ b₂ b' : Action} (h₁ : b₁.Renumbers f states b')
    (h₂ : b₂.Renumbers f states b') :
  b₁ = b₂
  := by
  cases h₁ with
  | shift target =>
      generalize htarget : states target = target' at h₂
      cases h₂ with
      | shift target₂ => rw [states.injective htarget]
  | goto target =>
      generalize htarget : states target = target' at h₂
      cases h₂ with
      | goto target₂ => rw [states.injective htarget]
  | reduce id =>
      generalize hid : f.ruleId id = id' at h₂
      cases h₂ with
      | reduce id₂ => rw [f.ruleId_injective hid]
  | accept =>
      cases h₂ with
      | accept => rfl

/-- What two tables have in the same place: the same action, a conflict in both, or nothing. -/
inductive Corresponds (f : Renumbering) (states : Equiv.Perm StateId) :
    Option Action → Option Action → Prop where
  | action {b b' : Action} (h : b.Renumbers f states b') : Corresponds f states (some b) (some b')
  | conflict (shifts shifts' : List StateId) (reduces reduces' : List RuleId) :
      Corresponds f states (some (.conflict shifts reduces)) (some (.conflict shifts' reduces'))
  | none : Corresponds f states none none

end Action

namespace ParseTable

/-! ### Counting conflicts -/

/-- The conflicts are counted row by row. -/
theorem conflictCount_eq_sum (t : ParseTable) :
  t.conflictCount = ∑ q ∈ Finset.range t.stateCount, (t.row q).conflicts.length
  := by
  rw [conflictCount, countConflicts, List.length_flatMap, Finset.sum_range,
    ← Fin.sum_univ_fun_getElem]
  apply Finset.sum_congr rfl
  intro q _
  rw [row, Array.getElem?_eq_getElem q.isLt, Option.getD_some]
  rfl

/-- A row has a conflict in the place of a symbol if actions compete there. -/
theorem mem_conflicts_row {t : ParseTable} {q : StateId} {i : SymbolId} :
  i ∈ (t.row q).conflicts.map Prod.fst ↔ t.Clashes q i
  := by
  rw [List.mem_map]
  constructor
  · rintro ⟨⟨i, b⟩, hmem, rfl⟩
    obtain ⟨hentry, hconflict⟩ := List.mem_filter.mp hmem
    cases b with
    | conflict shifts reduces => exact ⟨shifts, reduces, OrderedMap.get?_eq_some_iff.mpr hentry⟩
    | _ => cases hconflict
  · rintro ⟨shifts, reduces, haction⟩
    exact ⟨(i, _), List.mem_filter.mpr ⟨OrderedMap.get?_eq_some_iff.mp haction, rfl⟩, rfl⟩

theorem nodup_conflicts_row (t : ParseTable) (q : StateId) :
  ((t.row q).conflicts.map Prod.fst).Nodup
  := by
  apply List.Nodup.sublist _ (t.row q).distinct
  apply List.filter_sublist.map

/-! ### Tables over automata that differ in numbers -/

namespace Over

variable {t t' : ParseTable} {g g' : Grammar} {a a' : Automaton} {q : StateId} {i : SymbolId}

theorem stateCount_eq (h : t.Over g a) :
  t.stateCount = a.size
  := by
  rw [stateCount, h.rows, rowsOf, Array.size_map]
  rfl

/-- A state makes the claims that its match makes. -/
theorem exists_renumbered_claim (ha : Automaton.Renumbered f states g g' a a')
    {node node' : Node} (hq : a.node? q = some node) (hq' : a'.node? (states q) = some node')
    {b : Action} (hb : (i, b) ∈ Row.claims g node) :
  ∃ b', b.Renumbers f states b' ∧ (f.symbol i, b') ∈ Row.claims g' node'
  := by
  have hcomplete : ∀ {c : Core}, c.Complete g → (f.core c).Complete g' := by
    rintro c ⟨⟨r, hr⟩, hafter⟩
    refine ⟨⟨_, ha.grammar.rule?_of_rule? hr⟩, ?_⟩
    rw [ha.grammar.after_eq, hafter, List.map_nil]
  rcases Row.mem_claims.mp hb with ⟨target, hedge, rfl⟩ | ⟨dot, hcore, hread, rfl, rfl⟩
    | ⟨index, dot, hlook, hread, rfl⟩
  · have hedge' := ha.edge hq hq' hedge
    refine ⟨_, ?_, Row.mem_claims.mpr (.inl ⟨_, hedge', rfl⟩)⟩
    rw [ha.grammar.isTerminal_eq]
    split
    · apply Action.Renumbers.shift
    · apply Action.Renumbers.goto
  · have hcore' := ha.hasCore hq hq' hcore
    use .accept, .accept
    exact Row.mem_claims.mpr
      (.inr (.inl ⟨dot, hcore', hcomplete hread, ha.grammar.endOfInput, rfl⟩))
  · have hlook' := ha.looks hq hq' hlook
    use .reduce (f.ruleId (.user index)), .reduce _
    exact Row.mem_claims.mpr (.inr (.inr ⟨_, dot, hlook', hcomplete hread, rfl⟩))

variable (h : t.Over g a) (h' : t'.Over g' a') (ha : Automaton.Renumbered f states g g' a a')

include h h' ha

/-- Where actions compete they do so in the other table too. -/
theorem clashes_of_renumbered (hclash : t.Clashes q i) :
  t'.Clashes (states q) (f.symbol i)
  := by
  obtain ⟨_, _, haction⟩ := id hclash
  obtain ⟨node, hq⟩ := h.exists_node haction
  obtain ⟨node', hq'⟩ := ha.exists_node hq
  obtain ⟨_, _, _, hs, -⟩ := ha.meet (Automaton.lt_size_of_node? hq)
  -- Actions compete where the claims differ, and different claims have different matches.
  obtain ⟨b₁, b₂, hne, hb₁, hb₂⟩ := h.exists_claims_of_clashes hs hq hclash
  obtain ⟨b₁', hrenumbers₁, hb₁'⟩ := exists_renumbered_claim ha hq hq' hb₁
  obtain ⟨b₂', hrenumbers₂, hb₂'⟩ := exists_renumbered_claim ha hq hq' hb₂
  rcases h'.action?_of_claim hq' hb₁' with haction₁ | hclash'
  · rcases h'.action?_of_claim hq' hb₂' with haction₂ | hclash'
    · rw [haction₁] at haction₂
      cases haction₂
      cases hne (hrenumbers₁.injective hrenumbers₂)
    · apply hclash'
  · apply hclash'

theorem clashes_iff_of_renumbered :
  t'.Clashes (states q) (f.symbol i) ↔ t.Clashes q i
  := by
  constructor
  · intro hclash
    have hback := h'.clashes_of_renumbered h ha.symm hclash
    rwa [Equiv.symm_apply_apply, f.symm_symbol_symbol] at hback
  · apply h.clashes_of_renumbered h' ha

/-- An action that is no conflict is that of the other table. -/
theorem exists_renumbered_action {b : Action} (hb : t.action? q i = some b)
    (hconflict : b.isConflict = false) :
  ∃ b', b.Renumbers f states b' ∧ t'.action? (states q) (f.symbol i) = some b'
  := by
  obtain ⟨node, hq, hclaim⟩ := h.claim_of_action? hb hconflict
  obtain ⟨node', hq'⟩ := ha.exists_node hq
  obtain ⟨b', hrenumbers, hclaim'⟩ := exists_renumbered_claim ha hq hq' hclaim
  rcases h'.action?_of_claim hq' hclaim' with haction' | hclash'
  · exact ⟨b', hrenumbers, haction'⟩
  · obtain ⟨shifts, reduces, haction⟩ := (h.clashes_iff_of_renumbered h' ha).mp hclash'
    rw [hb] at haction
    cases haction
    cases hconflict

theorem corresponds_of_action {b : Action} (hb : t.action? q i = some b) :
  Action.Corresponds f states (some b) (t'.action? (states q) (f.symbol i))
  := by
  cases hconflict : b.isConflict with
  | true =>
      cases b with
      | conflict shifts reduces =>
          obtain ⟨_, _, haction'⟩ := h.clashes_of_renumbered h' ha ⟨_, _, hb⟩
          rw [haction']
          apply Action.Corresponds.conflict
      | _ => cases hconflict
  | false =>
      obtain ⟨b', hrenumbers, haction'⟩ := h.exists_renumbered_action h' ha hb hconflict
      rw [haction']
      apply Action.Corresponds.action hrenumbers

/-- In matched places the tables have the same action, a conflict or nothing. -/
theorem action?_corresponds (q : StateId) (i : SymbolId) :
  Action.Corresponds f states (t.action? q i) (t'.action? (states q) (f.symbol i))
  := by
  cases hb : t.action? q i with
  | some b => apply h.corresponds_of_action h' ha hb
  | none =>
      cases hb' : t'.action? (states q) (f.symbol i) with
      | none => apply Action.Corresponds.none
      | some b' =>
          have hback := h'.corresponds_of_action h ha.symm hb'
          rw [Equiv.symm_apply_apply, f.symm_symbol_symbol, hb] at hback
          cases hback

/-- The tables have equally many conflicts. -/
theorem conflictCount_eq :
  t'.conflictCount = t.conflictCount
  := by
  have hrow : ∀ q, (t.row q).conflicts.length = (t'.row (states q)).conflicts.length := by
    intro q
    -- A row has at most one conflict for a symbol, so it is enough to match the symbols.
    have hperm : (((t.row q).conflicts.map Prod.fst).map f.symbol).Perm
        ((t'.row (states q)).conflicts.map Prod.fst) := by
      rw [List.perm_ext_iff_of_nodup ((nodup_conflicts_row t q).map f.symbol.injective)
        (nodup_conflicts_row t' (states q))]
      intro i
      obtain ⟨i, rfl⟩ := f.symbol.surjective i
      rw [List.mem_map_of_injective f.symbol.injective, mem_conflicts_row, mem_conflicts_row,
        h.clashes_iff_of_renumbered h' ha]
    simpa using hperm.length_eq
  rw [conflictCount_eq_sum, conflictCount_eq_sum]
  symm
  apply Finset.sum_equiv states
  · intro q
    rw [Finset.mem_range, Finset.mem_range, h.stateCount_eq, h'.stateCount_eq, ha.lt_iff]
  · intro q _
    apply hrow

end Over

/-- The second table has the states and the actions of the first one under other numbers. -/
structure Renumbered (f : Renumbering) (states : Equiv.Perm StateId) (t t' : ParseTable) :
    Prop where
  kind : t'.kind = t.kind
  stateCount : t'.stateCount = t.stateCount
  conflictCount : t'.conflictCount = t.conflictCount
  start : states startState = startState
  action : ∀ q i, Action.Corresponds f states (t.action? q i) (t'.action? (states q) (f.symbol i))
  reduction : ∀ index, t'.reductions[f.place index]?
    = t.reductions[index]?.map fun shape => ⟨f.symbol shape.lhs, shape.length⟩

variable {g g' : Grammar} {a a' : Automaton}

theorem ofAutomaton_renumbered (hg : g.Proper) (hg' : g'.Proper) (hsize : a'.size = a.size)
    (ha : Automaton.Renumbered f states g g' a a') (kind : TableKind) :
  Renumbered f states (ofAutomaton g a kind) (ofAutomaton g' a' kind)
  := by
  have h : (ofAutomaton g a kind).Over g a := ofAutomaton_over hg ha.faithful
  have h' : (ofAutomaton g' a' kind).Over g' a' := ofAutomaton_over hg' ha.faithful'
  have hcount := h.conflictCount_eq h' ha
  constructor
  · change (if countConflicts (rowsOf g' a') > 0 then _ else kind)
      = if countConflicts (rowsOf g a) > 0 then _ else kind
    rw [show countConflicts (rowsOf g' a') = countConflicts (rowsOf g a) from hcount]
  · rw [h.stateCount_eq, h'.stateCount_eq, hsize]
  · apply hcount
  · apply ha.start_eq
  · apply h.action?_corresponds h' ha
  · intro index
    rw [h.reductions, h'.reductions, Array.getElem?_map, Array.getElem?_map, ha.grammar.rules]
    cases g.rules[index]? with
    | none => rfl
    | some r => simp [Renumbering.rule]

/-- The tables of grammars that differ only in numbers differ only in numbers. -/
theorem generate_renumbered (h : g.Renumbered f g') (hg : g.Proper) (hg' : g'.Proper)
    (strategy : Strategy) :
  ∃ t t' states, generate g strategy = .ok t ∧ generate g' strategy = .ok t'
    ∧ Renumbered f states t t'
  := by
  obtain ⟨hsize, states, hcanonical⟩ := Automaton.canonical_renumbered h hg hg'
  have hcanonical := ofAutomaton_renumbered hg hg' hsize hcanonical .canonical
  cases strategy with
  | canonicalOnly => exact ⟨_, _, states, rfl, rfl, hcanonical⟩
  | mergedFirst =>
      obtain ⟨m, m', hm, hm', hsize', states', hmerged⟩ := Automaton.merged_renumbered h hg hg'
      have hmerged := ofAutomaton_renumbered hg hg' hsize' hmerged .merged
      rw [generate_of_merged hm, generate_of_merged hm', hmerged.kind]
      by_cases hkind : (ofAutomaton g m .merged).kind = .conflicted
      · rw [if_pos hkind, if_pos hkind]
        exact ⟨_, _, states, rfl, rfl, hcanonical⟩
      · rw [if_neg hkind, if_neg hkind]
        exact ⟨_, _, states', rfl, rfl, hmerged⟩

end ParseTable

end ShiftReduce
