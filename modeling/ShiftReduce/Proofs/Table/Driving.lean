import Mathlib.Data.List.Nodup
import ShiftReduce.Proofs.Automaton.Merged
import ShiftReduce.Proofs.Table.Actions

/-!
# Tables over faithful automata

Where a stack of states spells a prefix, the table has an action for whatever is viable after
the prefix, or a conflict: a shift over a terminal that may be read next, and a reduction by
each rule that has been read, on the lookaheads that follow it.  Gotos have no competitors.
In the other direction, an action of the table comes from an edge or from an item that has
been read.  Every table that is generated for a grammar is of this kind.
-/

namespace ShiftReduce

/-- A complete core that is viable has its dot right after the last symbol of its rule. -/
theorem Viable.dot_eq_length {g : Grammar} {γ : List SymbolId} {c : Core} {r : Rule}
    (h : Viable g γ c) (hr : g.rule? c.rule = some r) (hc : c.Complete g) :
  c.dot = r.rhs.length
  := by
  obtain ⟨δ, r', ⟨hr', hle, -⟩, -⟩ := h.unread
  rw [hr] at hr'
  cases hr'
  obtain ⟨-, hafter⟩ := hc
  rw [Core.after, hr, List.drop_eq_nil_iff] at hafter
  apply Nat.le_antisymm hle hafter

namespace ParseTable

/-- In a state several actions compete for a symbol. -/
def Clashes (t : ParseTable) (q : StateId) (i : SymbolId) : Prop :=
  ∃ shifts reduces, t.action? q i = some (.conflict shifts reduces)

/-- A table has the rows of a faithful automaton of a proper grammar. -/
structure Over (t : ParseTable) (g : Grammar) (a : Automaton) : Prop where
  proper : g.Proper
  faithful : a.Faithful g
  rows : t.rows = rowsOf g a
  symbols : t.symbols = g.symbols
  reductions : t.reductions = g.rules.map fun r => ⟨r.lhs, r.rhs.length⟩
  kind : t.kind ≠ .conflicted → countConflicts t.rows = 0

namespace Over

variable {t : ParseTable} {g : Grammar} {a : Automaton}

/-! ### Actions and claims -/

/-- The action of a state is what its claims make. -/
theorem action?_eq (h : t.Over g a) {q : StateId} {node : Node} (hq : a.node? q = some node)
    (i : SymbolId) :
  t.action? q i = contest none (Row.claimants (Row.claims g node) i)
  := by
  rw [action?, row, h.rows, rowsOf, Array.getElem?_map]
  rw [Automaton.node?] at hq
  rw [hq]
  apply Row.get?_ofNode

/-- There are actions only in states. -/
theorem exists_node (h : t.Over g a) {q : StateId} {i : SymbolId} {b : Action}
    (hb : t.action? q i = some b) :
  ∃ node, a.node? q = some node
  := by
  rw [action?, row, h.rows, rowsOf, Array.getElem?_map] at hb
  cases hq : a.nodes[q]? with
  | none =>
      rw [hq] at hb
      cases hb
  | some node => exact ⟨node, hq⟩

/-- A claim is granted, or it is part of a conflict. -/
theorem action?_of_claim (h : t.Over g a) {q : StateId} {node : Node} {i : SymbolId}
    {b : Action} (hq : a.node? q = some node) (hb : (i, b) ∈ Row.claims g node) :
  t.action? q i = some b ∨ t.Clashes q i
  := by
  obtain ⟨action, haction, hcases⟩ := contest_none_of_mem (Row.mem_claimants.mpr hb)
  rw [← h.action?_eq hq] at haction
  rcases hcases with rfl | hconflict
  · apply Or.inl haction
  · right
    cases action with
    | conflict shifts reduces => exact ⟨shifts, reduces, haction⟩
    | _ => cases hconflict

/-- An action that is no conflict has been claimed. -/
theorem claim_of_action? (h : t.Over g a) {q : StateId} {i : SymbolId} {b : Action}
    (hb : t.action? q i = some b) (hconflict : b.isConflict = false) :
  ∃ node, a.node? q = some node ∧ (i, b) ∈ Row.claims g node
  := by
  obtain ⟨node, hq⟩ := h.exists_node hb
  rw [h.action?_eq hq] at hb
  exact ⟨node, hq, Row.mem_claimants.mp (mem_of_contest_none hb hconflict)⟩

/-- Lookaheads are terminals. -/
theorem isTerminal_of_looks (h : t.Over g a) {q : StateId} {node : Node} {c : Core}
    {x : SymbolId} (hq : a.node? q = some node) (hx : node.items.Looks c x) :
  g.isTerminal x = true
  := by
  obtain ⟨stack, γ, _, hfollows⟩ := h.faithful.origin hq hx
  apply (hfollows.isTerminal h.proper).2

theorem isTerminal_endOfInput (h : t.Over g a) :
  g.isTerminal endOfInputId = true
  := (Follows.start.isTerminal h.proper).2

/-- Over a nonterminal a state moves along its edge, and nothing competes with this. -/
theorem action?_eq_goto (h : t.Over g a) {q : StateId} {node : Node} (hq : a.node? q = some node)
    {i : SymbolId} (hi : g.isTerminal i = false) :
  t.action? q i = (a.target? q i).map .goto
  := by
  have hitems : Row.claimants (node.items.items.flatMap (Row.itemClaims g)) i = [] := by
    rw [List.eq_nil_iff_forall_not_mem]
    intro b hb
    rw [Row.mem_claimants, List.mem_flatMap] at hb
    obtain ⟨item, hitem, hb⟩ := hb
    rcases Row.mem_itemClaims.mp hb with ⟨_, ⟨_, rfl, _⟩ | ⟨_, _, hmem, _⟩⟩
    · rw [h.isTerminal_endOfInput] at hi
      cases hi
    · rw [h.isTerminal_of_looks hq ⟨item, hitem, rfl, hmem⟩] at hi
      cases hi
  rw [h.action?_eq hq, Row.claims, Row.claimants_append, Row.claimants_edges, hitems, hi,
    Automaton.target?_of_node hq]
  cases node.edges.get? i with
  | none => rfl
  | some target => rfl

/-- The table knows the shapes of the rules. -/
theorem shape_of_rule (h : t.Over g a) {index : Nat} {r : Rule}
    (hr : g.rule? (.user index) = some r) :
  t.reductions[index]? = some ⟨r.lhs, r.rhs.length⟩
  := by
  rw [Grammar.rule?_user] at hr
  rw [h.reductions, Array.getElem?_map, hr]
  rfl

/-! ### What a table does where a prefix is spelled -/

/-- A terminal that may be read next is shifted. -/
theorem shift (h : t.Over g a) {q : StateId} {stack : List StateId} {γ : List SymbolId}
    (hs : a.Spells (q :: stack) γ) {c : Core} {i : SymbolId} {rest : List SymbolId}
    (hc : Viable g γ c) (hafter : c.after g = i :: rest) (hi : g.isTerminal i = true) :
  ∃ target, a.target? q i = some target
    ∧ (t.action? q i = some (.shift target) ∨ t.Clashes q i)
  := by
  obtain ⟨target, ht⟩ := (h.faithful.exists_target_iff hs i).mpr ⟨c, rest, hc, hafter⟩
  use target, ht
  obtain ⟨node, hq, hedge⟩ := Option.bind_eq_some_iff.mp ht
  apply h.action?_of_claim hq
  apply Row.mem_claims.mpr (.inl ⟨target, hedge, _⟩)
  rw [if_pos hi]

/-- Over a nonterminal that may come next there is a goto, and nothing else. -/
theorem goto (h : t.Over g a) {q : StateId} {stack : List StateId} {γ : List SymbolId}
    (hs : a.Spells (q :: stack) γ) {c : Core} {i : SymbolId} {rest : List SymbolId}
    (hc : Viable g γ c) (hafter : c.after g = i :: rest) (hi : g.isTerminal i = false) :
  ∃ target, a.target? q i = some target ∧ t.action? q i = some (.goto target)
  := by
  obtain ⟨target, ht⟩ := (h.faithful.exists_target_iff hs i).mpr ⟨c, rest, hc, hafter⟩
  use target, ht
  obtain ⟨node, hq, -⟩ := Option.bind_eq_some_iff.mp ht
  rw [h.action?_eq_goto hq hi, ht]
  rfl

/-- A rule that has been read is reduced by on what follows it. -/
theorem reduce (h : t.Over g a) {q : StateId} {stack : List StateId} {γ : List SymbolId}
    (hs : a.Spells (q :: stack) γ) {index dot : Nat} {x : SymbolId}
    (hx : Follows g γ ⟨.user index, dot⟩ x) (hc : (Core.mk (.user index) dot).Complete g) :
  t.action? q x = some (.reduce (.user index)) ∨ t.Clashes q x
  := by
  obtain ⟨node, hq, -⟩ := h.faithful.hasCore hs
  apply h.action?_of_claim hq
  apply Row.mem_claims.mpr
  apply Or.inr (.inr ⟨index, dot, h.faithful.looks hs hq hx, hc, rfl⟩)

/-- When the start symbol has been read the end of input is accepted. -/
theorem accept (h : t.Over g a) {q : StateId} {stack : List StateId} {γ : List SymbolId}
    (hs : a.Spells (q :: stack) γ) {dot : Nat} (hv : Viable g γ ⟨.accept, dot⟩)
    (hc : (Core.mk .accept dot).Complete g) :
  t.action? q endOfInputId = some .accept ∨ t.Clashes q endOfInputId
  := by
  obtain ⟨node, hq, hcore⟩ := h.faithful.hasCore hs
  apply h.action?_of_claim hq
  apply Row.mem_claims.mpr
  apply Or.inr (.inl ⟨dot, (hcore _).mpr hv, hc, rfl, rfl⟩)

/-! ### Where actions come from -/

/-- Terminals are shifted along edges. -/
theorem target_of_shift (h : t.Over g a) {q target : StateId} {i : SymbolId}
    (hb : t.action? q i = some (.shift target)) :
  a.target? q i = some target ∧ g.isTerminal i = true
  := by
  obtain ⟨node, hq, hclaim⟩ := h.claim_of_action? hb rfl
  rcases Row.mem_claims.mp hclaim with ⟨target', hedge, heq⟩ | ⟨_, _, _, _, heq⟩ | ⟨_, _, _, _, heq⟩
  · split at heq
    · rename_i hi
      cases heq
      refine ⟨?_, hi⟩
      rw [Automaton.target?, hq]
      apply hedge
    · cases heq
  · cases heq
  · cases heq

/-- The end of input is not shifted. -/
theorem not_shift_endOfInput (h : t.Over g a) (q target : StateId) :
  t.action? q endOfInputId ≠ some (.shift target)
  := by
  intro haction
  obtain ⟨node, hq, hedge⟩ := Option.bind_eq_some_iff.mp (h.target_of_shift haction).1
  obtain ⟨c, rest, -, hafter⟩ := ItemSet.mem_nextSymbols.mp ((h.faithful.edge hq).mp ⟨_, hedge⟩)
  obtain ⟨r, hr, hmem⟩ := Core.mem_rhs_of_mem_after (hafter ▸ List.mem_cons_self)
  cases (h.proper.of_mem_rhs hr hmem).1

/-- Reductions are by rules of the language that have been read, on lookaheads. -/
theorem looks_of_reduce (h : t.Over g a) {q : StateId} {i : SymbolId} {id : RuleId}
    (hb : t.action? q i = some (.reduce id)) :
  ∃ index dot node, id = .user index ∧ a.node? q = some node
    ∧ node.items.Looks ⟨.user index, dot⟩ i ∧ (Core.mk (.user index) dot).Complete g
  := by
  obtain ⟨node, hq, hclaim⟩ := h.claim_of_action? hb rfl
  rcases Row.mem_claims.mp hclaim with ⟨target', hedge, heq⟩ | ⟨_, _, _, _, heq⟩
    | ⟨index, dot, hlook, hcomplete, heq⟩
  · split at heq <;> cases heq
  · cases heq
  · cases heq
    exact ⟨index, dot, node, rfl, hq, hlook, hcomplete⟩

/-- The end of input is accepted when the accepting rule has been read. -/
theorem hasCore_of_accept (h : t.Over g a) {q : StateId} {i : SymbolId}
    (hb : t.action? q i = some .accept) :
  ∃ dot node, i = endOfInputId ∧ a.node? q = some node
    ∧ node.items.HasCore ⟨.accept, dot⟩ ∧ (Core.mk .accept dot).Complete g
  := by
  obtain ⟨node, hq, hclaim⟩ := h.claim_of_action? hb rfl
  rcases Row.mem_claims.mp hclaim with ⟨target', hedge, heq⟩ | ⟨dot, hcore, hcomplete, hi, heq⟩
    | ⟨_, _, _, _, heq⟩
  · split at heq <;> cases heq
  · exact ⟨dot, node, hi, hq, hcore, hcomplete⟩
  · cases heq

/-- The parse is accepted at the end of input, when the start symbol has been read. -/
theorem eq_start_of_accept (h : t.Over g a) {q : StateId} {stack : List StateId}
    {γ : List SymbolId} (hs : a.Spells (q :: stack) γ) {x : SymbolId}
    (hb : t.action? q x = some .accept) :
  x = endOfInputId ∧ γ = [g.start]
  := by
  obtain ⟨dot, node, hx, hq, hcore, hcomplete⟩ := h.hasCore_of_accept hb
  have hc := h.faithful.viable_of_hasCore hs hq hcore
  have hdot : dot = 1 := hc.dot_eq_length Grammar.rule?_accept hcomplete
  subst hdot
  obtain ⟨δ, r, ⟨hr, -, hspelled⟩, hfront⟩ := hc.unread
  cases hr
  obtain rfl := hfront.eq_nil_of_accept h.proper
  exact ⟨hx, hspelled⟩

/-! ### Conflicts -/

/-- A table whose kind is not conflicted has no conflicts. -/
theorem not_clashes (h : t.Over g a) (hkind : t.kind ≠ .conflicted) (q : StateId)
    (i : SymbolId) :
  ¬ t.Clashes q i
  := by
  rintro ⟨shifts, reduces, hb⟩
  have hcount := h.kind hkind
  rw [countConflicts, List.length_eq_zero_iff, List.flatMap_eq_nil_iff] at hcount
  obtain ⟨node, hq⟩ := h.exists_node hb
  have hrow : t.rows[q]? = some (Row.ofNode g node) := by
    rw [h.rows, rowsOf, Array.getElem?_map]
    rw [Automaton.node?] at hq
    rw [hq]
    rfl
  have hnone := hcount _ (Array.mem_toList_iff.mpr (Array.mem_of_getElem? hrow))
  rw [action?, row, hrow, Option.getD_some, OrderedMap.get?_eq_some_iff] at hb
  rw [Row.conflicts, List.filter_eq_nil_iff] at hnone
  apply hnone _ hb
  rfl

/-- Items of a state that claim the same have the same core. -/
theorem core_eq_of_mem_itemClaims (h : t.Over g a) {q : StateId} {node : Node}
    {stack : List StateId} {γ : List SymbolId} (hs : a.Spells (q :: stack) γ)
    (hq : a.node? q = some node) {x y : Item} (hx : x ∈ node.items.items)
    (hy : y ∈ node.items.items) {claim : SymbolId × Action}
    (hclaim : claim ∈ Row.itemClaims g x) (hclaim' : claim ∈ Row.itemClaims g y) :
  x.core = y.core
  := by
  have hviable : ∀ c, node.items.HasCore c → Viable g γ c :=
    fun c => h.faithful.viable_of_hasCore hs hq
  obtain ⟨i, b⟩ := claim
  obtain ⟨hcomplete, hcases⟩ := Row.mem_itemClaims.mp hclaim
  obtain ⟨hcomplete', hcases'⟩ := Row.mem_itemClaims.mp hclaim'
  have hrule : x.core.rule = y.core.rule := by
    rcases hcases with ⟨hrule, -, rfl⟩ | ⟨index, hrule, -, rfl⟩
    · rcases hcases' with ⟨hrule', -, -⟩ | ⟨_, _, -, heq⟩
      · rw [hrule, hrule']
      · cases heq
    · rcases hcases' with ⟨_, -, heq⟩ | ⟨_, hrule', -, heq⟩
      · cases heq
      · cases heq
        rw [hrule, hrule']
  -- complete items of one rule have the dot in the same place
  obtain ⟨r, hr⟩ := hcomplete.1
  have hdot := Viable.dot_eq_length (hviable _ ⟨x, hx, rfl⟩) hr hcomplete
  have hdot' := Viable.dot_eq_length (hviable _ ⟨y, hy, rfl⟩) (hrule ▸ hr) hcomplete'
  cases hxc : x.core
  cases hyc : y.core
  simp_all

/-- The claims of a state are all different. -/
theorem nodup_claims (h : t.Over g a) {q : StateId} {node : Node} {stack : List StateId}
    {γ : List SymbolId} (hs : a.Spells (q :: stack) γ) (hq : a.node? q = some node) :
  (Row.claims g node).Nodup
  := by
  rw [Row.claims, List.nodup_append]
  refine ⟨?_, ?_, ?_⟩
  · apply List.Nodup.of_map Prod.fst
    rw [List.map_map]
    apply node.edges.distinct
  · rw [List.nodup_flatMap]
    constructor
    · intro item _
      apply Row.nodup_itemClaims
    · apply List.Pairwise.imp_of_mem _ node.items.ascending
      intro x y hx hy hlt claim hclaim hclaim'
      rw [h.core_eq_of_mem_itemClaims hs hq hx hy hclaim hclaim'] at hlt
      apply Core.lt_irrefl _ hlt
  · rintro ⟨i, b⟩ hedge ⟨j, b'⟩ hitem heq
    cases heq
    obtain ⟨edge, _, hclaim⟩ := List.mem_map.mp hedge
    obtain ⟨item, _, hmem⟩ := List.mem_flatMap.mp hitem
    obtain ⟨-, hcases⟩ := Row.mem_itemClaims.mp hmem
    simp only [Row.edgeClaim, Prod.mk.injEq] at hclaim
    rcases hcases with ⟨-, -, rfl⟩ | ⟨_, -, -, rfl⟩
    · split at hclaim <;> cases hclaim.2
    · split at hclaim <;> cases hclaim.2

/-- Where actions compete there are two different claims. -/
theorem exists_claims_of_clashes (h : t.Over g a) {q : StateId} {node : Node}
    {stack : List StateId} {γ : List SymbolId} (hs : a.Spells (q :: stack) γ)
    (hq : a.node? q = some node) {i : SymbolId} (hclash : t.Clashes q i) :
  ∃ b b', b ≠ b' ∧ (i, b) ∈ Row.claims g node ∧ (i, b') ∈ Row.claims g node
  := by
  obtain ⟨shifts, reduces, haction⟩ := hclash
  rw [h.action?_eq hq] at haction
  have hnodup : (Row.claimants (Row.claims g node) i).Nodup := by
    apply List.Nodup.map_on _ ((h.nodup_claims hs hq).filter _)
    intro claim hclaim claim' hclaim' heq
    rw [List.mem_filter, decide_eq_true_iff] at hclaim hclaim'
    apply Prod.ext (hclaim.2.trans hclaim'.2.symm) heq
  cases hclaimants : Row.claimants (Row.claims g node) i with
  | nil =>
      rw [hclaimants] at haction
      cases haction
  | cons b rest =>
      cases rest with
      | nil =>
          rw [hclaimants] at haction
          -- a claim itself is never for a conflict
          have hmem := Row.mem_claimants.mp (hclaimants ▸ List.mem_cons_self)
          obtain rfl := Option.some.inj haction
          rcases Row.mem_claims.mp hmem with ⟨_, _, heq⟩ | ⟨_, _, _, _, heq⟩ | ⟨_, _, _, _, heq⟩
          · split at heq <;> cases heq
          · cases heq
          · cases heq
      | cons b' rest =>
          rw [hclaimants, List.nodup_cons] at hnodup
          refine ⟨b, b', fun heq => hnodup.1 (heq ▸ List.mem_cons_self), ?_, ?_⟩
          · apply Row.mem_claimants.mp
            rw [hclaimants]
            apply List.mem_cons_self
          · apply Row.mem_claimants.mp
            rw [hclaimants]
            apply List.mem_cons_of_mem _ List.mem_cons_self

end Over

/-! ### Tables that are generated -/

variable {g : Grammar}

theorem ofAutomaton_over (hg : g.Proper) {a : Automaton} (ha : a.Faithful g)
    {kind : TableKind} :
  (ofAutomaton g a kind).Over g a
  where
  proper := hg
  faithful := ha
  rows := rfl
  symbols := rfl
  reductions := rfl
  kind hkind := by
    apply Nat.eq_zero_of_not_pos
    intro hpos
    apply hkind
    exact if_pos hpos

/-- The canonical table is over the canonical automaton. -/
theorem generate_canonicalOnly (hg : g.Proper) :
  ∃ t, generate g .canonicalOnly = .ok t ∧ t.Over g (Automaton.canonical g)
  := by
  refine ⟨_, rfl, ofAutomaton_over hg ?_⟩
  apply (Automaton.canonical_drawn hg).faithful hg

/-- The default table is that over the merged automaton if it has no conflicts, and else the
canonical one. -/
theorem generate_of_merged {m : Automaton} (hm : (Automaton.canonical g).merged = .ok m) :
  generate g .mergedFirst = .ok (if (ofAutomaton g m .merged).kind = .conflicted
    then ofAutomaton g (Automaton.canonical g) .canonical else ofAutomaton g m .merged)
  := by
  simp only [generate, hm, bind, Except.bind, pure, Except.pure]
  split <;> rfl

/-- The default table is over the merged automaton if its kind says so, and else it is the
canonical table. -/
theorem generate_mergedFirst (hg : g.Proper) :
  ∃ t, generate g .mergedFirst = .ok t
    ∧ ((t.kind = .merged ∧ ∃ m, t.Over g m)
      ∨ t.kind ≠ .merged ∧ generate g .canonicalOnly = .ok t)
  := by
  obtain ⟨m, hm, hfaithful⟩ := Automaton.exists_merged_canonical hg
  have hover : (ofAutomaton g m .merged).Over g m := ofAutomaton_over hg hfaithful
  by_cases hkind : (ofAutomaton g m .merged).kind = .conflicted
  · refine ⟨ofAutomaton g (Automaton.canonical g) .canonical, ?_, .inr ⟨?_, rfl⟩⟩
    · rw [generate_of_merged hm, if_pos hkind]
    · simp only [ofAutomaton]
      split <;> simp
  · refine ⟨ofAutomaton g m .merged, ?_, .inl ⟨?_, m, hover⟩⟩
    · rw [generate_of_merged hm, if_neg hkind]
    · simp only [ofAutomaton] at hkind ⊢
      split
      · rename_i hpos
        rw [if_pos hpos] at hkind
        cases hkind rfl
      · rfl

/-- A table is generated for every proper grammar. -/
theorem exists_generate (hg : g.Proper) (strategy : Strategy) :
  ∃ t, generate g strategy = .ok t
  := by
  cases strategy with
  | canonicalOnly => exact ⟨_, rfl⟩
  | mergedFirst =>
      obtain ⟨t, ht, -⟩ := generate_mergedFirst hg
      exact ⟨t, ht⟩

/-- Every table that is generated is over an exact automaton, or has no conflicts. -/
theorem exists_over_exact_or_clean (hg : g.Proper) {strategy : Strategy} {t : ParseTable}
    (h : generate g strategy = .ok t) :
  ∃ a, t.Over g a ∧ (a.Exact g ∨ ∀ q x, ¬ t.Clashes q x)
  := by
  have hexact : (Automaton.canonical g).Exact g := (Automaton.canonical_drawn hg).exact hg
  obtain ⟨t₁, ht₁, hover₁⟩ := generate_canonicalOnly hg
  cases strategy with
  | canonicalOnly =>
      rw [h] at ht₁
      cases ht₁
      exact ⟨_, hover₁, .inl hexact⟩
  | mergedFirst =>
      obtain ⟨t', ht', hcases⟩ := generate_mergedFirst hg
      rw [h] at ht'
      cases ht'
      rcases hcases with ⟨hkind, m, hover⟩ | ⟨_, hcanonical⟩
      · refine ⟨m, hover, .inr (hover.not_clashes ?_)⟩
        intro hconflicted
        cases hkind.symm.trans hconflicted
      · rw [hcanonical] at ht₁
        cases ht₁
        exact ⟨_, hover₁, .inl hexact⟩

/-- Every table that is generated is over some automaton. -/
theorem exists_over_of_generate (hg : g.Proper) {strategy : Strategy} {t : ParseTable}
    (h : generate g strategy = .ok t) :
  ∃ a, t.Over g a
  := by
  obtain ⟨a, hover, -⟩ := exists_over_exact_or_clean hg h
  exact ⟨a, hover⟩

end ParseTable

end ShiftReduce
