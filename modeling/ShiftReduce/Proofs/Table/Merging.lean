import ShiftReduce.Proofs.Automaton.Quotient
import ShiftReduce.Proofs.Table.Conflicts

/-!
# Conflicts of the merged table

A class claims what its states claim: what one of them claims for a reduction, and what all of
them claim for an edge or for the accepting rule, as these depend on the cores only.  So a
conflict of the canonical table is one of the merged table too.  If the canonical table has no
conflicts, two claims of a class that compete come from different states, and neither is
claimed by all of them: they are reductions.
-/

namespace ShiftReduce

theorem Action.Matches.symm {b b' : Action} (h : b.Matches b') :
  b'.Matches b
  := by
  cases h with
  | shift target target' => apply Matches.shift
  | goto target target' => apply Matches.goto
  | reduce id => apply Matches.reduce
  | accept => apply Matches.accept

/-- An edge is claimed for the same wherever it leads. -/
theorem Action.Matches.edge (terminal : Bool) (target target' : StateId) :
  Matches (if terminal then .shift target else .goto target)
    (if terminal then .shift target' else .goto target')
  := by
  cases terminal with
  | true => apply Matches.shift
  | false => apply Matches.goto

namespace Automaton.Merges

variable {g : Grammar} {a m : Automaton} {cls : StateId → StateId} {q k : StateId}
  {node node' : Node} {x : SymbolId} {b b' : Action}

/-! ### Claims of states and of their classes -/

/-- A class claims what its states claim. -/
theorem exists_claim (hg : g.Proper) (ha : Drawn g a) (h : Merges a m cls)
    (hq : a.node? q = some node) (hk : m.node? (cls q) = some node')
    (hb : (x, b) ∈ Row.claims g node) :
  ∃ b', (x, b') ∈ Row.claims g node' ∧ b.Matches b'
  := by
  obtain ⟨hsame, hlook⟩ := h.includes hq hk
  rcases Row.mem_claims.mp hb with ⟨target, hedge, rfl⟩ | ⟨dot, hcore, hcomplete, rfl, rfl⟩
    | ⟨index, dot, hx, hcomplete, rfl⟩
  · rw [← target?_of_node hq] at hedge
    have hedge' := h.target?_of_target? hg ha hedge
    rw [target?_of_node hk] at hedge'
    exact ⟨_, Row.mem_claims.mpr (.inl ⟨cls target, hedge', rfl⟩), .edge _ _ _⟩
  · have hcore' := (ItemSet.sameCores_iff.mp hsame _).mpr hcore
    exact ⟨_, Row.mem_claims.mpr (.inr (.inl ⟨dot, hcore', hcomplete, rfl, rfl⟩)), .accept⟩
  · exact ⟨_, Row.mem_claims.mpr (.inr (.inr ⟨index, dot, hlook _ _ hx, hcomplete, rfl⟩)),
      .reduce _⟩

/-- What a class claims, but for reductions, is claimed by all its states. -/
theorem exists_claim_of_class (hg : g.Proper) (ha : Drawn g a) (h : Merges a m cls)
    (hq : a.node? q = some node) (hk : m.node? (cls q) = some node')
    (hb' : (x, b') ∈ Row.claims g node') (hreduce : ∀ id, b' ≠ .reduce id) :
  ∃ b, (x, b) ∈ Row.claims g node ∧ b.Matches b'
  := by
  rcases Row.mem_claims.mp hb' with ⟨target', hedge', rfl⟩ | ⟨dot, hcore, hcomplete, rfl, rfl⟩
    | ⟨index, _, _, _, rfl⟩
  · rw [← target?_of_node hk] at hedge'
    obtain ⟨target, hedge, -⟩ := h.exists_target?_of_target? hg ha hq hedge'
    rw [target?_of_node hq] at hedge
    exact ⟨_, Row.mem_claims.mpr (.inl ⟨target, hedge, rfl⟩), .edge _ _ _⟩
  · have hcore' := (ItemSet.sameCores_iff.mp (h.includes hq hk).1 _).mp hcore
    exact ⟨_, Row.mem_claims.mpr (.inr (.inl ⟨dot, hcore', hcomplete, rfl, rfl⟩)), .accept⟩
  · cases hreduce _ rfl

/-- What a class claims is claimed by one of its states. -/
theorem exists_state_claim (hg : g.Proper) (ha : Drawn g a) (h : Merges a m cls)
    (hk : m.node? k = some node') (hb' : (x, b') ∈ Row.claims g node') :
  ∃ q node b, a.node? q = some node ∧ cls q = k ∧ (x, b) ∈ Row.claims g node ∧ b.Matches b'
  := by
  by_cases hreduce : ∀ id, b' ≠ .reduce id
  · obtain ⟨q, node, hq, rfl⟩ := h.member hk
    obtain ⟨b, hb, hmatches⟩ := h.exists_claim_of_class hg ha hq hk hb' hreduce
    exact ⟨q, node, b, hq, rfl, hb, hmatches⟩
  · rcases Row.mem_claims.mp hb' with ⟨target', hedge', rfl⟩ | ⟨_, _, _, _, rfl⟩
      | ⟨index, dot, hx, hcomplete, rfl⟩
    · cases hreduce fun id => by split <;> nofun
    · cases hreduce nofun
    · obtain ⟨q, node, hq, hcls, hx'⟩ := h.looks hk hx
      exact ⟨q, node, _, hq, hcls,
        Row.mem_claims.mpr (.inr (.inr ⟨index, dot, hx', hcomplete, rfl⟩)), .reduce _⟩

end Automaton.Merges

namespace ParseTable

open Automaton (Merges Drawn)

section

variable {g : Grammar} {a m : Automaton} {cls : StateId → StateId} {t t' : ParseTable}
  {q k : StateId} {x : SymbolId}

/-! ### Conflicts of the classes -/

/-- Where the actions of a state compete those of its class compete. -/
theorem Over.clashes_of_clashes (h : t.Over g a) (h' : t'.Over g m) (ha : Drawn g a)
    (hm : Merges a m cls) (hclash : t.Clashes q x) :
  t'.Clashes (cls q) x
  := by
  obtain ⟨shifts, reduces, haction⟩ := hclash
  obtain ⟨node, hq⟩ := h.exists_node haction
  obtain ⟨below, γ, hs⟩ := ha.exists_spells hq
  obtain ⟨node', hk, -⟩ := hm.node hq
  obtain ⟨b₁, b₂, hne, hb₁, hb₂⟩ := h.exists_claims_of_clashes hs hq ⟨_, _, haction⟩
  obtain ⟨b₁', hb₁', hmatches₁⟩ := hm.exists_claim h.proper ha hq hk hb₁
  obtain ⟨b₂', hb₂', hmatches₂⟩ := hm.exists_claim h.proper ha hq hk hb₂
  by_contra hclean
  have haction₁ := (h'.action?_of_claim hk hb₁').resolve_right hclean
  have haction₂ := (h'.action?_of_claim hk hb₂').resolve_right hclean
  rw [haction₁] at haction₂
  cases haction₂
  apply hne (Row.eq_of_matches hb₁ hb₂ hmatches₁ hmatches₂)

/-- If the actions of the states do not compete, what competes with a claim of their class is
a reduction. -/
theorem Over.eq_of_claims (h : t.Over g a) (hclean : ∀ q x, ¬ t.Clashes q x) (ha : Drawn g a)
    (hm : Merges a m cls) {node' : Node} (hk : m.node? k = some node') {b₁ b₂ : Action}
    (hb₁ : (x, b₁) ∈ Row.claims g node') (hb₂ : (x, b₂) ∈ Row.claims g node')
    (hreduce : ∀ id, b₁ ≠ .reduce id) :
  b₁ = b₂
  := by
  obtain ⟨q, node, d₂, hq, rfl, hd₂, hmatches₂⟩ := hm.exists_state_claim h.proper ha hk hb₂
  obtain ⟨d₁, hd₁, hmatches₁⟩ := hm.exists_claim_of_class h.proper ha hq hk hb₁ hreduce
  have haction₁ := (h.action?_of_claim hq hd₁).resolve_right (hclean q x)
  have haction₂ := (h.action?_of_claim hq hd₂).resolve_right (hclean q x)
  rw [haction₁] at haction₂
  cases haction₂
  apply Row.eq_of_matches hb₁ hb₂ hmatches₁.symm hmatches₂.symm

/-- If the actions of the states do not compete, all claims of a class are reductions where two
of them compete. -/
theorem Over.eq_reduce_of_claims (h : t.Over g a) (hclean : ∀ q x, ¬ t.Clashes q x)
    (ha : Drawn g a) (hm : Merges a m cls) {node' : Node} (hk : m.node? k = some node')
    {b b₁ b₂ : Action} (hb₁ : (x, b₁) ∈ Row.claims g node') (hb₂ : (x, b₂) ∈ Row.claims g node')
    (hne : b₁ ≠ b₂) (hb : (x, b) ∈ Row.claims g node') :
  ∃ index, b = .reduce (.user index)
  := by
  have hid : ∃ id, b = .reduce id := by
    -- another claim than a reduction would be both of those that compete
    by_contra hother
    push Not at hother
    apply hne
    rw [← h.eq_of_claims hclean ha hm hk hb hb₁ hother]
    apply h.eq_of_claims hclean ha hm hk hb hb₂ hother
  obtain ⟨id, rfl⟩ := hid
  rcases Row.mem_claims.mp hb with ⟨_, _, heq⟩ | ⟨_, _, _, _, heq⟩ | ⟨index, _, _, _, heq⟩
  · split at heq <;> cases heq
  · cases heq
  · exact ⟨index, heq⟩

/-- If the actions of the states do not compete, those of the classes compete only for
reductions by rules of the language. -/
theorem Over.reduce_of_clash (h : t.Over g a) (hclean : ∀ q x, ¬ t.Clashes q x)
    (h' : t'.Over g m) (ha : Drawn g a) (hm : Merges a m cls) {shifts : List StateId}
    {reduces : List RuleId} (haction : t'.action? k x = some (.conflict shifts reduces)) :
  shifts = [] ∧ .accept ∉ reduces ∧ ∃ id ∈ reduces, ∃ id' ∈ reduces, id ≠ id'
  := by
  obtain ⟨node', hk⟩ := h'.exists_node haction
  obtain ⟨q, node, hq, hcls⟩ := hm.member hk
  obtain ⟨below, γ, hs⟩ := ha.exists_spells hq
  have hs' := hm.spells_map h.proper ha hs
  rw [List.map_cons, hcls] at hs'
  obtain ⟨b₁, b₂, hne, hb₁, hb₂⟩ := h'.exists_claims_of_clashes hs' hk ⟨_, _, haction⟩
  have hreduce : ∀ {b}, (x, b) ∈ Row.claims g node' → ∃ index, b = .reduce (.user index) :=
    h.eq_reduce_of_claims hclean ha hm hk hb₁ hb₂ hne
  rw [h'.action?_eq hk] at haction
  have hrules : ∀ {id}, id ∈ reduces ↔ ∃ b, (x, b) ∈ Row.claims g node' ∧ id ∈ b.rules := by
    intro id
    have hmem : id ∈ (Action.conflict shifts reduces).rules ↔ _ := mem_rules_contest haction
    simp only [Row.mem_claimants] at hmem
    apply hmem
  constructor
  · apply List.eq_nil_iff_forall_not_mem.mpr
    intro target htarget
    obtain ⟨b, hb, hmem⟩ := (mem_targets_contest haction).mp htarget
    obtain ⟨index, rfl⟩ := hreduce (Row.mem_claimants.mp hb)
    cases hmem
  constructor
  · intro haccept
    obtain ⟨b, hb, hmem⟩ := hrules.mp haccept
    obtain ⟨index, rfl⟩ := hreduce hb
    cases List.mem_singleton.mp hmem
  · obtain ⟨index₁, rfl⟩ := hreduce hb₁
    obtain ⟨index₂, rfl⟩ := hreduce hb₂
    use .user index₁, hrules.mpr ⟨_, hb₁, List.mem_singleton_self _⟩
    use .user index₂, hrules.mpr ⟨_, hb₂, List.mem_singleton_self _⟩
    intro heq
    apply hne
    rw [heq]

end

/-- Merging keeps the conflicts of the canonical table.  So the default table of a language is
conflicted exactly if the canonical one is, and if that one has no conflicts the table over the
merged automaton has conflicts between reductions only. -/
theorem merged_conflicts {V E : Type} {language : Language V E} {g : Grammar}
    (hl : language.Definable) (hg : Grammar.ofLanguage language = .ok g) :
  ∃ m cls, (Automaton.canonical g).merged = .ok m
    ∧ Automaton.IsQuotient (Automaton.canonical g) m cls
    ∧ (∀ q x, (ofAutomaton g (.canonical g) .canonical).Clashes q x →
      (ofAutomaton g m .merged).Clashes (cls q) x)
    ∧ (∃ t t', generate g .mergedFirst = .ok t ∧ generate g .canonicalOnly = .ok t'
      ∧ (t.kind = .conflicted ↔ t'.kind = .conflicted))
    ∧ ((∀ q x, ¬ (ofAutomaton g (.canonical g) .canonical).Clashes q x) →
      ∀ k x shifts reduces,
        (ofAutomaton g m .merged).action? k x = some (.conflict shifts reduces) →
        shifts = [] ∧ .accept ∉ reduces ∧ ∃ id ∈ reduces, ∃ id' ∈ reduces, id ≠ id')
  := by
  have hproper := (Grammar.encodes_of_ofLanguage hg).proper hl
  have hdrawn := Automaton.canonical_drawn hproper
  obtain ⟨m, cls, hm, hmerges⟩ := Automaton.exists_merged hdrawn.nodes_ne
  have h : (ofAutomaton g (.canonical g) .canonical).Over g (.canonical g) :=
    ofAutomaton_over hproper (hdrawn.faithful hproper)
  have h' : (ofAutomaton g m .merged).Over g m :=
    ofAutomaton_over hproper (hmerges.faithful hproper hdrawn)
  have hclash : ∀ q x, (ofAutomaton g (.canonical g) .canonical).Clashes q x →
      (ofAutomaton g m .merged).Clashes (cls q) x :=
    fun q x => h.clashes_of_clashes h' hdrawn hmerges
  refine ⟨m, cls, hm, hmerges.isQuotient hproper hdrawn hm, hclash, ?_, ?_⟩
  · refine ⟨_, _, generate_of_merged hm, rfl, ?_⟩
    by_cases hkind : (ofAutomaton g m .merged).kind = .conflicted
    · rw [if_pos hkind]
    · rw [if_neg hkind, iff_false_left hkind]
      intro hconflicted
      obtain ⟨q, x, hqx⟩ := (kind_ofAutomaton_iff h nofun).mp hconflicted
      apply h'.not_clashes hkind (cls q) x (hclash q x hqx)
  · intro hclean k x shifts reduces haction
    apply h.reduce_of_clash hclean h' hdrawn hmerges haction

/-- The canonical table of the crossed language has no conflicts.  In its merged automaton the
two rules for `e` compete. -/
theorem merged_conflicts_crossed :
  ∃ m shifts reduces, (Automaton.canonical .crossed).merged = .ok m
    ∧ (∀ q x, ¬ (ofAutomaton .crossed (.canonical .crossed) .canonical).Clashes q x)
    ∧ (ofAutomaton .crossed m .merged).action? 6 5 = some (.conflict shifts reduces)
    ∧ shifts = [] ∧ .accept ∉ reduces ∧ ∃ id ∈ reduces, ∃ id' ∈ reduces, id ≠ id'
  := by
  obtain ⟨m, cls, hm, -, -, -, hreduce⟩ :=
    merged_conflicts Language.crossed_definable Grammar.ofLanguage_crossed
  have hproper := (Grammar.encodes_of_ofLanguage Grammar.ofLanguage_crossed).proper
    Language.crossed_definable
  have h : (ofAutomaton .crossed (.canonical .crossed) .canonical).Over .crossed
      (.canonical .crossed) :=
    ofAutomaton_over hproper ((Automaton.canonical_drawn hproper).faithful hproper)
  have hclean := h.not_clashes (by decide +kernel)
  have haction : ((Automaton.canonical .crossed).merged.toOption.bind fun m =>
        (ofAutomaton .crossed m .merged).action? 6 5)
      = some (.conflict [] [.user 4, .user 5]) := by
    decide +kernel
  rw [hm] at haction
  exact ⟨m, _, _, hm, hclean, haction, hreduce hclean _ _ _ _ haction⟩

end ParseTable

end ShiftReduce
