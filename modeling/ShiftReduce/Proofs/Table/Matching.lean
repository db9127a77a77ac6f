import ShiftReduce.Proofs.Table.Driving

/-!
# Tables of one grammar side by side

The lookaheads of an exact automaton follow every prefix that leads to their states, and so a
table over any faithful automaton of the same grammar has them too.  If that table has no
conflicts, it has an action that matches for each action of the table over the exact automaton,
and that one has no conflicts either.  This need not be so in the other direction, where a
state may reduce on a lookahead that does not follow the prefix.
-/

namespace ShiftReduce

/-- The actions do the same, up to the states they move to. -/
inductive Action.Matches : Action → Action → Prop where
  | shift (target target' : StateId) : Matches (.shift target) (.shift target')
  | goto (target target' : StateId) : Matches (.goto target) (.goto target')
  | reduce (id : RuleId) : Matches (.reduce id) (.reduce id)
  | accept : Matches .accept .accept

/-- The shifts and gotos that a state claims are those along its edges. -/
theorem Row.get?_of_mem_claims {g : Grammar} {node : Node} {i : SymbolId} {target : StateId}
    {b : Action} (hb : (i, b) ∈ claims g node) (htarget : b = .shift target ∨ b = .goto target) :
  node.edges.get? i = some target
  := by
  rcases mem_claims.mp hb with ⟨target', hedge, rfl⟩ | ⟨_, _, _, _, rfl⟩ | ⟨_, _, _, _, rfl⟩
  · rw [hedge]
    split at htarget <;> rcases htarget with htarget | htarget <;> cases htarget <;> rfl
  · rcases htarget with htarget | htarget <;> cases htarget
  · rcases htarget with htarget | htarget <;> cases htarget

/-- Claims that match the same action are equal. -/
theorem Row.eq_of_matches {g : Grammar} {node : Node} {i : SymbolId} {b b' d : Action}
    (hb : (i, b) ∈ claims g node) (hb' : (i, b') ∈ claims g node) (hd : b.Matches d)
    (hd' : b'.Matches d) :
  b = b'
  := by
  cases hd with
  | shift target =>
      cases hd' with
      | shift target' =>
          have hedge := get?_of_mem_claims hb (.inl rfl)
          rw [get?_of_mem_claims hb' (.inl rfl)] at hedge
          rw [Option.some.inj hedge]
  | goto target =>
      cases hd' with
      | goto target' =>
          have hedge := get?_of_mem_claims hb (.inr rfl)
          rw [get?_of_mem_claims hb' (.inr rfl)] at hedge
          rw [Option.some.inj hedge]
  | reduce id =>
      cases hd' with
      | reduce => rfl
  | accept =>
      cases hd' with
      | accept => rfl

namespace ParseTable.Over

variable {t t' : ParseTable} {g : Grammar} {a a' : Automaton} {q q' : StateId}
  {below below' : List StateId} {γ : List SymbolId} {x : SymbolId}

/-- What a state of an exact automaton claims is what a table without conflicts does after the
same prefix. -/
theorem exists_matching_claim (h : t.Over g a) (hclash : ∀ q x, ¬ t.Clashes q x)
    (h' : t'.Over g a') (hexact : a'.Exact g) (hs : a.Spells (q :: below) γ)
    (hs' : a'.Spells (q' :: below') γ) {node : Node} (hq' : a'.node? q' = some node)
    {b' : Action} (hclaim : (x, b') ∈ Row.claims g node) :
  ∃ b, t.action? q x = some b ∧ b'.Matches b
  := by
  rcases Row.mem_claims.mp hclaim with ⟨target', hedge, rfl⟩ | ⟨dot, hcore, hcomplete, rfl, rfl⟩
    | ⟨index, dot, hlook, hcomplete, rfl⟩
  · obtain ⟨c, rest, hc, hafter⟩ := (h'.faithful.exists_edge_iff hs' hq' x).mp ⟨target', hedge⟩
    cases hx : g.isTerminal x with
    | true =>
        obtain ⟨target, -, haction | hc⟩ := h.shift hs hc hafter hx
        · exact ⟨_, haction, .shift _ _⟩
        · cases hclash _ _ hc
    | false =>
        obtain ⟨target, -, haction⟩ := h.goto hs hc hafter hx
        exact ⟨_, haction, .goto _ _⟩
  · have hviable := h'.faithful.viable_of_hasCore hs' hq' hcore
    rcases h.accept hs hviable hcomplete with haction | hc
    · exact ⟨_, haction, .accept⟩
    · cases hclash _ _ hc
  · rcases h.reduce hs (hexact hs' hq' hlook) hcomplete with haction | hc
    · exact ⟨_, haction, .reduce _⟩
    · cases hclash _ _ hc

/-- If some table of a grammar has no conflicts, the table over an exact automaton has none
where a prefix is spelled. -/
theorem not_clashes_of_exact (h : t.Over g a) (hclash : ∀ q x, ¬ t.Clashes q x)
    (h' : t'.Over g a') (hexact : a'.Exact g) (hs' : a'.Spells (q' :: below') γ) :
  ¬ t'.Clashes q' x
  := by
  intro hclash'
  obtain ⟨stack, hs⟩ := h.faithful.spells_of_spells h'.faithful hs'
  obtain ⟨node, hq', -⟩ := h'.faithful.hasCore hs'
  obtain ⟨b₁, b₂, hne, hb₁, hb₂⟩ := h'.exists_claims_of_clashes hs' hq' hclash'
  obtain ⟨q, below, rfl⟩ := hs.exists_eq_cons
  obtain ⟨d, hd, hmatches₁⟩ := exists_matching_claim h hclash h' hexact hs hs' hq' hb₁
  obtain ⟨d', hd', hmatches₂⟩ := exists_matching_claim h hclash h' hexact hs hs' hq' hb₂
  rw [hd] at hd'
  cases hd'
  cases hne (Row.eq_of_matches hb₁ hb₂ hmatches₁ hmatches₂)

/-- An action of the table over an exact automaton is matched by a table without conflicts
after the same prefix. -/
theorem exists_matching_action (h : t.Over g a) (hclash : ∀ q x, ¬ t.Clashes q x)
    (h' : t'.Over g a') (hexact : a'.Exact g) (hs : a.Spells (q :: below) γ)
    (hs' : a'.Spells (q' :: below') γ) {b' : Action} (hb' : t'.action? q' x = some b') :
  ∃ b, t.action? q x = some b ∧ b'.Matches b
  := by
  have hconflict : b'.isConflict = false := by
    cases b' with
    | conflict shifts reduces =>
        cases not_clashes_of_exact h hclash h' hexact hs' ⟨shifts, reduces, hb'⟩
    | _ => rfl
  obtain ⟨node, hq', hclaim⟩ := h'.claim_of_action? hb' hconflict
  apply exists_matching_claim h hclash h' hexact hs hs' hq' hclaim

end ParseTable.Over

end ShiftReduce
