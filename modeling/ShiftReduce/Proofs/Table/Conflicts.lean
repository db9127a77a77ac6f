import ShiftReduce.Proofs.Table.Collection
import ShiftReduce.Proofs.Table.Matching

/-!
# Conflicts of the canonical table

Where a prefix is spelled, the claims of a state of an exact automaton are the moves that the
viable cores and the lookaheads after the prefix allow (`ParseTable.Over.allows_iff`).  So the
canonical table has a conflict exactly if these allow two different moves somewhere.  Every
conflict of the canonical collection is one of the table, and in fruitful grammars the table
has no other ones (`ParseTable.canonical_conflicted_iff`).

In other grammars it may have more.  A state keeps cores without lookaheads, which the
collection does not have, and shifts the terminals after their dots
(`ParseTable.canonical_conflicted_barren`).
-/

namespace ShiftReduce

/-! ### Moves and claims -/

/-- An action makes a move. -/
inductive Action.Makes : Action → Move → Prop where
  | shift (target : StateId) : Makes (.shift target) .shift
  | reduce (index : Nat) : Makes (.reduce (.user index)) (.reduce index)
  | accept : Makes .accept .accept

/-- Actions that make the same move match. -/
theorem Action.Matches.of_makes {b b' : Action} {move : Move} (hb : b.Makes move)
    (hb' : b'.Makes move) :
  b.Matches b'
  := by
  cases hb with
  | shift target =>
      cases hb' with
      | shift target' => apply Matches.shift
  | reduce index =>
      cases hb' with
      | reduce => apply Matches.reduce
  | accept =>
      cases hb' with
      | accept => apply Matches.accept

/-- An action makes at most one move. -/
theorem Action.Makes.unique {b : Action} {move move' : Move} (h : b.Makes move)
    (h' : b.Makes move') :
  move = move'
  := by
  cases h <;> cases h' <;> rfl

namespace ParseTable

namespace Over

variable {t : ParseTable} {g : Grammar} {a : Automaton} {q : StateId} {below : List StateId}
  {γ : List SymbolId} {node : Node} {x : SymbolId}

/-- In an exact automaton a state claims a lookahead for the moves that are allowed after the
prefix. -/
theorem allows_iff (h : t.Over g a) (hexact : a.Exact g) (hs : a.Spells (q :: below) γ)
    (hq : a.node? q = some node) {move : Move} :
  Allows g (Viable g γ) (Follows g γ) x move
    ↔ ∃ b, (x, b) ∈ Row.claims g node ∧ b.Makes move
  := by
  constructor
  · intro hallows
    cases hallows with
    | shift hc hafter hx =>
        obtain ⟨target, hedge⟩ := (h.faithful.exists_edge_iff hs hq x).mpr ⟨_, _, hc, hafter⟩
        refine ⟨.shift target, Row.mem_claims.mpr (.inl ⟨target, hedge, ?_⟩), .shift target⟩
        rw [if_pos hx]
    | @reduce index dot hc hcomplete =>
        have hlook := h.faithful.looks hs hq hc
        exact ⟨.reduce (.user index),
          Row.mem_claims.mpr (.inr (.inr ⟨index, dot, hlook, hcomplete, rfl⟩)), .reduce index⟩
    | @accept dot hc hcomplete =>
        have hx := hc.eq_endOfInput_of_accept h.proper rfl
        have hcore := (h.faithful.looks hs hq hc).hasCore
        exact ⟨.accept, Row.mem_claims.mpr (.inr (.inl ⟨dot, hcore, hcomplete, hx, rfl⟩)), .accept⟩
  · rintro ⟨b, hb, hmove⟩
    rcases Row.mem_claims.mp hb with ⟨target, hedge, rfl⟩ | ⟨dot, hcore, hcomplete, rfl, rfl⟩
      | ⟨index, dot, hlook, hcomplete, rfl⟩
    · obtain ⟨c, rest, hc, hafter⟩ := (h.faithful.exists_edge_iff hs hq x).mp ⟨target, hedge⟩
      split at hmove
      · rename_i hx
        cases hmove
        apply Allows.shift hc hafter hx
      · cases hmove
    · cases hmove
      have hc := h.faithful.viable_of_hasCore hs hq hcore
      apply Allows.accept (hc.follows_of_accept h.proper rfl) hcomplete
    · cases hmove
      apply Allows.reduce (hexact hs hq hlook) hcomplete

/-- Claims that compete are for moves. -/
theorem exists_move (h : t.Over g a) (hq : a.node? q = some node) {b b' : Action}
    (hne : b ≠ b') (hb : (x, b) ∈ Row.claims g node) (hb' : (x, b') ∈ Row.claims g node) :
  ∃ move, b.Makes move
  := by
  rcases Row.mem_claims.mp hb with ⟨target, hedge, rfl⟩ | ⟨_, _, _, _, rfl⟩ | ⟨_, _, _, _, rfl⟩
  · cases hx : g.isTerminal x with
    | true =>
        rw [if_pos rfl]
        exact ⟨.shift, .shift target⟩
    | false =>
        -- a goto has no competitors, as lookaheads are terminals
        rcases Row.mem_claims.mp hb' with ⟨target', hedge', rfl⟩ | ⟨_, _, _, rfl, _⟩
          | ⟨_, _, hlook, _, _⟩
        · rw [hedge] at hedge'
          cases hedge'
          cases hne rfl
        · rw [h.isTerminal_endOfInput] at hx
          cases hx
        · rw [h.isTerminal_of_looks hq hlook] at hx
          cases hx
  · exact ⟨.accept, .accept⟩
  · exact ⟨.reduce _, .reduce _⟩

/-- In an exact automaton actions compete where two different moves are allowed. -/
theorem exists_clashes_iff (h : t.Over g a) (hexact : a.Exact g)
    (hs : a.Spells (q :: below) γ) :
  (∃ x, t.Clashes q x) ↔ Conflicting g (Viable g γ) (Follows g γ)
  := by
  obtain ⟨node, hq, -⟩ := h.faithful.hasCore hs
  constructor
  · rintro ⟨x, hclash⟩
    obtain ⟨b, b', hne, hb, hb'⟩ := h.exists_claims_of_clashes hs hq hclash
    obtain ⟨move, hmove⟩ := h.exists_move hq hne hb hb'
    obtain ⟨move', hmove'⟩ := h.exists_move hq hne.symm hb' hb
    refine ⟨x, move, move', ?_, (h.allows_iff hexact hs hq).mpr ⟨b, hb, hmove⟩,
      (h.allows_iff hexact hs hq).mpr ⟨b', hb', hmove'⟩⟩
    rintro rfl
    apply hne
    apply Row.eq_of_matches hb hb' (.of_makes hmove hmove') (.of_makes hmove' hmove')
  · rintro ⟨x, move, move', hne, hallows, hallows'⟩
    obtain ⟨b, hb, hmove⟩ := (h.allows_iff hexact hs hq).mp hallows
    obtain ⟨b', hb', hmove'⟩ := (h.allows_iff hexact hs hq).mp hallows'
    use x
    rcases h.action?_of_claim hq hb with haction | hclash
    · rcases h.action?_of_claim hq hb' with haction' | hclash
      · rw [haction] at haction'
        cases haction'
        cases hne (hmove.unique hmove')
      · apply hclash
    · apply hclash

end Over

/-! ### Counting conflicts -/

/-- If the rows of a table are counted to have conflicts, there are some. -/
theorem exists_clashes {t : ParseTable} (h : 0 < countConflicts t.rows) :
  ∃ q x, t.Clashes q x
  := by
  rw [countConflicts, List.length_pos_iff_exists_mem] at h
  obtain ⟨⟨x, b⟩, hmem⟩ := h
  obtain ⟨row, hrow, hb⟩ := List.mem_flatMap.mp hmem
  obtain ⟨q, hq⟩ := Array.mem_iff_getElem?.mp (Array.mem_toList_iff.mp hrow)
  rw [Row.conflicts, List.mem_filter] at hb
  obtain ⟨hentry, hconflict⟩ := hb
  cases b with
  | conflict shifts reduces =>
      refine ⟨q, x, shifts, reduces, ?_⟩
      rw [action?, ParseTable.row, hq]
      apply OrderedMap.get?_eq_some_iff.mpr hentry
  | _ => cases hconflict

/-- A table is conflicted exactly if actions compete in it, unless it is meant to be. -/
theorem kind_ofAutomaton_iff {g : Grammar} {a : Automaton} {kind : TableKind}
    (h : (ofAutomaton g a kind).Over g a) (hkind : kind ≠ .conflicted) :
  (ofAutomaton g a kind).kind = .conflicted ↔ ∃ q x, (ofAutomaton g a kind).Clashes q x
  := by
  constructor
  · intro hconflicted
    apply exists_clashes
    by_contra hcount
    apply hkind
    rw [← hconflicted]
    symm
    exact if_neg hcount
  · rintro ⟨q, x, hclash⟩
    by_contra hclean
    apply h.not_clashes hclean q x hclash

variable {g : Grammar}

/-- The canonical table is conflicted exactly if the viable cores and the lookaheads after some
prefix allow two different moves. -/
theorem kind_canonical_iff (hg : g.Proper) :
  (ofAutomaton g (.canonical g) .canonical).kind = .conflicted
    ↔ ∃ γ, Conflicting g (Viable g γ) (Follows g γ)
  := by
  have hdrawn := Automaton.canonical_drawn hg
  have h : (ofAutomaton g (.canonical g) .canonical).Over g (.canonical g) :=
    ofAutomaton_over hg (hdrawn.faithful hg)
  rw [kind_ofAutomaton_iff h nofun]
  constructor
  · rintro ⟨q, x, hclash⟩
    obtain ⟨shifts, reduces, haction⟩ := hclash
    obtain ⟨node, hq⟩ := h.exists_node haction
    obtain ⟨below, γ, hs⟩ := hdrawn.exists_spells hq
    exact ⟨γ, (h.exists_clashes_iff (hdrawn.exact hg) hs).mp ⟨x, _, _, haction⟩⟩
  · rintro ⟨γ, hconflicting⟩
    obtain ⟨c, hc⟩ := hconflicting.exists_core fun c a hc => hc.viable
    obtain ⟨stack, hs⟩ := h.faithful.exists_spells hc
    obtain ⟨q, below, rfl⟩ := hs.exists_eq_cons
    obtain ⟨x, hclash⟩ := (h.exists_clashes_iff (hdrawn.exact hg) hs).mpr hconflicting
    exact ⟨q, x, hclash⟩

/-- The canonical table of a language is conflicted exactly if the viable cores and the
lookaheads after some prefix allow two different moves.  This is so if some set of the canonical
collection allows them, and in fruitful grammars only then. -/
theorem canonical_conflicted_iff {V E : Type} {language : Language V E} {t : ParseTable}
    (hl : language.Definable) (hg : Grammar.ofLanguage language = .ok g)
    (ht : generate g .canonicalOnly = .ok t) :
  (t.kind = .conflicted ↔ ∃ γ, Conflicting g (Viable g γ) (Follows g γ))
    ∧ (Ambivalent g → t.kind = .conflicted)
    ∧ (g.Fruitful → (t.kind = .conflicted ↔ Ambivalent g))
  := by
  have hproper := (Grammar.encodes_of_ofLanguage hg).proper hl
  have hkind : t.kind = .conflicted ↔ ∃ γ, Conflicting g (Viable g γ) (Follows g γ) := by
    cases ht
    apply kind_canonical_iff hproper
  have hambivalent : Ambivalent g → t.kind = .conflicted := by
    intro h
    obtain ⟨γ, hconflicting⟩ := ambivalent_iff.mp h
    apply hkind.mpr ⟨γ, hconflicting.mono _ fun c a => Held.follows⟩
    rintro c ⟨a, hc⟩
    apply hc.follows.viable
  use hkind, hambivalent
  intro hfruitful
  use fun hconflicted => ?_, hambivalent
  obtain ⟨γ, hconflicting⟩ := hkind.mp hconflicted
  apply ambivalent_iff.mpr ⟨γ, hconflicting.mono _ fun c a => Held.of_follows hfruitful⟩
  intro c hc
  apply hc.exists_held hfruitful

end ParseTable

/-! ### A language with more conflicts -/

/-- A language in which no terminal begins `U`, and `U` does not vanish.  So the rule for `B`
has no item before anything has been read. -/
def Language.barren : Language Unit Empty where
  lexRules := []
  rules :=
    [{ lhs := .label "S", rhs := [.label "A", .label "t"] },
     { lhs := .label "S", rhs := [.label "B", .label "U"] },
     { lhs := .label "A", rhs := [] },
     { lhs := .label "B", rhs := [.label "t"] },
     { lhs := .label "U", rhs := [.label "U", .label "x"] }]
  start := .label "S"

theorem Language.barren_definable :
  barren.Definable
  := definable_of_addRules rfl rfl

/-- Its grammar. -/
def Grammar.barren : Grammar :=
  (Grammar.ofLanguage Language.barren).toOption.get (by decide)

theorem Grammar.ofLanguage_barren :
  Grammar.ofLanguage Language.barren = .ok barren
  := rfl

/-- The items of its canonical collection. -/
def Grammar.barrenItems : List (List SymbolId × Core × SymbolId) :=
  [([], ⟨.accept, 0⟩, 0), ([], ⟨.user 0, 0⟩, 0), ([], ⟨.user 1, 0⟩, 0),
   ([], ⟨.user 2, 0⟩, 4), ([2], ⟨.accept, 1⟩, 0), ([3], ⟨.user 0, 1⟩, 0),
   ([4, 3], ⟨.user 0, 2⟩, 0), ([5], ⟨.user 1, 1⟩, 0), ([5], ⟨.user 4, 0⟩, 0),
   ([5], ⟨.user 4, 0⟩, 7), ([6, 5], ⟨.user 1, 2⟩, 0), ([6, 5], ⟨.user 4, 1⟩, 0),
   ([6, 5], ⟨.user 4, 1⟩, 7), ([7, 6, 5], ⟨.user 4, 2⟩, 0), ([7, 6, 5], ⟨.user 4, 2⟩, 7)]

theorem Grammar.barren_not_ambivalent :
  ¬ Ambivalent barren
  := by
  have hproper := (encodes_of_ofLanguage ofLanguage_barren).proper Language.barren_definable
  apply not_ambivalent hproper (l := barrenItems)
  · decide
  · decide +kernel
  · decide +kernel

/-- The canonical table of the barren language has a conflict, and the collection has none. -/
theorem ParseTable.canonical_conflicted_barren :
  ∃ t, ParseTable.generate .barren .canonicalOnly = .ok t ∧ t.kind = .conflicted
    ∧ (∃ γ, Conflicting .barren (Viable .barren γ) (Follows .barren γ)) ∧ ¬ Ambivalent .barren
  := by
  have hkind : (ofAutomaton .barren (.canonical .barren) .canonical).kind = .conflicted := by
    decide +kernel
  refine ⟨_, rfl, hkind, ?_, Grammar.barren_not_ambivalent⟩
  have h := canonical_conflicted_iff Language.barren_definable Grammar.ofLanguage_barren rfl
  apply h.1.mp hkind

end ShiftReduce
