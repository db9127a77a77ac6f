import ShiftReduce.Proofs.Grammar.First
import ShiftReduce.Proofs.Grammar.Numbering
import ShiftReduce.Proofs.Language.Definable

/-!
# Proper grammars

In a proper grammar the rules mention only symbols that have a number, none of them reserved,
and some rule expands the start symbol.  The grammars of definable languages are proper.  The
nonterminals of a proper grammar are the left-hand sides of its rules, the accepting rule
included, and its first sets are those that all its rules make.
-/

namespace ShiftReduce

namespace Grammar

/-- The accepting rule and the rules of the language. -/
def allRules (g : Grammar) : List Rule :=
  g.accept :: g.rules.toList

/-- The empty sequence is derived from a sequence of symbols. -/
abbrev Vanishes (g : Grammar) (s : List SymbolId) : Prop :=
  ShiftReduce.Vanishes g.allRules s

/-- A sequence that begins with a terminal is derived from a sequence of symbols. -/
abbrev Begins (g : Grammar) (s : List SymbolId) (a : SymbolId) : Prop :=
  ShiftReduce.Begins g.kinds g.allRules s a

/-- A grammar whose rules mention only labels that have numbers, and that has a rule for the
start symbol. -/
structure Proper (g : Grammar) : Prop where
  lhs_lt : ∀ r ∈ g.rules, r.lhs < g.symbolCount
  rhs_lt : ∀ r ∈ g.rules, ∀ i ∈ r.rhs, i < g.symbolCount
  lhs_label : ∀ r ∈ g.rules, startId < r.lhs
  rhs_label : ∀ r ∈ g.rules, ∀ i ∈ r.rhs, startId < i
  start_expands : ∃ r ∈ g.rules, r.lhs = g.start

variable {g : Grammar}

theorem Proper.start_lt (hg : g.Proper) :
  g.start < g.symbolCount
  := by
  obtain ⟨r, hr, hstart⟩ := hg.start_expands
  rw [← hstart]
  apply hg.lhs_lt r hr

theorem Proper.start_label (hg : g.Proper) :
  startId < g.start
  := by
  obtain ⟨r, hr, hstart⟩ := hg.start_expands
  rw [← hstart]
  apply hg.lhs_label r hr

/-! ### Rules by their numbers -/

theorem rule?_accept :
  g.rule? .accept = some g.accept
  := rfl

theorem rule?_user {index : Nat} :
  g.rule? (.user index) = g.rules[index]?
  := rfl

/-- All rules are those that have a number. -/
theorem mem_allRules {r : Rule} :
  r ∈ g.allRules ↔ ∃ id, g.rule? id = some r
  := by
  constructor
  · intro h
    rcases List.mem_cons.mp h with rfl | h
    · exact ⟨.accept, rfl⟩
    · obtain ⟨index, hindex⟩ := List.mem_iff_getElem?.mp h
      use .user index
      rw [rule?_user, ← hindex, Array.getElem?_toList]
  · rintro ⟨id, h⟩
    cases id with
    | accept =>
        cases h
        apply List.mem_cons_self
    | user index =>
        apply List.mem_cons_of_mem
        apply List.mem_iff_getElem?.mpr ⟨index, _⟩
        rw [Array.getElem?_toList]
        apply h

theorem mem_numberedRules {id : RuleId} {r : Rule} :
  (id, r) ∈ g.numberedRules ↔ g.rule? id = some r
  := by
  simp only [numberedRules, List.mem_cons, List.mem_mapIdx, Prod.mk.injEq]
  constructor
  · rintro (⟨rfl, rfl⟩ | ⟨index, hlt, rfl, rfl⟩)
    · rfl
    · rw [rule?_user, ← Array.getElem?_toList]
      apply List.getElem?_eq_getElem hlt
  · intro h
    cases id with
    | accept =>
        left
        apply And.intro rfl (Option.some.inj h).symm
    | user index =>
        right
        rw [rule?_user, ← Array.getElem?_toList] at h
        obtain ⟨hlt, hr⟩ := List.getElem?_eq_some_iff.mp h
        exact ⟨index, hlt, rfl, hr⟩

/-- The rules that expand a symbol are those that have it as their left-hand side. -/
theorem mem_rulesFor {id : RuleId} {i : SymbolId} :
  id ∈ g.rulesFor i ↔ ∃ r, g.rule? id = some r ∧ r.lhs = i
  := by
  simp only [rulesFor, List.mem_filterMap]
  constructor
  · rintro ⟨⟨id', r⟩, hmem, hid⟩
    split at hid
    · rename_i hlhs
      cases hid
      exact ⟨r, mem_numberedRules.mp hmem, hlhs⟩
    · cases hid
  · rintro ⟨r, hr, rfl⟩
    use (id, r), mem_numberedRules.mpr hr
    simp

/-- The symbols that a rule mentions on its right-hand side are labels with a number. -/
theorem Proper.of_mem_rhs (hg : g.Proper) {id : RuleId} {r : Rule} (hr : g.rule? id = some r)
    {i : SymbolId} (hi : i ∈ r.rhs) :
  startId < i ∧ i < g.symbolCount
  := by
  cases id with
  | accept =>
      cases hr
      obtain rfl := List.mem_singleton.mp hi
      apply And.intro hg.start_label hg.start_lt
  | user index =>
      have hmem : r ∈ g.rules := Array.mem_of_getElem? hr
      apply And.intro (hg.rhs_label r hmem i hi) (hg.rhs_lt r hmem i hi)

/-- The left-hand side of a rule has a number, and only that of the accepting rule is
reserved. -/
theorem Proper.lhs_of_rule? (hg : g.Proper) {id : RuleId} {r : Rule}
    (hr : g.rule? id = some r) :
  startId ≤ r.lhs ∧ r.lhs < g.symbolCount ∧ (r.lhs = startId → id = .accept)
  := by
  cases id with
  | accept =>
      cases hr
      have hlt := Nat.lt_trans hg.start_label hg.start_lt
      exact ⟨Nat.le_refl _, hlt, fun _ => rfl⟩
  | user index =>
      have hmem : r ∈ g.rules := Array.mem_of_getElem? hr
      have hlabel := hg.lhs_label r hmem
      refine ⟨Nat.le_of_lt hlabel, hg.lhs_lt r hmem, fun h => ?_⟩
      cases Nat.ne_of_gt hlabel h

/-! ### Kinds of symbols -/

theorem getElem?_foldl_setIfInBounds (rules : List Rule) (kinds : Array SymbolKind)
    (i : SymbolId) :
  (rules.foldl (fun kinds r => kinds.setIfInBounds r.lhs .nonterminal) kinds)[i]?
    = if i < kinds.size ∧ ∃ r ∈ rules, r.lhs = i then some .nonterminal else kinds[i]?
  := by
  induction rules generalizing kinds with
  | nil => simp
  | cons r rest ih =>
      rw [List.foldl_cons, ih, Array.size_setIfInBounds, Array.getElem?_setIfInBounds]
      by_cases hi : r.lhs = i
      · by_cases hlt : i < kinds.size
        · simp [hi, hlt]
        · simp [hi, hlt]
      · simp [hi]

/-- Left-hand sides and the reserved start symbol are nonterminals. -/
theorem getElem?_kindsOf (size : Nat) (rules : Array Rule) (i : SymbolId) :
  (kindsOf size rules)[i]?
    = if i < size then
        if i = startId ∨ ∃ r ∈ rules, r.lhs = i then some .nonterminal else some .terminal
      else none
  := by
  rw [kindsOf]
  rw [← Array.foldl_toList, getElem?_foldl_setIfInBounds]
  simp only [Array.size_setIfInBounds, Array.size_replicate, Array.mem_toList_iff,
    Array.getElem?_setIfInBounds, Array.getElem?_replicate]
  by_cases hlt : i < size
  · by_cases hi : startId = i
    · simp [hi, hlt]
    · simp [hi, hlt, Ne.symm hi]
  · by_cases hi : startId = i
    · simp [hi, hlt]
    · simp [hi, hlt]

theorem getElem?_kinds (i : SymbolId) :
  g.kinds[i]?
    = if i < g.symbolCount then
        if i = startId ∨ ∃ r ∈ g.rules, r.lhs = i then some .nonterminal else some .terminal
      else none
  := by
  rw [g.kinds_eq]
  apply getElem?_kindsOf

theorem size_kinds :
  g.kinds.size = g.symbolCount
  := by
  have hnone : ∀ i, g.kinds[i]? = none ↔ ¬ i < g.symbolCount := by
    intro i
    rw [getElem?_kinds]
    split
    · split <;> simp_all
    · simp_all
  apply Nat.le_antisymm
  · have h := hnone g.symbolCount
    simpa using h
  · have h := hnone g.kinds.size
    simpa using h

/-- The nonterminals of a proper grammar are the left-hand sides of all rules. -/
theorem Proper.isNonterminal_iff (hg : g.Proper) {i : SymbolId} :
  g.isNonterminal i = true ↔ ∃ id r, g.rule? id = some r ∧ r.lhs = i
  := by
  have hstart := Nat.lt_trans hg.start_label hg.start_lt
  have hkind : g.isNonterminal i = true ↔ i = startId ∨ ∃ r ∈ g.rules, r.lhs = i := by
    simp only [isNonterminal, kind, getElem?_kinds]
    by_cases hlt : i < g.symbolCount
    · simp only [hlt, if_true]
      split <;> simp_all
    · simp only [hlt, if_false]
      constructor
      · intro h
        cases h
      · rintro (rfl | ⟨r, hr, rfl⟩)
        · cases hlt hstart
        · cases hlt (hg.lhs_lt r hr)
  rw [hkind]
  constructor
  · rintro (rfl | ⟨r, hr, rfl⟩)
    · exact ⟨.accept, g.accept, rfl, rfl⟩
    · obtain ⟨index, hindex⟩ := Array.mem_iff_getElem?.mp hr
      exact ⟨.user index, r, hindex, rfl⟩
  · rintro ⟨id, r, hr, rfl⟩
    cases id with
    | accept =>
        cases hr
        left
        rfl
    | user index =>
        right
        exact ⟨r, Array.mem_of_getElem? hr, rfl⟩

/-- A symbol with a number is of one of the two kinds. -/
theorem getElem?_kinds_eq_terminal {i : SymbolId} :
  g.kinds[i]? = some .terminal ↔ i < g.symbolCount ∧ g.isTerminal i = true
  := by
  rw [isTerminal, kind, ← size_kinds]
  constructor
  · intro h
    obtain ⟨hlt, -⟩ := Array.getElem?_eq_some_iff.mp h
    use hlt
    simp [h]
  · rintro ⟨hlt, h⟩
    simpa [hlt] using h

theorem isTerminal_eq_not {i : SymbolId} :
  g.isTerminal i = !g.isNonterminal i
  := by
  unfold isTerminal isNonterminal
  cases g.kind i <;> rfl

/-! ### First sets -/

/-- The first set of a sequence holds the terminals that begin it, and the lookaheads if it
vanishes. -/
theorem Proper.mem_ofSequence (hg : g.Proper) {s : List SymbolId} {l : SymbolSet}
    {a : SymbolId} :
  a ∈ g.firstSets.ofSequence s l ↔ g.Begins s a ∨ g.Vanishes s ∧ a ∈ l
  := by
  rw [g.firstSets_eq]
  apply FirstSets.mem_ofSequence_compute
  intro r hr
  rw [size_kinds]
  obtain ⟨id, hid⟩ := mem_allRules.mp hr
  apply (hg.lhs_of_rule? hid).2.1

/-- What begins a sequence is a terminal with a number. -/
theorem lt_symbolCount_of_begins {s : List SymbolId} {a : SymbolId} (h : g.Begins s a) :
  a < g.symbolCount ∧ g.isTerminal a = true
  := getElem?_kinds_eq_terminal.mp (ShiftReduce.Begins.isTerminal h)

/-! ### Grammars of definable languages -/

variable {V E : Type} {language : Language V E}

/-- A label does not have the number of a reserved symbol. -/
theorem Encodes.startId_lt (h : g.Encodes language) {s : Symbol} (hs : s.isReserved = false)
    {i : SymbolId} (hi : g.symbols.id? s = some i) :
  startId < i
  := by
  apply Nat.lt_of_not_le
  intro hle
  rcases Nat.le_one_iff_eq_zero_or_eq_one.mp hle with rfl | rfl
  · obtain rfl := SymbolTable.id?_injective hi h.endOfInput
    cases hs
  · obtain rfl := SymbolTable.id?_injective hi h.startSymbol
    cases hs

/-- A rule of the grammar stands for the rule of the language in the same place. -/
theorem Encodes.exists_production_at (h : g.Encodes language) {index : Nat} {r : Rule}
    (hr : g.rule? (.user index) = some r) :
  ∃ p, language.rules[index]? = some p ∧ g.symbols.Numbers p r
  := by
  rw [rule?_user, ← Array.getElem?_toList] at hr
  obtain ⟨hlt, rfl⟩ := List.getElem?_eq_some_iff.mp hr
  have hlength := h.rules.length_eq
  refine ⟨_, List.getElem?_eq_getElem (hlength ▸ hlt), ?_⟩
  apply h.rules.get (hlength ▸ hlt) hlt

/-- Each rule of the grammar stands for a rule of the language. -/
theorem Encodes.exists_production (h : g.Encodes language) {r : Rule} (hr : r ∈ g.rules) :
  ∃ p ∈ language.rules, g.symbols.Numbers p r
  := by
  obtain ⟨index, hindex⟩ := Array.mem_iff_getElem?.mp hr
  obtain ⟨p, hp, hnumbers⟩ := h.exists_production_at hindex
  exact ⟨p, List.mem_of_getElem? hp, hnumbers⟩

/-- Each rule of the language has one of the grammar that stands for it. -/
theorem Encodes.exists_rule (h : g.Encodes language) {p : Production V}
    (hp : p ∈ language.rules) :
  ∃ r ∈ g.rules, g.symbols.Numbers p r
  := by
  obtain ⟨index, hindex⟩ := List.mem_iff_getElem?.mp hp
  obtain ⟨hlt, hget⟩ := List.getElem?_eq_some_iff.mp hindex
  have hlength := h.rules.length_eq
  have hnumbers := h.rules.get hlt (hlength ▸ hlt)
  refine ⟨_, Array.mem_toList_iff.mp (List.getElem_mem (hlength ▸ hlt)), ?_⟩
  rw [← hget]
  apply hnumbers

/-- The grammar of a definable language is proper. -/
theorem Encodes.proper (h : g.Encodes language) (hl : language.Definable) :
  g.Proper
  where
  lhs_lt r hr := by
    obtain ⟨p, _, hnumbers⟩ := h.exists_production hr
    apply SymbolTable.lt_size hnumbers.lhs
  rhs_lt r hr i hi := by
    obtain ⟨p, _, hnumbers⟩ := h.exists_production hr
    obtain ⟨s, _, hs⟩ := hnumbers.exists_symbol hi
    apply SymbolTable.lt_size hs
  lhs_label r hr := by
    obtain ⟨p, hp, hnumbers⟩ := h.exists_production hr
    apply h.startId_lt (hl.isLabelled p hp).lhs hnumbers.lhs
  rhs_label r hr i hi := by
    obtain ⟨p, hp, hnumbers⟩ := h.exists_production hr
    obtain ⟨s, hs, hi⟩ := hnumbers.exists_symbol hi
    apply h.startId_lt ((hl.isLabelled p hp).rhs s hs) hi
  start_expands := by
    obtain ⟨p, hp, hlhs⟩ := h.expands
    obtain ⟨r, hr, hnumbers⟩ := h.exists_rule hp
    use r, hr
    have hstart := h.start
    rw [← hlhs, hnumbers.lhs] at hstart
    apply Option.some.inj hstart

end Grammar

/-! ### The grammar of the small language -/

/-- The grammar of the small language. -/
def Grammar.small : Grammar :=
  (Grammar.ofLanguage Language.small).toOption.get (by decide)

theorem Grammar.ofLanguage_small :
  Grammar.ofLanguage Language.small = .ok small
  := rfl

end ShiftReduce
