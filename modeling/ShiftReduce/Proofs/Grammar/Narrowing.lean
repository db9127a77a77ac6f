import ShiftReduce.Proofs.Grammar.Registry

/-!
# Registries and grammars

The registry of a language has the numbers of its grammar in 16 bits, and a language that makes no
grammar is not registered for the same reason (`Registry.ofLanguage_narrows`).
-/

namespace ShiftReduce

namespace Registry

variable {V E : Type} {language : Language V E} {g : Grammar}

/-- The numbers of a rule in 16 bits. -/
def narrow (r : Rule) : RegisteredRule where
  lhs := .ofNat r.lhs
  rhs := r.rhs.map UInt16.ofNat

/-- The number of a rule in 16 bits. -/
def ruleNumber : RuleId → UInt16
  | .accept => RuleNumber.accept
  | .user index => RuleNumber.ofIndex index

/-- The registry has the numbers of the grammar in 16 bits. -/
structure Narrows (r : Registry) (g : Grammar) : Prop where
  symbols : r.symbols = g.symbols
  kind : ∀ i < g.symbolCount, r.kind? (.ofNat i) = some (g.kind i)
  rules : r.rules.toList = g.rules.toList.map narrow
  accept : r.accept = narrow g.accept
  rulesFor : ∀ i < g.symbolCount, r.rulesFor (.ofNat i) = (g.rulesFor i).map ruleNumber

/-- A rule that stands for another one has the numbers of its symbols. -/
theorem registered_eq_narrow {t : SymbolTable} {p : Production V} {r : Rule}
    (h : t.Numbers p r) :
  Registration.registered t p = narrow r
  := by
  have hrhs : p.rhs.map t.number = r.rhs.map UInt16.ofNat := by
    have hnumber : t.number = (fun i => UInt16.ofNat (i.getD 0)) ∘ t.id? := rfl
    rw [hnumber, ← List.map_map, h.rhs, List.map_map]
    rfl
  rw [Registration.registered, narrow, SymbolTable.number_of_id? h.lhs, hrhs]

theorem map_registered_eq {t : SymbolTable} {rules : List (Production V)} {numbered : List Rule}
    (h : List.Forall₂ t.Numbers rules numbered) :
  rules.map (Registration.registered t) = numbered.map narrow
  := by
  induction h with
  | nil => rfl
  | cons hnumbers _ ih => rw [List.map_cons, List.map_cons, registered_eq_narrow hnumbers, ih]

/-- The start symbol has its number already, so the grammar has the symbols of the rules. -/
theorem symbols_eq_tableOf (h : Grammar.ofLanguage language = .ok g) :
  g.symbols = tableOf language
  := by
  obtain ⟨hexpands, rfl⟩ := Grammar.eq_numbered_of_ofLanguage h
  obtain ⟨i, hi⟩ := exists_id?_iff.mpr (start_mem_mentioned hexpands)
  change ((Grammar.numberRules language.rules).1.intern language.start).1 = _
  rw [Grammar.numberRules_fst, ← tableOf, SymbolTable.intern_of_some hi]

/-- The rules of a grammar by their left-hand sides. -/
theorem rulesFor_eq (g : Grammar) (i : SymbolId) :
  g.rulesFor i = (if startId = i then [.accept] else [])
    ++ (g.rules.toList.zipIdx.filter fun entry => entry.1.lhs = i).map fun entry => .user entry.2
  := by
  have hrules (l : List (Rule × Nat)) :
      (l.map fun entry => (RuleId.user entry.2, entry.1)).filterMap
          (fun entry => if entry.2.lhs = i then some entry.1 else none)
        = (l.filter fun entry => entry.1.lhs = i).map fun entry => .user entry.2 := by
    induction l with
    | nil => rfl
    | cons entry rest ih =>
        obtain ⟨r, index⟩ := entry
        by_cases hi : r.lhs = i
        · simpa [hi] using ih
        · simpa [hi] using ih
  rw [Grammar.rulesFor, Grammar.numberedRules, List.mapIdx_eq_zipIdx_map, ← hrules]
  by_cases hi : startId = i
  · rw [if_pos hi]
    apply List.filterMap_cons_some
    apply if_pos hi
  · rw [if_neg hi]
    apply List.filterMap_cons_none
    apply if_neg hi

/-- A symbol has the kind of its number. -/
theorem kind_eq (hencodes : g.Encodes language) {s : Symbol} {i : SymbolId}
    (hi : g.symbols.id? s = some i) :
  g.kind i
    = if s = .start ∨ ∃ p ∈ language.rules, p.lhs = s then .nonterminal else .terminal
  := by
  have hstart : i = startId ↔ s = .start := by
    constructor
    · rintro rfl
      apply SymbolTable.id?_injective hi hencodes.startSymbol
    · rintro rfl
      rw [hencodes.startSymbol] at hi
      apply (Option.some.inj hi).symm
  have hlhs : (∃ r ∈ g.rules, r.lhs = i) ↔ ∃ p ∈ language.rules, p.lhs = s := by
    constructor
    · rintro ⟨r, hr, rfl⟩
      obtain ⟨p, hp, hnumbers⟩ := hencodes.exists_production hr
      exact ⟨p, hp, SymbolTable.id?_injective hnumbers.lhs hi⟩
    · rintro ⟨p, hp, rfl⟩
      obtain ⟨r, hr, hnumbers⟩ := hencodes.exists_rule hp
      have hr' := hnumbers.lhs
      rw [hi] at hr'
      exact ⟨r, hr, (Option.some.inj hr').symm⟩
  have hlt : i < g.symbolCount := SymbolTable.lt_size hi
  rw [Grammar.kind, Grammar.getElem?_kinds, if_pos hlt]
  simp only [hstart, hlhs]
  split <;> rfl

/-- The registry of a language has the numbers of its grammar. -/
theorem narrows_encoding (hl : language.Definable) (h : Grammar.ofLanguage language = .ok g)
    (hsize : (tableOf language).size ≤ UInt16.size) :
  (encoding language).Narrows g
  := by
  have hencodes := Grammar.encodes_of_ofLanguage h
  have hsymbols := symbols_eq_tableOf h
  have hrules : (encoding language).rules.toList = g.rules.toList.map narrow :=
    map_registered_eq (hsymbols ▸ hencodes.rules)
  have hnarrow : ∀ i < g.symbolCount, (UInt16.ofNat i).toNat = i := by
    intro i hi
    apply toNat_ofNat_of_lt_size (n := g.symbols.size) hi (hsymbols ▸ hsize)
  constructor
  · apply hsymbols.symm
  · intro i hi
    obtain ⟨s, hs⟩ : ∃ s, g.symbols.symbol? i = some s :=
      ⟨_, Array.getElem?_eq_getElem hi⟩
    have hid : g.symbols.id? s = some i := SymbolTable.id?_eq_some_iff.mpr hs
    have hmem : s ∈ language.mentioned := by
      rw [← exists_id?_iff, ← hsymbols]
      exact ⟨i, hid⟩
    have hsymbol : (encoding language).symbol? (.ofNat i) = some s := by
      rw [symbol?, hnarrow i hi]
      rw [hsymbols] at hs
      exact hs
    rw [kind?_of_symbol? hsymbol, kindOf_ofRules hl hmem, kind_eq hencodes hid]
  · apply hrules
  · have hstart := hencodes.start
    rw [hsymbols] at hstart
    have hnumber := SymbolTable.number_of_id? hstart
    change RegisteredRule.mk 1 [(tableOf language).number language.start] = _
    rw [hnumber]
    rfl
  · intro i hi
    have heq : ∀ j < g.symbolCount, UInt16.ofNat j = UInt16.ofNat i ↔ j = i := by
      intro j hj
      constructor
      · intro hnumber
        rw [← hnarrow j hj, hnumber, hnarrow i hi]
      · apply congrArg
    have hstart : UInt16.ofNat i = 1 ↔ startId = i := by
      rw [eq_comm]
      apply heq startId (SymbolTable.lt_size hencodes.startSymbol)
    rw [rulesFor, encoding, getD_indexRules, rulesFor_eq, List.map_append,
      map_registered_eq (hsymbols ▸ hencodes.rules), List.zipIdx_map, List.filter_map, List.map_map,
      List.map_map]
    congr 1
    · simp only [hstart]
      split <;> rfl
    · congr 1
      apply List.filter_congr
      rintro ⟨r, index⟩ hmem
      have hr : r ∈ g.rules := Array.mem_toList_iff.mp (List.fst_mem_of_mem_zipIdx hmem)
      apply decide_eq_decide.mpr (heq r.lhs ((hencodes.proper hl).lhs_lt r hr))

/-- A language is registered if and only if it makes a grammar, and fails for the same reason.  The
registry has the numbers of the grammar. -/
theorem ofLanguage_narrows (hl : language.Definable) :
  (∀ e, ofLanguage language = .error (.grammar e) ↔ Grammar.ofLanguage language = .error e)
    ∧ ∀ g, Grammar.ofLanguage language = .ok g → ∃ r, ofLanguage language = .ok r ∧ r.Narrows g
  := by
  have hsize : language.mentioned.eraseDups.length
      = (Grammar.numberRules language.rules).1.size := by
    rw [Grammar.numberRules_fst, ← size_tableOf, tableOf]
  have hmax : Grammar.maxSymbols = 65536 := rfl
  have hlimit : Grammar.ruleLimit = 65534 := rfl
  have hregistry := ofLanguage_eq language
  have hgrammar := Grammar.ofLanguage_eq language
  rw [hsize] at hregistry
  rw [hmax, hlimit] at hgrammar
  rw [hregistry]
  constructor
  · intro e
    rw [hgrammar]
    split_ifs <;> simp
  · intro g hg
    have hg' := hg
    rw [hgrammar] at hg'
    split_ifs at hg' with hexpands hmany hrules
    refine ⟨encoding language, ?_, ?_⟩
    · rw [if_pos hexpands, if_neg hmany, if_neg hrules]
    · apply narrows_encoding hl hg
      rw [size_tableOf, hsize]
      apply Nat.le_of_not_gt hmany

end Registry

end ShiftReduce
