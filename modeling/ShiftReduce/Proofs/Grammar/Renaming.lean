import Mathlib.Data.Option.Basic
import ShiftReduce.Proofs.Grammar.Renumbering
import ShiftReduce.Proofs.Language.Renaming

/-!
# Grammars of renamed languages

The symbols of a grammar are the reserved ones and those of the rules, whatever the order in which
they are met (`Grammar.contains_numberRules`).  So a renamed language makes the same grammar up to
the numbers, or no grammar for the same reason (`Grammar.ofLanguage_renamed`).
-/

namespace ShiftReduce

/-! ### Symbols of a table -/

namespace SymbolTable

variable {t t' : SymbolTable} {s : Symbol}

theorem contains_iff :
  t.contains s = true ↔ ∃ i, t.id? s = some i
  := Option.isSome_iff_exists

/-- A symbol that is given a number joins the others. -/
theorem contains_intern (t : SymbolTable) (s' : Symbol) :
  (t.intern s').1.contains s = true ↔ t.contains s = true ∨ s = s'
  := by
  cases hs' : t.id? s' with
  | some i =>
      rw [intern_of_some hs']
      constructor
      · apply Or.inl
      · rintro (h | rfl)
        · apply h
        · apply contains_iff.mpr ⟨i, hs'⟩
  | none =>
      rw [contains, contains, id?_intern_of_none hs']
      split <;> simp_all

theorem contains_internMany (t : SymbolTable) (l : List Symbol) :
  (t.internMany l).1.contains s = true ↔ t.contains s = true ∨ s ∈ l
  := by
  have hfold : ∀ p : SymbolTable × Array SymbolId,
      (l.foldl internNext p).1.contains s = true ↔ p.1.contains s = true ∨ s ∈ l := by
    induction l with
    | nil => simp
    | cons s' rest ih =>
        intro p
        rw [List.foldl_cons, ih, internNext, contains_intern, List.mem_cons, or_assoc]
  apply hfold (t, #[])

theorem getElem?_toList {i : SymbolId} :
  t.toList[i]? = some s ↔ t.id? s = some i
  := by rw [id?_eq_some_iff, symbol?, toList, Array.getElem?_toList]

theorem mem_toList :
  s ∈ t.toList ↔ t.contains s = true
  := by
  rw [List.mem_iff_getElem?, contains_iff]
  simp only [getElem?_toList]

/-- A symbol is in one place only. -/
theorem place_unique {i i' : SymbolId} (hi : t.toList[i]? = some s) (hi' : t.toList[i']? = some s) :
  i = i'
  := by
  rw [getElem?_toList] at hi hi'
  rw [hi] at hi'
  apply Option.some.inj hi'

/-- Tables whose symbols are matched one to one have equally many symbols, and their numbers are
matched by a permutation. -/
theorem exists_perm {φ : Symbol → Symbol}
    (h : Set.BijOn φ {s | t.contains s = true} {s | t'.contains s = true}) :
  t'.size = t.size ∧ ∃ π : Equiv.Perm SymbolId, (∀ i, π i < t'.size ↔ i < t.size)
    ∧ ∀ s i, t.id? s = some i → t'.id? (φ s) = some (π i)
  := by
  have hleft : ∀ s ∈ t.toList, ∃ s' ∈ t'.toList, φ s = s' := by
    intro s hs
    exact ⟨φ s, mem_toList.mpr (h.mapsTo (mem_toList.mp hs)), rfl⟩
  have hright : ∀ s' ∈ t'.toList, ∃ s ∈ t.toList, φ s = s' := by
    intro s' hs'
    obtain ⟨s, hs, hφ⟩ := h.surjOn (mem_toList.mp hs')
    exact ⟨s, mem_toList.mpr hs, hφ⟩
  have hfrom : ∀ {i i' : Nat} {s₁ s₂ s'}, t.toList[i]? = some s₁ → t.toList[i']? = some s₂ →
      φ s₁ = s' → φ s₂ = s' → i = i' := by
    intro i i' s₁ s₂ s' hi hi' hs₁ hs₂
    have hmem₁ := mem_toList.mp (List.mem_of_getElem? hi)
    have hmem₂ := mem_toList.mp (List.mem_of_getElem? hi')
    obtain rfl := h.injOn hmem₁ hmem₂ (hs₁.trans hs₂.symm)
    apply place_unique hi hi'
  have hto : ∀ {j j' : Nat} {s s₁' s₂'}, t'.toList[j]? = some s₁' → t'.toList[j']? = some s₂' →
      φ s = s₁' → φ s = s₂' → j = j' := by
    rintro j j' s s₁' s₂' hj hj' rfl rfl
    apply place_unique hj hj'
  obtain ⟨hsize, π, hlt, hπ⟩ := exists_perm_of_related hleft hright hfrom hto
  use hsize, π, hlt
  intro s i hs
  have hplace := hπ i
  rw [getElem?_toList.mpr hs] at hplace
  generalize hs' : t'.toList[π i]? = s' at hplace
  cases hplace with
  | some hφ =>
      rw [hφ]
      apply getElem?_toList.mp hs'

/-- The numbers of symbols that are mapped are those that their numbers are mapped to. -/
theorem map_id?_map {φ : Symbol → Symbol} {π : SymbolId → SymbolId} {l : List Symbol}
    {ids : List SymbolId} (hφ : ∀ s ∈ l, t'.id? (φ s) = (t.id? s).map π)
    (h : l.map t.id? = ids.map some) :
  (l.map φ).map t'.id? = (ids.map π).map some
  := by
  calc (l.map φ).map t'.id?
      = l.map fun s => (t.id? s).map π := by
        rw [List.map_map]
        apply List.map_congr_left hφ
    _ = (l.map t.id?).map (Option.map π) := by
        rw [List.map_map]
        rfl
    _ = (ids.map π).map some := by
        rw [h, List.map_map, List.map_map]
        rfl

end SymbolTable

variable {V V' E E' : Type} {ρ : String → String} {names : Set String}
  {language : Language V E} {language' : Language V' E'} {g g' : Grammar}

/-! ### Places of rules -/

namespace Language

/-- The rules of a renamed language are in other places. -/
theorem Renamed.exists_places (h : language.Renamed ρ names language') (hl : language.Definable)
    (hl' : language'.Definable) :
  ∃ π : Equiv.Perm Nat, ∀ index,
    Option.Rel (Production.Renames ρ) language.rules[index]? language'.rules[π index]?
  := by
  have hfrom : ∀ {i i' : Nat} {p q : Production V} {p' : Production V'},
      language.rules[i]? = some p → language.rules[i']? = some q → p.Renames ρ p' →
      q.Renames ρ p' → i = i' := by
    intro i i' p q p' hp hq hpp' hqp'
    apply hl.place_unique hp hq
    apply h.shape_eq_of_renames (List.mem_of_getElem? hp) (List.mem_of_getElem? hq) hpp' hqp'
  have hto : ∀ {j j' : Nat} {p : Production V} {p' q' : Production V'},
      language'.rules[j]? = some p' → language'.rules[j']? = some q' → p.Renames ρ p' →
      p.Renames ρ q' → j = j' := by
    intro j j' p p' q' hp' hq' hpp' hpq'
    apply hl'.place_unique hp' hq' (hpp'.shape_eq hpq')
  obtain ⟨-, π, -, hπ⟩ :=
    exists_perm_of_related (fun p => h.exists_image) (fun p' => h.exists_origin) hfrom hto
  exact ⟨π, hπ⟩

end Language

/-! ### Symbols of a grammar -/

/-- The same reason, with the renamed symbol. -/
def GrammarError.rename (ρ : String → String) : GrammarError → GrammarError
  | startNotNonterminal symbol => startNotNonterminal (symbol.rename ρ)
  | tooManySymbols => tooManySymbols
  | tooManyRules => tooManyRules

namespace Grammar

/-- Numbering the rules gives numbers to the reserved symbols and to those of the rules, and to no
others. -/
theorem contains_numberRules (rules : List (Production V)) (s : Symbol) :
  (numberRules rules).1.contains s = true
    ↔ s.isReserved = true ∨ ∃ p ∈ rules, s ∈ p.symbols
  := by
  have hnext : ∀ (p : SymbolTable × Array Rule) (rule : Production V),
      (numberNext p rule).1.contains s = true ↔ p.1.contains s = true ∨ s ∈ rule.symbols := by
    intro p rule
    rw [numberNext, SymbolTable.contains_internMany, SymbolTable.contains_intern,
      Production.symbols, List.mem_cons, or_assoc]
  have hfold : ∀ p : SymbolTable × Array Rule, (rules.foldl numberNext p).1.contains s = true
      ↔ p.1.contains s = true ∨ ∃ p ∈ rules, s ∈ p.symbols := by
    induction rules with
    | nil => simp
    | cons rule rest ih =>
        intro p
        rw [List.foldl_cons, ih, hnext, List.exists_mem_cons_iff, or_assoc]
  have hreserved : reservedSymbols.contains s = true ↔ s.isReserved = true := by
    rw [reservedSymbols, SymbolTable.ofList, SymbolTable.contains_internMany]
    cases s <;> simp [SymbolTable.empty, SymbolTable.contains, SymbolTable.id?, Symbol.isReserved]
  rw [numberRules_eq, hfold, hreserved]

theorem within_of_contains (h : language.Renamed ρ names language') {s : Symbol}
    (hs : (numberRules language.rules).1.contains s = true) :
  s.Within names
  := by
  rcases (contains_numberRules _ s).mp hs with hs | hs
  · apply Symbol.within_of_isReserved hs
  · apply h.within s hs

/-- The symbols of a renamed language are the renamed symbols. -/
theorem bijOn_numberRules (h : language.Renamed ρ names language') :
  Set.BijOn (Symbol.rename ρ) {s | (numberRules language.rules).1.contains s = true}
    {s | (numberRules language'.rules).1.contains s = true}
  := by
  refine ⟨?_, ?_, ?_⟩
  · intro s hs
    apply (contains_numberRules _ _).mpr
    rw [Symbol.isReserved_rename]
    apply ((contains_numberRules _ s).mp hs).imp_right (h.bijOn.mapsTo ·)
  · apply (Symbol.rename_injOn h.injOn).mono fun s => within_of_contains h
  · intro s' hs'
    rcases (contains_numberRules _ s').mp hs' with hs' | hs'
    · refine ⟨s', ?_, Symbol.rename_of_isReserved hs'⟩
      apply (contains_numberRules _ s').mpr (.inl hs')
    · obtain ⟨s, hs, rfl⟩ := h.bijOn.surjOn hs'
      exact ⟨s, (contains_numberRules _ s).mpr (.inr hs), rfl⟩

/-- The grammar of a renamed language has the renamed symbols and rules under other numbers. -/
structure Renamed (ρ : String → String) (names : Set String) (f : Renumbering)
    (language : Language V E) (language' : Language V' E') (g g' : Grammar) : Prop where
  numbers : g.Renumbered f g'
  symbol : ∀ s : Symbol, s.Within names →
    g'.symbols.id? (s.rename ρ) = (g.symbols.id? s).map f.symbol
  production : ∀ index,
    Option.Rel (Production.Renames ρ) language.rules[index]? language'.rules[f.place index]?

/-- The symbols of a grammar are those that have been numbered with the rules. -/
theorem symbols_of_ofLanguage (hg : ofLanguage language = .ok g) :
  g.symbols = (numberRules language.rules).1
  := by
  obtain ⟨⟨p, hp, hlhs⟩, rfl⟩ := eq_numbered_of_ofLanguage hg
  have hcontains : (numberRules language.rules).1.contains language.start = true :=
    (contains_numberRules _ _).mpr (.inr ⟨p, hp, hlhs ▸ List.mem_cons_self⟩)
  obtain ⟨i, hi⟩ := SymbolTable.contains_iff.mp hcontains
  change ((numberRules language.rules).1.intern language.start).1 = _
  rw [SymbolTable.intern_of_some hi]

/-- A symbol has a number if and only if the renamed one does. -/
theorem exists_symbols (h : language.Renamed ρ names language')
    (hg : ofLanguage language = .ok g) (hg' : ofLanguage language' = .ok g') :
  ∃ π : Equiv.Perm SymbolId, (∀ i, π i < g'.symbolCount ↔ i < g.symbolCount)
    ∧ ∀ s : Symbol, s.Within names → g'.symbols.id? (s.rename ρ) = (g.symbols.id? s).map π
  := by
  rw [symbolCount, symbolCount, symbols_of_ofLanguage hg, symbols_of_ofLanguage hg']
  have hbij := bijOn_numberRules h
  obtain ⟨-, π, hlt, hπ⟩ := SymbolTable.exists_perm hbij
  use π, hlt
  intro s hs
  cases hi : (numberRules language.rules).1.id? s with
  | some i => apply hπ s i hi
  | none =>
      cases hj : (numberRules language'.rules).1.id? (s.rename ρ) with
      | none => rfl
      | some j =>
          obtain ⟨s₀, hs₀, heq⟩ := hbij.surjOn (SymbolTable.contains_iff.mpr ⟨j, hj⟩)
          obtain rfl := Symbol.rename_injOn h.injOn (within_of_contains h hs₀) hs heq
          obtain ⟨i, hi'⟩ := SymbolTable.contains_iff.mp hs₀
          rw [hi] at hi'
          cases hi'

/-- Rules on numbers stand for renamed rules if their numbers are those of the renamed symbols. -/
theorem rule_eq_of_renames {f : Renumbering} {p : Production V} {p' : Production V'} {r r' : Rule}
    (hsymbol : ∀ s ∈ p.symbols, g'.symbols.id? (s.rename ρ) = (g.symbols.id? s).map f.symbol)
    (hr : g.symbols.Numbers p r) (hr' : g'.symbols.Numbers p' r') (h : p.Renames ρ p') :
  r' = f.rule r
  := by
  obtain ⟨hsymbol, hrest⟩ := List.forall_mem_cons.mp hsymbol
  have hlhs := hr'.lhs
  rw [h.lhs, hsymbol, hr.lhs, Option.map_some] at hlhs
  have hrhs := hr'.rhs
  rw [h.rhs, SymbolTable.map_id?_map hrest hr.rhs] at hrhs
  obtain ⟨lhs, rhs⟩ := r'
  rw [Renumbering.rule, Option.some.inj hlhs,
    List.map_injective_iff.mpr (Option.some_injective _) hrhs]

/-- A rule of the grammar stands for the rule of the language in the same place. -/
theorem Encodes.numbers_at (h : g.Encodes language) (index : Nat) :
  Option.Rel g.symbols.Numbers language.rules[index]? g.rules[index]?
  := by
  cases hr : g.rules[index]? with
  | some r =>
      obtain ⟨p, hp, hnumbers⟩ := h.exists_production_at hr
      rw [hp]
      apply Option.Rel.some hnumbers
  | none =>
      have hlength := h.rules.length_eq
      rw [Array.getElem?_eq_none_iff, ← Array.length_toList, ← hlength] at hr
      rw [List.getElem?_eq_none hr]
      apply Option.Rel.none

/-- What stands for renamed rules, in places where there are rules, has the other numbers. -/
theorem rule_eq_map_of_renames {f : Renumbering} {p : Option (Production V)}
    {p' : Option (Production V')} {r r' : Option Rule}
    (hsymbol : ∀ q ∈ p, ∀ s ∈ q.symbols,
      g'.symbols.id? (s.rename ρ) = (g.symbols.id? s).map f.symbol)
    (hr : Option.Rel g.symbols.Numbers p r) (hr' : Option.Rel g'.symbols.Numbers p' r')
    (h : Option.Rel (Production.Renames ρ) p p') :
  r' = r.map f.rule
  := by
  cases h with
  | none =>
      cases hr with
      | none =>
          cases hr' with
          | none => rfl
  | some h =>
      cases hr with
      | some hr =>
          cases hr' with
          | some hr' =>
              rw [Option.map_some, rule_eq_of_renames (hsymbol _ (Option.mem_some_self _)) hr hr' h]

/-- A renamed language makes the same grammar, up to the numbers. -/
theorem exists_renamed (h : language.Renamed ρ names language') (hl : language.Definable)
    (hl' : language'.Definable) (hg : ofLanguage language = .ok g)
    (hg' : ofLanguage language' = .ok g') :
  ∃ f, Renamed ρ names f language language' g g'
  := by
  have hencodes := encodes_of_ofLanguage hg
  have hencodes' := encodes_of_ofLanguage hg'
  obtain ⟨symbol, hlt, hsymbol⟩ := exists_symbols h hg hg'
  obtain ⟨place, hplace⟩ := h.exists_places hl hl'
  have hreserved : ∀ {s : Symbol} {i}, s.isReserved = true → g.symbols.id? s = some i →
      g'.symbols.id? s = some i → symbol i = i := by
    intro s i hs hi hi'
    have hrenamed := hsymbol s (Symbol.within_of_isReserved hs)
    rw [Symbol.rename_of_isReserved hs, hi, hi'] at hrenamed
    apply (Option.some.inj hrenamed).symm
  use ⟨symbol, place⟩
  constructor
  · constructor
    · apply hreserved rfl hencodes.endOfInput hencodes'.endOfInput
    · apply hreserved rfl hencodes.startSymbol hencodes'.startSymbol
    · have hstart := hsymbol _ h.startWithin
      rw [← h.start, hencodes.start, hencodes'.start] at hstart
      apply Option.some.inj hstart
    · intro index
      apply rule_eq_map_of_renames _ (hencodes.numbers_at index) (hencodes'.numbers_at _)
        (hplace index)
      intro p hp s hs
      apply hsymbol s (h.within s ⟨p, List.mem_of_getElem? hp, hs⟩)
    · apply hlt
  · apply hsymbol
  · apply hplace

/-- If a language makes no grammar, the renamed language makes none for the same reason. -/
theorem ofLanguage_renamed (h : language.Renamed ρ names language') (hl : language.Definable)
    (hl' : language'.Definable) :
  (∃ e, ofLanguage language = .error e ∧ ofLanguage language' = .error (e.rename ρ))
    ∨ ∃ g g' f, ofLanguage language = .ok g ∧ ofLanguage language' = .ok g'
      ∧ Renamed ρ names f language language' g g'
  := by
  have hsize := (SymbolTable.exists_perm (bijOn_numberRules h)).1
  have hg := ofLanguage_eq language
  have hg' := ofLanguage_eq language'
  simp only [← h.expands_start_iff, hsize, ← h.length_eq] at hg'
  by_cases hexpands : ∃ p ∈ language.rules, p.lhs = language.start
  · rw [if_pos hexpands] at hg hg'
    by_cases hsymbols : (numberRules language.rules).1.size > maxSymbols
    · rw [if_pos hsymbols] at hg hg'
      exact .inl ⟨_, hg, hg'⟩
    · rw [if_neg hsymbols] at hg hg'
      by_cases hrules : language.rules.length ≥ ruleLimit
      · rw [if_pos hrules] at hg hg'
        exact .inl ⟨_, hg, hg'⟩
      · rw [if_neg hrules] at hg hg'
        obtain ⟨f, hrenamed⟩ := exists_renamed h hl hl' hg hg'
        exact .inr ⟨_, _, f, hg, hg', hrenamed⟩
  · rw [if_neg hexpands] at hg hg'
    rw [h.start] at hg'
    exact .inl ⟨_, hg, hg'⟩

end Grammar

end ShiftReduce
