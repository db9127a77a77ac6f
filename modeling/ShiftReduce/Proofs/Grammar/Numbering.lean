import Mathlib.Data.List.Forall2
import ShiftReduce.Grammar.Basic

/-!
# Numbering the symbols of a language

A symbol keeps its number while others are given theirs.  So the grammar of a language has a
rule for each rule of the language, with the numbers of its symbols in their places
(`Grammar.encodes_of_ofLanguage`).
-/

namespace ShiftReduce

/-! ### First occurrences -/

/-- A value at the end of a list is left out if it has occurred before. -/
theorem eraseDups_append_of_mem {α : Type} [BEq α] [LawfulBEq α] {l : List α} {x : α}
    (h : x ∈ l) :
  (l ++ [x]).eraseDups = l.eraseDups
  := by simp [List.eraseDups_append, List.removeAll, h]

/-- A value at the end of a list is kept if it has not occurred before. -/
theorem eraseDups_append_of_not_mem {α : Type} [BEq α] [LawfulBEq α] {l : List α} {x : α}
    (h : x ∉ l) :
  (l ++ [x]).eraseDups = l.eraseDups ++ [x]
  := by simp [List.eraseDups_append, List.removeAll, h, List.eraseDups_cons]

/-! ### Symbol tables -/

namespace SymbolTable

/-- Symbols with a number in `t` have the same number in `u`. -/
def Extends (t u : SymbolTable) : Prop :=
  ∀ s i, t.id? s = some i → u.id? s = some i

theorem Extends.refl (t : SymbolTable) :
  t.Extends t
  := fun _ _ h => h

theorem Extends.trans {t u v : SymbolTable} (htu : t.Extends u) (huv : u.Extends v) :
  t.Extends v
  := fun s i h => huv s i (htu s i h)

/-- A number belongs to one symbol only. -/
theorem id?_injective {t : SymbolTable} {s s' : Symbol} {i : SymbolId} (h : t.id? s = some i)
    (h' : t.id? s' = some i) :
  s = s'
  := by
  rw [id?_eq_some_iff] at h h'
  rw [h] at h'
  apply Option.some.inj h'

/-- The numbers are those below the size of the table. -/
theorem lt_size {t : SymbolTable} {s : Symbol} {i : SymbolId} (h : t.id? s = some i) :
  i < t.size
  := by
  rw [id?_eq_some_iff] at h
  obtain ⟨hlt, -⟩ := Array.getElem?_eq_some_iff.mp h
  apply hlt

theorem intern_of_some {t : SymbolTable} {s : Symbol} {i : SymbolId} (h : t.id? s = some i) :
  t.intern s = (t, i)
  := by
  rw [intern]
  split
  · rename_i j hj
    rw [h] at hj
    cases hj
    rfl
  · rename_i hnone
    rw [h] at hnone
    cases hnone

/-- What a symbol has as its number after `s` has been given the next one. -/
theorem id?_intern_of_none {t : SymbolTable} {s : Symbol} (h : t.id? s = none) (s' : Symbol) :
  (t.intern s).1.id? s' = if s' = s then some t.size else t.id? s'
  := by
  have hintern : (t.intern s).1.id? s' = (t.ids.insert s t.symbols.size)[s']? := by
    rw [intern]
    split
    · rename_i j hj
      rw [h] at hj
      cases hj
    · rfl
  rw [hintern, Std.TreeMap.getElem?_insert]
  by_cases hs : s' = s
  · simp [hs, size]
  · have hcompare : compare s s' ≠ .eq :=
      fun e => hs (Std.LawfulEqOrd.eq_of_compare e).symm
    simp [hs, hcompare, id?]

theorem intern_snd_of_none {t : SymbolTable} {s : Symbol} (h : t.id? s = none) :
  (t.intern s).2 = t.size
  := by
  rw [intern]
  split
  · rename_i j hj
    rw [h] at hj
    cases hj
  · rfl

theorem extends_intern (t : SymbolTable) (s : Symbol) :
  t.Extends (t.intern s).1
  := by
  intro s' i h
  cases hs : t.id? s with
  | some j =>
      rw [intern_of_some hs]
      apply h
  | none =>
      rw [id?_intern_of_none hs, if_neg]
      · apply h
      · rintro rfl
        rw [h] at hs
        cases hs

theorem id?_intern (t : SymbolTable) (s : Symbol) :
  (t.intern s).1.id? s = some (t.intern s).2
  := by
  cases hs : t.id? s with
  | some i =>
      rw [intern_of_some hs]
      apply hs
  | none => rw [id?_intern_of_none hs, intern_snd_of_none hs, if_pos rfl]

/-- The step of `internMany`. -/
def internNext (p : SymbolTable × Array SymbolId) (s : Symbol) :
    SymbolTable × Array SymbolId :=
  ((p.1.intern s).1, p.2.push (p.1.intern s).2)

theorem internMany_eq (t : SymbolTable) (l : List Symbol) :
  t.internMany l = ((l.foldl internNext (t, #[])).1, (l.foldl internNext (t, #[])).2.toList)
  := rfl

theorem foldl_internNext (l : List Symbol) (p : SymbolTable × Array SymbolId) :
  p.1.Extends (l.foldl internNext p).1
    ∧ ∃ ids, (l.foldl internNext p).2.toList = p.2.toList ++ ids
      ∧ l.map (l.foldl internNext p).1.id? = ids.map some
  := by
  induction l generalizing p with
  | nil =>
      refine ⟨.refl _, [], ?_, rfl⟩
      simp
  | cons s rest ih =>
      obtain ⟨hext, ids, hids, hmap⟩ := ih (internNext p s)
      refine ⟨(extends_intern p.1 s).trans hext, (p.1.intern s).2 :: ids, ?_, ?_⟩
      · rw [List.foldl_cons, hids]
        simp [internNext]
      · rw [List.foldl_cons, List.map_cons, List.map_cons, hmap]
        congr 1
        apply hext
        apply id?_intern

theorem extends_internMany (t : SymbolTable) (l : List Symbol) :
  t.Extends (t.internMany l).1
  := (foldl_internNext l (t, #[])).1

/-- The symbols of the list have the numbers that are returned. -/
theorem map_id?_internMany (t : SymbolTable) (l : List Symbol) :
  l.map (t.internMany l).1.id? = (t.internMany l).2.map some
  := by
  obtain ⟨-, ids, hids, hmap⟩ := foldl_internNext l (t, #[])
  rw [internMany_eq]
  simp only [hids]
  simpa using hmap

/-- The rule of a language that a rule on numbers stands for. -/
structure Numbers {V : Type} (t : SymbolTable) (p : Production V) (r : Rule) : Prop where
  lhs : t.id? p.lhs = some r.lhs
  rhs : p.rhs.map t.id? = r.rhs.map some

variable {V : Type}

theorem Numbers.extend {t u : SymbolTable} {p : Production V} {r : Rule} (h : t.Numbers p r)
    (htu : t.Extends u) :
  u.Numbers p r
  where
  lhs := htu _ _ h.lhs
  rhs := by
    obtain ⟨lhs, rhs, _⟩ := p
    obtain ⟨_, ids⟩ := r
    have hrhs : rhs.map t.id? = ids.map some := h.rhs
    change rhs.map u.id? = ids.map some
    rw [← hrhs]
    apply List.map_congr_left
    intro s hs
    have hmem : t.id? s ∈ ids.map some := hrhs ▸ List.mem_map_of_mem hs
    obtain ⟨i, -, hi⟩ := List.mem_map.mp hmem
    rw [← hi]
    apply htu s i hi.symm

/-- The symbols of a right-hand side and their numbers are in the same places. -/
theorem Numbers.exists_symbol {t : SymbolTable} {p : Production V} {r : Rule}
    (h : t.Numbers p r) {i : SymbolId} (hi : i ∈ r.rhs) :
  ∃ s ∈ p.rhs, t.id? s = some i
  := by
  have hmem : some i ∈ p.rhs.map t.id? := h.rhs ▸ List.mem_map_of_mem hi
  apply List.mem_map.mp hmem

end SymbolTable

/-! ### Rules -/

namespace Grammar

variable {V E : Type}

/-- The step of `numberRules`. -/
def numberNext (p : SymbolTable × Array Rule) (rule : Production V) :
    SymbolTable × Array Rule :=
  let lhs := p.1.intern rule.lhs
  let rhs := lhs.1.internMany rule.rhs
  (rhs.1, p.2.push ⟨lhs.2, rhs.2⟩)

theorem numberRules_eq (rules : List (Production V)) :
  numberRules rules = rules.foldl numberNext (reservedSymbols, #[])
  := rfl

theorem numbers_numberNext (p : SymbolTable × Array Rule) (rule : Production V) :
  p.1.Extends (numberNext p rule).1
    ∧ ∃ r, (numberNext p rule).2.toList = p.2.toList ++ [r]
      ∧ (numberNext p rule).1.Numbers rule r
  := by
  have hlhs := p.1.extends_intern rule.lhs
  have hrhs := (p.1.intern rule.lhs).1.extends_internMany rule.rhs
  refine ⟨hlhs.trans hrhs, _, Array.toList_push, ?_, ?_⟩
  · apply hrhs
    apply SymbolTable.id?_intern
  · apply SymbolTable.map_id?_internMany

theorem foldl_numberNext (rules : List (Production V)) (p : SymbolTable × Array Rule) :
  p.1.Extends (rules.foldl numberNext p).1
    ∧ ∃ numbered, (rules.foldl numberNext p).2.toList = p.2.toList ++ numbered
      ∧ List.Forall₂ (rules.foldl numberNext p).1.Numbers rules numbered
  := by
  induction rules generalizing p with
  | nil =>
      refine ⟨.refl _, [], ?_, .nil⟩
      simp
  | cons rule rest ih =>
      obtain ⟨hext, numbered, hlist, hforall⟩ := ih (numberNext p rule)
      obtain ⟨hnext, r, hr, hnumbers⟩ := numbers_numberNext p rule
      refine ⟨hnext.trans hext, r :: numbered, ?_, ?_⟩
      · rw [List.foldl_cons, hlist, hr]
        simp
      · apply List.Forall₂.cons (hnumbers.extend hext) hforall

theorem size_numberRules (rules : List (Production V)) :
  (numberRules rules).2.size = rules.length
  := by
  obtain ⟨-, numbered, hlist, hforall⟩ := foldl_numberNext rules (reservedSymbols, #[])
  rw [numberRules_eq, ← Array.length_toList, hlist, hforall.length_eq]
  simp

/-- The grammar of a language, if it makes one. -/
def numbered (language : Language V E) : Grammar where
  symbols := ((numberRules language.rules).1.intern language.start).1
  rules := (numberRules language.rules).2
  start := ((numberRules language.rules).1.intern language.start).2

/-- A language makes a grammar if some rule expands the start symbol and there are not too many
symbols and rules. -/
theorem ofLanguage_eq (language : Language V E) :
  ofLanguage language =
    if ∃ p ∈ language.rules, p.lhs = language.start then
      if (numberRules language.rules).1.size > maxSymbols then .error .tooManySymbols
      else if language.rules.length ≥ ruleLimit then .error .tooManyRules
      else .ok (numbered language)
    else .error (.startNotNonterminal language.start)
  := by
  have hany : (∃ p ∈ language.rules, p.lhs = language.start)
      ↔ language.rules.any (·.lhs = language.start) = true := by simp
  rw [ofLanguage, ← size_numberRules language.rules]
  simp only [hany]
  cases language.rules.any (·.lhs = language.start) with
  | false => rfl
  | true =>
      by_cases hsize : (numberRules language.rules).1.size > maxSymbols
      · simp only [hsize, if_true]
        rfl
      · by_cases hlimit : (numberRules language.rules).2.size ≥ ruleLimit
        · simp only [hsize, hlimit, if_true, if_false]
          rfl
        · simp only [hsize, hlimit, if_false]
          rfl

theorem eq_numbered_of_ofLanguage {g : Grammar} {language : Language V E}
    (h : ofLanguage language = .ok g) :
  (∃ p ∈ language.rules, p.lhs = language.start) ∧ g = numbered language
  := by
  rw [ofLanguage_eq] at h
  split at h
  · rename_i hexpands
    use hexpands
    split at h
    · cases h
    · split at h
      · cases h
      · apply (Except.ok.inj h).symm
  · cases h

/-- A grammar that has the rules and the start symbol of a language as numbers, and the two
reserved symbols in their places. -/
structure Encodes (g : Grammar) (language : Language V E) : Prop where
  rules : List.Forall₂ g.symbols.Numbers language.rules g.rules.toList
  start : g.symbols.id? language.start = some g.start
  endOfInput : g.symbols.id? .endOfInput = some endOfInputId
  startSymbol : g.symbols.id? .start = some startId
  expands : ∃ p ∈ language.rules, p.lhs = language.start

/-- The grammar of a language encodes it. -/
theorem encodes_of_ofLanguage {g : Grammar} {language : Language V E}
    (h : ofLanguage language = .ok g) :
  g.Encodes language
  := by
  obtain ⟨hexpands, rfl⟩ := eq_numbered_of_ofLanguage h
  obtain ⟨hext, numbered, hlist, hforall⟩ :=
    foldl_numberNext language.rules (reservedSymbols, #[])
  rw [← numberRules_eq] at hext hlist hforall
  have hintern := (numberRules language.rules).1.extends_intern language.start
  constructor
  · obtain rfl : (numberRules language.rules).2.toList = numbered := hlist
    apply hforall.imp
    intro p r hnumbers
    apply hnumbers.extend hintern
  · apply SymbolTable.id?_intern
  · apply hintern _ _ (hext _ _ (by decide))
  · apply hintern _ _ (hext _ _ (by decide))
  · apply hexpands

end Grammar

end ShiftReduce
