import Mathlib.Logic.Equiv.Fintype
import ShiftReduce.Proofs.Item.Closure

/-!
# Renumbering grammars

The symbols and the rules of a grammar can be given other numbers.  The symbols are then of the
same kinds, and the rules derive the same, under the other numbers.
-/

namespace ShiftReduce

/-- If numbers below two bounds are matched, each with exactly one, the bounds are equal, and
the matching is part of a permutation. -/
theorem exists_perm_of_matching {n n' : Nat} {R : Nat → Nat → Prop}
    (hleft : ∀ i < n, ∃ j < n', R i j) (hright : ∀ j < n', ∃ i < n, R i j)
    (hunique : ∀ {i i' j j'}, R i j → R i' j' → (i = i' ↔ j = j')) :
  n' = n ∧ ∃ π : Equiv.Perm Nat, (∀ i, π i < n' ↔ i < n) ∧ ∀ i < n, R i (π i)
  := by
  choose f hlt hR using hleft
  let image : {i // i < n} → {j // j < n'} := fun i => ⟨f i.1 i.2, hlt i.1 i.2⟩
  have hbijective : Function.Bijective image := by
    constructor
    · intro i i' h
      apply Subtype.ext
      apply (hunique (hR i.1 i.2) (hR i'.1 i'.2)).mpr (Subtype.ext_iff.mp h)
    · intro j
      obtain ⟨i, hi, hij⟩ := hright j.1 j.2
      use ⟨i, hi⟩
      apply Subtype.ext
      apply (hunique (hR i hi) hij).mp rfl
  let e := Equiv.ofBijective image hbijective
  have hcard := Fintype.card_congr (Fin.equivSubtype.trans (e.trans Fin.equivSubtype.symm))
  rw [Fintype.card_fin, Fintype.card_fin] at hcard
  have hfinite : Finite {i | i < n} := Finite.of_equiv (Fin n) Fin.equivSubtype
  have hinside : ∀ i, i < n → e.extendSubtype i < n' := e.extendSubtype_mem
  have houtside : ∀ i, ¬ i < n → ¬ e.extendSubtype i < n' := e.extendSubtype_not_mem
  use hcard.symm, e.extendSubtype, fun i => ⟨not_imp_not.mp (houtside i), hinside i⟩
  intro i hi
  have heq : e.extendSubtype i = f i hi := e.extendSubtype_apply_of_mem i hi
  rw [heq]
  apply hR i hi

/-- The members of two lists at two places are related. -/
def RelatedAt {α β : Type} (r : α → β → Prop) (l : List α) (l' : List β) (i j : Nat) : Prop :=
  ∃ a b, l[i]? = some a ∧ l'[j]? = some b ∧ r a b

/-- If each member of one of two lists is related to exactly one place of the other one, the lists
are equally long, and their places are matched by a permutation. -/
theorem exists_perm_of_related {α β : Type} {r : α → β → Prop} {l : List α} {l' : List β}
    (hleft : ∀ a ∈ l, ∃ b ∈ l', r a b) (hright : ∀ b ∈ l', ∃ a ∈ l, r a b)
    (hfrom : ∀ {i i' : Nat} {a a' b}, l[i]? = some a → l[i']? = some a' → r a b → r a' b → i = i')
    (hto : ∀ {j j' : Nat} {a b b'}, l'[j]? = some b → l'[j']? = some b' → r a b → r a b' →
      j = j') :
  l'.length = l.length ∧ ∃ π : Equiv.Perm Nat, (∀ i, π i < l'.length ↔ i < l.length)
    ∧ ∀ i, Option.Rel r l[i]? l'[π i]?
  := by
  have hleft' : ∀ i < l.length, ∃ j < l'.length, RelatedAt r l l' i j := by
    intro i hi
    obtain ⟨b, hb, hr⟩ := hleft l[i] (List.getElem_mem hi)
    obtain ⟨j, hj, rfl⟩ := List.mem_iff_getElem.mp hb
    exact ⟨j, hj, _, _, List.getElem?_eq_getElem hi, List.getElem?_eq_getElem hj, hr⟩
  have hright' : ∀ j < l'.length, ∃ i < l.length, RelatedAt r l l' i j := by
    intro j hj
    obtain ⟨a, ha, hr⟩ := hright l'[j] (List.getElem_mem hj)
    obtain ⟨i, hi, rfl⟩ := List.mem_iff_getElem.mp ha
    exact ⟨i, hi, _, _, List.getElem?_eq_getElem hi, List.getElem?_eq_getElem hj, hr⟩
  have hunique : ∀ {i i' j j'}, RelatedAt r l l' i j → RelatedAt r l l' i' j' →
      (i = i' ↔ j = j') := by
    rintro i i' j j' ⟨a, b, ha, hb, hr⟩ ⟨a', b', ha', hb', hr'⟩
    constructor
    · rintro rfl
      obtain rfl := Option.some.inj (ha.symm.trans ha')
      apply hto hb hb' hr hr'
    · rintro rfl
      obtain rfl := Option.some.inj (hb.symm.trans hb')
      apply hfrom ha ha' hr hr'
  obtain ⟨hlength, π, hlt, hπ⟩ := exists_perm_of_matching hleft' hright' hunique
  use hlength, π, hlt
  intro i
  by_cases hi : i < l.length
  · obtain ⟨a, b, ha, hb, hr⟩ := hπ i hi
    rw [ha, hb]
    apply Option.Rel.some hr
  · have hi' := fun h => hi ((hlt i).mp h)
    rw [List.getElem?_eq_none (Nat.le_of_not_lt hi), List.getElem?_eq_none (Nat.le_of_not_lt hi')]
    apply Option.Rel.none

/-- Other numbers for the symbols, and other places for the rules. -/
structure Renumbering where
  symbol : Equiv.Perm SymbolId
  place : Equiv.Perm Nat

namespace Renumbering

/-- The renumbering that gives the former numbers back. -/
def symm (f : Renumbering) : Renumbering :=
  ⟨f.symbol.symm, f.place.symm⟩

/-- The number of a rule at its other place. -/
def ruleId (f : Renumbering) : RuleId → RuleId
  | .accept => .accept
  | .user index => .user (f.place index)

/-- A rule on the other numbers. -/
def rule (f : Renumbering) (r : Rule) : Rule :=
  ⟨f.symbol r.lhs, r.rhs.map f.symbol⟩

/-- A core of the rule at the other place. -/
def core (f : Renumbering) (c : Core) : Core :=
  ⟨f.ruleId c.rule, c.dot⟩

variable (f : Renumbering)

@[simp]
theorem symm_ruleId_ruleId (id : RuleId) :
  f.symm.ruleId (f.ruleId id) = id
  := by cases id <;> simp [ruleId, symm]

@[simp]
theorem symm_rule_rule (r : Rule) :
  f.symm.rule (f.rule r) = r
  := by simp [rule, symm]

@[simp]
theorem symm_core_core (c : Core) :
  f.symm.core (f.core c) = c
  := by simp [core]

@[simp]
theorem core_symm_core (c : Core) :
  f.core (f.symm.core c) = c
  := f.symm.symm_core_core c

@[simp]
theorem symm_symbol_symbol (i : SymbolId) :
  f.symm.symbol (f.symbol i) = i
  := f.symbol.symm_apply_apply i

@[simp]
theorem map_symm_map_symbol (γ : List SymbolId) :
  (γ.map f.symbol).map f.symm.symbol = γ
  := by simp [symm]

theorem core_surjective :
  Function.Surjective f.core
  := fun c => ⟨f.symm.core c, f.core_symm_core c⟩

theorem ruleId_injective :
  Function.Injective f.ruleId
  := Function.LeftInverse.injective f.symm_ruleId_ruleId

end Renumbering

/-! ### Grammars -/

namespace Grammar

/-- The second grammar has the symbols and the rules of the first one under other numbers.  The
reserved symbols keep theirs. -/
structure Renumbered (f : Renumbering) (g g' : Grammar) : Prop where
  endOfInput : f.symbol endOfInputId = endOfInputId
  startSymbol : f.symbol startId = startId
  start : g'.start = f.symbol g.start
  rules : ∀ index, g'.rules[f.place index]? = g.rules[index]?.map f.rule
  lt_iff : ∀ i, f.symbol i < g'.symbolCount ↔ i < g.symbolCount

namespace Renumbered

variable {f : Renumbering} {g g' : Grammar}

/-- The first grammar is the second one under the former numbers. -/
theorem symm (h : g.Renumbered f g') :
  g'.Renumbered f.symm g
  where
  endOfInput := f.symbol.symm_apply_eq.mpr h.endOfInput.symm
  startSymbol := f.symbol.symm_apply_eq.mpr h.startSymbol.symm
  start := (f.symbol.symm_apply_eq.mpr h.start).symm
  rules index := by
    have hrules := h.rules (f.place.symm index)
    rw [Equiv.apply_symm_apply] at hrules
    rw [hrules, Option.map_map]
    have hcomp : f.symm.rule ∘ f.rule = id := funext f.symm_rule_rule
    rw [hcomp, Option.map_id]
    rfl
  lt_iff i := by
    rw [← h.lt_iff]
    simp [Renumbering.symm]

/-- A rule has the other numbers at its other place. -/
theorem rule?_eq (h : g.Renumbered f g') (id : RuleId) :
  g'.rule? (f.ruleId id) = (g.rule? id).map f.rule
  := by
  cases id with
  | accept =>
      change some g'.accept = some (f.rule g.accept)
      rw [accept, accept, acceptingRule, acceptingRule, h.start, Renumbering.rule, h.startSymbol]
      rfl
  | user index => apply h.rules

theorem rule?_of_rule? (h : g.Renumbered f g') {id : RuleId} {r : Rule}
    (hr : g.rule? id = some r) :
  g'.rule? (f.ruleId id) = some (f.rule r)
  := by rw [h.rule?_eq, hr, Option.map_some]

theorem mem_allRules (h : g.Renumbered f g') {r : Rule} (hr : r ∈ g.allRules) :
  f.rule r ∈ g'.allRules
  := by
  obtain ⟨id, hid⟩ := Grammar.mem_allRules.mp hr
  exact Grammar.mem_allRules.mpr ⟨_, h.rule?_of_rule? hid⟩

theorem mem_rulesFor (h : g.Renumbered f g') {id : RuleId} {i : SymbolId}
    (hid : id ∈ g.rulesFor i) :
  f.ruleId id ∈ g'.rulesFor (f.symbol i)
  := by
  obtain ⟨r, hr, rfl⟩ := Grammar.mem_rulesFor.mp hid
  exact Grammar.mem_rulesFor.mpr ⟨_, h.rule?_of_rule? hr, rfl⟩

/-- The symbols after a dot are the same. -/
theorem after_eq (h : g.Renumbered f g') (c : Core) :
  (f.core c).after g' = (c.after g).map f.symbol
  := by
  rw [Core.after, Core.after, Renumbering.core, h.rule?_eq]
  cases g.rule? c.rule with
  | none => rfl
  | some r => simp [Renumbering.rule]

theorem after_eq_cons (h : g.Renumbered f g') {c : Core} {i : SymbolId} {rest : List SymbolId}
    (hc : c.after g = i :: rest) :
  (f.core c).after g' = f.symbol i :: rest.map f.symbol
  := by rw [h.after_eq, hc, List.map_cons]

/-- Symbols are of the same kinds. -/
theorem getElem?_kinds_eq (h : g.Renumbered f g') (i : SymbolId) :
  g'.kinds[f.symbol i]? = g.kinds[i]?
  := by
  have hstart : f.symbol i = startId ↔ i = startId := by
    rw [← f.symbol.injective.eq_iff (a := i), h.startSymbol]
  have hexpands : (∃ r ∈ g'.rules, r.lhs = f.symbol i) ↔ ∃ r ∈ g.rules, r.lhs = i := by
    constructor
    · rintro ⟨r, hr, hlhs⟩
      obtain ⟨index, hindex⟩ := Array.mem_iff_getElem?.mp hr
      have hrules := h.symm.rules index
      rw [hindex] at hrules
      refine ⟨_, Array.mem_of_getElem? hrules, ?_⟩
      rw [Renumbering.rule, hlhs]
      apply f.symm_symbol_symbol
    · rintro ⟨r, hr, rfl⟩
      obtain ⟨index, hindex⟩ := Array.mem_iff_getElem?.mp hr
      have hrules := h.rules index
      rw [hindex] at hrules
      exact ⟨_, Array.mem_of_getElem? hrules, rfl⟩
  rw [getElem?_kinds, getElem?_kinds]
  simp only [h.lt_iff, hstart, hexpands]

theorem isTerminal_eq (h : g.Renumbered f g') (i : SymbolId) :
  g'.isTerminal (f.symbol i) = g.isTerminal i
  := by rw [isTerminal, isTerminal, kind, kind, h.getElem?_kinds_eq]

/-! ### What the rules derive -/

theorem vanishes (h : g.Renumbered f g') {s : List SymbolId} (hs : g.Vanishes s) :
  g'.Vanishes (s.map f.symbol)
  := by
  induction hs with
  | nil => apply ShiftReduce.Vanishes.nil
  | cons hr _ _ ihrhs ihrest => apply ShiftReduce.Vanishes.cons (h.mem_allRules hr) ihrhs ihrest

theorem begins (h : g.Renumbered f g') {s : List SymbolId} {a : SymbolId} (ha : g.Begins s a) :
  g'.Begins (s.map f.symbol) (f.symbol a)
  := by
  induction ha with
  | here ha =>
      apply ShiftReduce.Begins.here
      rw [h.getElem?_kinds_eq, ha]
  | expand hr _ ih => apply ShiftReduce.Begins.expand (h.mem_allRules hr) ih
  | skip hi _ ih => apply ShiftReduce.Begins.skip (h.vanishes hi) ih

end Renumbered

end Grammar

end ShiftReduce
