import ShiftReduce.ParseTree
import ShiftReduce.Proofs.Grammar.Proper

/-!
# Derivation trees

A tree is a derivation tree over some rules if each inner node is expanded by a rule to the
symbols of its subtrees, and no rule expands the symbol of a leaf.  What a forest of
derivation trees is read from are its leaves: if it has none the symbols of its roots vanish,
and else the first leaf begins them.
-/

namespace ShiftReduce

/-- No rule expands the symbol. -/
def IsTerminal {V : Type} (rules : List (Production V)) (s : Symbol) : Prop :=
  ∀ p ∈ rules, p.lhs ≠ s

instance {V : Type} (rules : List (Production V)) (s : Symbol) : Decidable (IsTerminal rules s) :=
  inferInstanceAs (Decidable (∀ p ∈ rules, p.lhs ≠ s))

/-- Some rule expands the symbol to the given ones. -/
def Expands {V : Type} (rules : List (Production V)) (s : Symbol) (l : List Symbol) : Prop :=
  ∃ p ∈ rules, p.lhs = s ∧ p.rhs = l

instance {V : Type} (rules : List (Production V)) (s : Symbol) (l : List Symbol) :
    Decidable (Expands rules s l) :=
  inferInstanceAs (Decidable (∃ p ∈ rules, p.lhs = s ∧ p.rhs = l))

namespace ParseTree

mutual

/-- The symbols and texts of the leaves of a tree, from left to right. -/
def leaves : ParseTree → List (Symbol × String)
  | leaf kind text => [(kind, text)]
  | node _ children => leavesOfForest children

/-- The symbols and texts of the leaves of several trees. -/
def leavesOfForest : List ParseTree → List (Symbol × String)
  | [] => []
  | tree :: trees => leaves tree ++ leavesOfForest trees

end

mutual

/-- Each inner node is expanded by a rule to the symbols of its subtrees, and the symbols of
the leaves are terminals. -/
def Derives {V : Type} (rules : List (Production V)) : ParseTree → Prop
  | leaf kind _ => IsTerminal rules kind
  | node kind children =>
    Expands rules kind (children.map ParseTree.kind) ∧ DerivesForest rules children

/-- All trees of a list are derivation trees. -/
def DerivesForest {V : Type} (rules : List (Production V)) : List ParseTree → Prop
  | [] => True
  | tree :: trees => Derives rules tree ∧ DerivesForest rules trees

end

/-! ### Forests -/

theorem leavesOfForest_append (ts us : List ParseTree) :
  leavesOfForest (ts ++ us) = leavesOfForest ts ++ leavesOfForest us
  := by
  induction ts with
  | nil => rfl
  | cons t ts ih =>
      rw [List.cons_append, leavesOfForest, leavesOfForest, ih, List.append_assoc]

theorem leavesOfForest_singleton (t : ParseTree) :
  leavesOfForest [t] = t.leaves
  := by
  rw [leavesOfForest, leavesOfForest, List.append_nil]

theorem derivesForest_iff {V : Type} {rules : List (Production V)} {ts : List ParseTree} :
  DerivesForest rules ts ↔ ∀ t ∈ ts, t.Derives rules
  := by
  induction ts with
  | nil => simp [DerivesForest]
  | cons t ts ih => simp [DerivesForest, ih]

/-- To prove something of all forests, prove it of the empty forest and of those whose first
tree is a leaf, or else a node that it holds of the subtrees of. -/
theorem forest_induction {P : List ParseTree → Prop} (nil : P [])
    (leaf : ∀ kind text ts, P ts → P (.leaf kind text :: ts))
    (node : ∀ kind children ts, P children → P ts → P (.node kind children :: ts))
    (ts : List ParseTree) :
  P ts
  := by
  refine ParseTree.rec_1 (motive_1 := fun t => ∀ ts, P ts → P (t :: ts)) (motive_2 := P)
    ?_ ?_ nil ?_ ts
  · intro kind text ts hts
    apply leaf kind text ts hts
  · intro kind children hchildren ts hts
    apply node kind children ts hchildren hts
  · intro t ts ht hts
    apply ht ts hts

end ParseTree

namespace Grammar

variable {V E : Type} {g : Grammar} {language : Language V E}

/-! ### Symbols and their numbers -/

/-- The symbols of the roots of some trees have the given numbers. -/
def NumbersForest (g : Grammar) (ts : List ParseTree) (s : List SymbolId) : Prop :=
  (ts.map ParseTree.kind).map g.symbols.id? = s.map some

theorem NumbersForest.eq_nil {s : List SymbolId} (h : g.NumbersForest [] s) :
  s = []
  := by
  cases s with
  | nil => rfl
  | cons i s => cases h

theorem NumbersForest.exists_cons {t : ParseTree} {ts : List ParseTree} {s : List SymbolId}
    (h : g.NumbersForest (t :: ts) s) :
  ∃ i s', s = i :: s' ∧ g.symbols.id? t.kind = some i ∧ g.NumbersForest ts s'
  := by
  cases s with
  | nil => cases h
  | cons i s' =>
      obtain ⟨hi, hs'⟩ := List.cons.inj h
      exact ⟨i, s', rfl, hi, hs'⟩

/-- A rule of the language has one in the same place of the grammar that stands for it. -/
theorem Encodes.exists_rule_at (h : g.Encodes language) {p : Production V}
    (hp : p ∈ language.rules) :
  ∃ index r, language.rules[index]? = some p ∧ g.rule? (.user index) = some r
    ∧ g.symbols.Numbers p r
  := by
  obtain ⟨index, hindex⟩ := List.mem_iff_getElem?.mp hp
  obtain ⟨hlt, rfl⟩ := List.getElem?_eq_some_iff.mp hindex
  have hlength := h.rules.length_eq
  refine ⟨index, _, hindex, ?_, h.rules.get hlt (hlength ▸ hlt)⟩
  rw [rule?_user, ← Array.getElem?_toList]
  apply List.getElem?_eq_getElem

/-- A symbol that is not reserved is a terminal of the grammar if no rule of the language
expands it. -/
theorem Encodes.isTerminal_iff (h : g.Encodes language) (hg : g.Proper) {s : Symbol}
    {i : SymbolId} (hi : g.symbols.id? s = some i) (hlabel : startId < i) :
  g.isTerminal i = true ↔ IsTerminal language.rules s
  := by
  rw [isTerminal_eq_not, Bool.not_eq_true', Bool.eq_false_iff, Ne, hg.isNonterminal_iff,
    not_iff_comm]
  constructor
  · intro hs
    rw [IsTerminal] at hs
    push Not at hs
    obtain ⟨p, hp, rfl⟩ := hs
    obtain ⟨index, r, -, hr, hnumbers⟩ := h.exists_rule_at hp
    use .user index, r, hr
    have hlhs := hnumbers.lhs
    rw [hi] at hlhs
    apply (Option.some.inj hlhs).symm
  · rintro ⟨id, r, hr, rfl⟩ hs
    cases id with
    | accept =>
        cases hr
        cases Nat.lt_irrefl _ hlabel
    | user index =>
        obtain ⟨p, hp, hnumbers⟩ := h.exists_production_at hr
        apply hs p (List.mem_of_getElem? hp)
        apply SymbolTable.id?_injective hnumbers.lhs hi

/-- Where a node is expanded, a rule of the grammar expands its number to those of its
subtrees. -/
theorem Encodes.exists_rule_of_expands (h : g.Encodes language) {s : Symbol} {i : SymbolId}
    (hi : g.symbols.id? s = some i) {ts : List ParseTree}
    (hs : Expands language.rules s (ts.map ParseTree.kind)) :
  ∃ index rhs p, language.rules[index]? = some p ∧ p.lhs = s
    ∧ g.rule? (.user index) = some ⟨i, rhs⟩ ∧ g.NumbersForest ts rhs
  := by
  obtain ⟨p, hp, rfl, hrhs⟩ := hs
  obtain ⟨index, ⟨lhs, rhs⟩, hindex, hr, hnumbers⟩ := h.exists_rule_at hp
  have hlhs := hnumbers.lhs
  rw [hi] at hlhs
  cases hlhs
  use index, rhs, p, hindex, rfl, hr
  rw [NumbersForest, ← hrhs]
  apply hnumbers.rhs

/-! ### First leaves -/

/-- A forest without leaves has roots that vanish, and the roots of one with leaves begin
with the first of these. -/
theorem Encodes.vanishes_or_begins (h : g.Encodes language) (hg : g.Proper)
    {ts : List ParseTree} (hts : ParseTree.DerivesForest language.rules ts)
    {s : List SymbolId} (hs : g.NumbersForest ts s) (hlabel : ∀ i ∈ s, startId < i) :
  ParseTree.leavesOfForest ts = [] ∧ g.Vanishes s
    ∨ ∃ first rest a, ParseTree.leavesOfForest ts = first :: rest
      ∧ g.symbols.id? first.1 = some a ∧ g.Begins s a
  := by
  induction ts using ParseTree.forest_induction generalizing s with
  | nil =>
      obtain rfl := hs.eq_nil
      apply Or.inl ⟨rfl, .nil⟩
  | leaf kind text ts _ =>
      obtain ⟨i, s', rfl, hi, -⟩ := hs.exists_cons
      refine Or.inr ⟨(kind, text), ParseTree.leavesOfForest ts, i, rfl, hi, .here ?_⟩
      apply getElem?_kinds_eq_terminal.mpr
      constructor
      · apply SymbolTable.lt_size hi
      · apply (h.isTerminal_iff hg hi (hlabel i List.mem_cons_self)).mpr hts.1
  | node kind children ts ihchildren ih =>
      obtain ⟨i, s', rfl, hi, hs'⟩ := hs.exists_cons
      obtain ⟨⟨hexpands, hchildren⟩, hts⟩ := hts
      obtain ⟨index, rhs, _, _, _, hr, hrhs⟩ := h.exists_rule_of_expands hi hexpands
      have hmem : ⟨i, rhs⟩ ∈ g.allRules := mem_allRules.mpr ⟨_, hr⟩
      have hleaves : ParseTree.leavesOfForest (.node kind children :: ts)
          = ParseTree.leavesOfForest children ++ ParseTree.leavesOfForest ts := rfl
      rw [hleaves]
      rcases ihchildren hchildren hrhs (fun j hj => (hg.of_mem_rhs hr hj).1) with
        ⟨hnil, hvanishes⟩ | ⟨first, rest, a, hcons, hfirst, hbegins⟩
      · rw [hnil, List.nil_append]
        rcases ih hts hs' (fun j hj => hlabel j (List.mem_cons_of_mem _ hj)) with
          ⟨hnil, hrest⟩ | ⟨first, rest, a, hcons, hfirst, hbegins⟩
        · apply Or.inl ⟨hnil, .cons hmem hvanishes hrest⟩
        · apply Or.inr ⟨first, rest, a, hcons, hfirst, .skip (.cons hmem hvanishes .nil) hbegins⟩
      · refine Or.inr ⟨first, rest ++ ParseTree.leavesOfForest ts, a, ?_, hfirst,
          .expand hmem hbegins⟩
        rw [hcons]
        rfl

end Grammar

end ShiftReduce
