import Mathlib.Logic.Relation
import ShiftReduce.Proofs.Grammar.Passes

/-!
# Derivations step by step

A step of a derivation puts the right-hand side of a rule in place of one occurrence of its
left-hand side.  A sequence vanishes if the empty sequence is derived from it
(`Vanishes.iff_derivable`), and a terminal begins it if some sequence that starts with the
terminal is derived from it (`Begins.iff_derivable`).  So the passes over a list of rules find
exactly the symbols from which nothing may be left (`nullable_iff_derives_nothing`), and the
terminals that may come first (`FirstSets.first_iff_derives`).
-/

namespace ShiftReduce

/-- A rule is applied at one place of a sequence. -/
inductive Rewrites (rules : List Rule) : List SymbolId → List SymbolId → Prop where
  | step (before : List SymbolId) {r : Rule} (hr : r ∈ rules) (after : List SymbolId) :
      Rewrites rules (before ++ r.lhs :: after) (before ++ r.rhs ++ after)

/-- A sequence is derived from another one in zero or more steps. -/
abbrev Derivable (rules : List Rule) : List SymbolId → List SymbolId → Prop :=
  Relation.ReflTransGen (Rewrites rules)

variable {rules : List Rule} {s t : List SymbolId}

/-- A step may be made with anything before and after the sequence. -/
theorem Rewrites.within (h : Rewrites rules s t) (before after : List SymbolId) :
  Rewrites rules (before ++ s ++ after) (before ++ t ++ after)
  := by
  cases h with
  | step before' hr after' =>
      have hstep := Rewrites.step (before ++ before') hr (after' ++ after)
      simpa only [List.append_assoc, List.cons_append] using hstep

/-- Two sequences in a row are rewritten each by itself. -/
theorem Derivable.append {s' t' : List SymbolId} (hs : Derivable rules s s')
    (ht : Derivable rules t t') :
  Derivable rules (s ++ t) (s' ++ t')
  := by
  have hfirst : Derivable rules (s ++ t) (s' ++ t) := by
    apply hs.lift (· ++ t)
    intro u v h
    apply h.within []
  have hsecond : Derivable rules (s' ++ t) (s' ++ t') := by
    apply ht.lift (s' ++ ·)
    intro u v h
    simpa using h.within s' []
  apply hfirst.trans hsecond

/-- The right-hand side of a rule is derived from the left-hand side. -/
theorem Derivable.of_rule {i : SymbolId} {rhs : List SymbolId} (hr : ⟨i, rhs⟩ ∈ rules) :
  Derivable rules [i] rhs
  := by
  apply Relation.ReflTransGen.single
  simpa using Rewrites.step [] hr []

/-- The first symbol is replaced by what is derived from a right-hand side of it. -/
theorem Derivable.expand {i : SymbolId} {rhs rest rest' : List SymbolId}
    (hr : ⟨i, rhs⟩ ∈ rules) (hrhs : Derivable rules rhs t) (hrest : Derivable rules rest rest') :
  Derivable rules (i :: rest) (t ++ rest')
  := by
  have hfirst : Derivable rules [i] t := (Derivable.of_rule hr).trans hrhs
  apply Derivable.append hfirst hrest

/-! ### The empty sequence -/

/-- From a sequence that vanishes the empty one is derived. -/
theorem Vanishes.derivable (h : Vanishes rules s) :
  Derivable rules s []
  := by
  induction h with
  | nil => apply Relation.ReflTransGen.refl
  | cons hr _ _ ihrhs ihrest =>
      apply Derivable.expand hr ihrhs ihrest

/-- What is rewritten to a sequence that vanishes does so itself. -/
theorem Rewrites.vanishes (h : Rewrites rules s t) (ht : Vanishes rules t) :
  Vanishes rules s
  := by
  cases h with
  | step before hr after =>
      obtain ⟨hleft, hafter⟩ := Vanishes.append_iff.mp ht
      obtain ⟨hbefore, hrhs⟩ := Vanishes.append_iff.mp hleft
      apply Vanishes.append_iff.mpr ⟨hbefore, .cons hr hrhs hafter⟩

/-- A sequence vanishes if the empty one is derived from it. -/
theorem Vanishes.iff_derivable :
  Vanishes rules s ↔ Derivable rules s []
  := by
  constructor
  · apply Vanishes.derivable
  · intro h
    induction h using Relation.ReflTransGen.head_induction_on with
    | refl => apply Vanishes.nil
    | head h _ ih => apply h.vanishes ih

/-- With more rules no fewer sequences vanish. -/
theorem Vanishes.mono {rules' : List Rule} (hsub : rules ⊆ rules') (h : Vanishes rules s) :
  Vanishes rules' s
  := by
  induction h with
  | nil => apply Vanishes.nil
  | cons hr _ _ ihrhs ihrest => apply Vanishes.cons (hsub hr) ihrhs ihrest

/-- The nullable symbols are those from which the empty sequence is derived, which takes at
least one step. -/
theorem mem_nullableSymbols_iff {i : SymbolId} :
  i ∈ nullableSymbols rules ↔ Relation.TransGen (Rewrites rules) [i] []
  := by
  rw [mem_nullableSymbols, Vanishes.iff_derivable, Derivable,
    Relation.reflTransGen_iff_eq_or_transGen]
  simp

/-- The passes over any list of rules end, and find the symbols from which the empty sequence
is derived in one or more steps.  They are the same in whatever order the rules come, and with
more rules there are no fewer of them. -/
theorem nullable_iff_derives_nothing (rules : List Rule) :
  ∃ nullable, nullableByPasses rules = some nullable ∧ nullableSymbols rules = nullable
    ∧ (∀ i, i ∈ nullable ↔ Relation.TransGen (Rewrites rules) [i] [])
    ∧ (∀ rules', rules.Perm rules' → nullableByPasses rules' = some nullable)
    ∧ ∀ rules', rules ⊆ rules' →
      ∃ nullable', nullableByPasses rules' = some nullable' ∧ ∀ i ∈ nullable, i ∈ nullable'
  := by
  have hmono : ∀ {rules rules' : List Rule}, rules ⊆ rules' →
      ∀ i ∈ nullableSymbols rules, i ∈ nullableSymbols rules' := by
    intro rules rules' hsub i hi
    rw [mem_nullableSymbols] at hi ⊢
    apply hi.mono hsub
  use nullableSymbols rules, nullableByPasses_eq rules, rfl, fun i => mem_nullableSymbols_iff
  constructor
  · intro rules' hperm
    rw [nullableByPasses_eq]
    congr 1
    ext i
    constructor
    · apply hmono hperm.symm.subset
    · apply hmono hperm.subset
  · intro rules' hsub
    use nullableSymbols rules', nullableByPasses_eq rules'
    apply hmono hsub

/-- A chain of rules that make one symbol after the other vanish, those needed first at the
end, and two rules that only support each other. -/
def chainedRules : List Rule :=
  [⟨0, [1, 1]⟩, ⟨1, [2]⟩, ⟨2, []⟩, ⟨3, [4, 0]⟩, ⟨4, [3]⟩]

/-- From both ends the symbols of the chain are found, and the others are not. -/
theorem nullable_iff_derives_nothing_chained :
  nullableByPasses chainedRules = some (.ofList [0, 1, 2])
    ∧ nullableByPasses chainedRules.reverse = some (.ofList [0, 1, 2])
    ∧ Relation.TransGen (Rewrites chainedRules) [0] []
    ∧ ¬ Relation.TransGen (Rewrites chainedRules) [3] []
    ∧ ∃ nullable, nullableByPasses (⟨4, []⟩ :: chainedRules) = some nullable ∧ 0 ∈ nullable
  := by
  have hfound : nullableSymbols chainedRules = .ofList [0, 1, 2] := by decide
  obtain ⟨nullable, hpasses, hnullable, hmem, hperm, hmore⟩ :=
    nullable_iff_derives_nothing chainedRules
  rw [hfound] at hnullable
  subst hnullable
  refine ⟨hpasses, hperm _ (List.reverse_perm _).symm, (hmem 0).mp (by decide), ?_, ?_⟩
  · rw [← hmem]
    decide
  · obtain ⟨nullable', hpasses', hsub⟩ := hmore _ (List.subset_cons_self ⟨4, []⟩ _)
    exact ⟨nullable', hpasses', hsub 0 (by decide)⟩

/-! ### First symbols -/

variable {kinds : Array SymbolKind} {a : SymbolId}

/-- Where a terminal begins a sequence, one that starts with it is derived. -/
theorem Begins.derivable (h : Begins kinds rules s a) :
  ∃ rest, Derivable rules s (a :: rest)
  := by
  induction h with
  | @here a rest _ => exact ⟨rest, .refl⟩
  | @expand i a rhs rest hr _ ih =>
      obtain ⟨rest', ih⟩ := ih
      use rest' ++ rest
      apply Derivable.expand hr ih .refl
  | skip hi _ ih =>
      obtain ⟨rest', ih⟩ := ih
      use rest'
      apply Derivable.append hi.derivable ih

/-- What begins a sequence begins all that are rewritten to it. -/
theorem Rewrites.begins (h : Rewrites rules s t) (ht : Begins kinds rules t a) :
  Begins kinds rules s a
  := by
  cases h with
  | step before hr after =>
      rw [List.append_assoc] at ht
      rcases Begins.append_iff.mp ht with hbefore | ⟨hbefore, hafter⟩
      · apply hbefore.append_right
      · apply Begins.append_left hbefore
        rcases Begins.append_iff.mp hafter with hrhs | ⟨hrhs, hafter⟩
        · apply Begins.expand hr hrhs
        · apply Begins.skip (.cons hr hrhs .nil) hafter

/-- What begins a sequence are the terminals that come first in what is derived from it. -/
theorem Begins.iff_derivable :
  Begins kinds rules s a
    ↔ kinds[a]? = some .terminal ∧ ∃ rest, Derivable rules s (a :: rest)
  := by
  constructor
  · intro h
    exact ⟨h.isTerminal, h.derivable⟩
  · rintro ⟨ha, rest, h⟩
    induction h using Relation.ReflTransGen.head_induction_on with
    | refl => apply Begins.here ha
    | head h _ ih => apply h.begins ih

namespace FirstSets

/-- A table of kinds has all symbols of some rules, and the left-hand sides are nonterminals
in it. -/
structure Covers (kinds : Array SymbolKind) (rules : List Rule) : Prop where
  lhs : ∀ r ∈ rules, kinds[r.lhs]? = some .nonterminal
  rhs : ∀ r ∈ rules, ∀ i ∈ r.rhs, i < kinds.size

theorem Covers.lhs_lt (h : Covers kinds rules) {r : Rule} (hr : r ∈ rules) :
  r.lhs < kinds.size
  := by
  obtain ⟨hlt, -⟩ := Array.getElem?_eq_some_iff.mp (h.lhs r hr)
  apply hlt

/-- The first set of a symbol is that of the symbol as a sequence. -/
theorem ofSequence_singleton (f : FirstSets) (i : SymbolId) :
  f.ofSequence [i] ∅ = f.first i
  := by
  rw [ofSequence, ofSequence]
  split
  · ext a
    simp
  · rfl

/-- The passes over a list of rules end with a first set for each symbol, those of the rules
among them.  It holds the terminals that come first in what is derived from the symbol, and the
first set of a sequence holds those that come first in what is derived from the sequence,
together with the lookaheads if the empty sequence is derived from it.  So no nonterminal is in
a first set, and what begins the right-hand side of a rule is in that of the left-hand side. -/
theorem first_iff_derives (h : Covers kinds rules) :
  ∃ f, byPasses kinds rules = some f ∧ compute kinds rules = f ∧ f.sets.size = kinds.size
    ∧ (∀ r ∈ rules, ∀ i ∈ r.lhs :: r.rhs, i < f.sets.size)
    ∧ (∀ i a, a ∈ f.first i
      ↔ kinds[a]? = some .terminal ∧ ∃ rest, Derivable rules [i] (a :: rest))
    ∧ (∀ s l a, a ∈ f.ofSequence s l
      ↔ (kinds[a]? = some .terminal ∧ ∃ rest, Derivable rules s (a :: rest))
        ∨ Derivable rules s [] ∧ a ∈ l)
    ∧ (∀ i, ∀ a ∈ f.first i, kinds[a]? ≠ some .nonterminal)
    ∧ ∀ r ∈ rules, ∀ a ∈ f.ofSequence r.rhs ∅, a ∈ f.first r.lhs
  := by
  have hlt : ∀ r ∈ rules, r.lhs < kinds.size := fun r hr => h.lhs_lt hr
  have hsize : (compute kinds rules).sets.size = kinds.size :=
    grows_compute.size.trans size_initial
  have hsequence : ∀ s l a, a ∈ (compute kinds rules).ofSequence s l
      ↔ (kinds[a]? = some .terminal ∧ ∃ rest, Derivable rules s (a :: rest))
        ∨ Derivable rules s [] ∧ a ∈ l := by
    intro s l a
    rw [mem_ofSequence_compute hlt, Begins.iff_derivable, Vanishes.iff_derivable]
  have hfirst : ∀ i a, a ∈ (compute kinds rules).first i
      ↔ kinds[a]? = some .terminal ∧ ∃ rest, Derivable rules [i] (a :: rest) := by
    intro i a
    rw [← ofSequence_singleton, hsequence]
    simp
  refine ⟨_, byPasses_eq hlt, rfl, hsize, ?_, hfirst, hsequence, ?_, ?_⟩
  · intro r hr i hi
    rw [hsize]
    rcases List.mem_cons.mp hi with rfl | hi
    · apply hlt r hr
    · apply h.rhs r hr i hi
  · intro i a ha hkind
    have hterminal := ((hfirst i a).mp ha).1
    rw [hkind] at hterminal
    cases hterminal
  · intro r hr a ha
    rcases (hsequence r.rhs ∅ a).mp ha with ⟨hterminal, rest, hrest⟩ | ⟨-, hnone⟩
    · apply (hfirst r.lhs a).mpr ⟨hterminal, rest, _⟩
      apply (Derivable.of_rule hr).trans hrest
    · cases SymbolSet.not_mem_empty a hnone

/-- A left-recursive rule, a rule whose first symbol may vanish and whose second one has no
rules, and the rules of the first symbol: `S := S b`, `S := A U b`, `A :=`, `A := a A`, with the
numbers of `S`, `A`, `U`, `a` and `b` in this order. -/
def recursiveRules : List Rule :=
  [⟨0, [0, 4]⟩, ⟨0, [1, 2, 4]⟩, ⟨1, []⟩, ⟨1, [3, 1]⟩]

/-- The kinds of their symbols. -/
def recursiveKinds : Array SymbolKind :=
  #[.nonterminal, .nonterminal, .nonterminal, .terminal, .terminal]

/-- Only `a` comes first in what is derived from `S`, although no word of terminals is: the `b`
is hidden behind the symbol without rules. -/
theorem first_iff_derives_recursive :
  Covers recursiveKinds recursiveRules
    ∧ (∃ rest, Derivable recursiveRules [0] (3 :: rest))
    ∧ (¬ ∃ rest, Derivable recursiveRules [0] (4 :: rest))
    ∧ ∃ f, byPasses recursiveKinds recursiveRules = some f ∧ f.first 0 = .singleton 3
  := by
  have hcovers : Covers recursiveKinds recursiveRules := ⟨by decide, by decide⟩
  obtain ⟨f, hpasses, hf, -, -, hfirst, -⟩ := first_iff_derives hcovers
  have hset : f.first 0 = .singleton 3 := by
    rw [← hf]
    decide
  refine ⟨hcovers, ?_, ?_, f, hpasses, hset⟩
  · apply ((hfirst 0 3).mp _).2
    rw [hset]
    decide
  · intro hderives
    have hmem := (hfirst 0 4).mpr ⟨rfl, hderives⟩
    rw [hset] at hmem
    cases SymbolSet.mem_singleton.mp hmem

end FirstSets

end ShiftReduce
