import ShiftReduce.Proofs.Parser.Course
import ShiftReduce.Proofs.Parser.Halting

/-!
# Parses come to an end

With a generated table the reductions on a lookahead come to an end wherever a parse stands.
In an exact automaton the lookahead may follow what is reduced, so that it settles; a table
that is not over an exact automaton has no conflicts.  Each shift uses up a lexeme, because the
end of the input is never shifted, so there are finitely many shifts as well.
-/

namespace ShiftReduce

/-! ### Reductions with a generated table -/

section

variable {t : ParseTable} {g : Grammar} {a : Automaton} {x : SymbolId} {stack : List StateId}
  {γ : List SymbolId}

/-- Where the lookaheads of the states follow every prefix, a lookahead that is reduced on
settles after the reduction. -/
theorem Reduces.settles (h : t.Over g a) (hexact : a.Exact g) (hs : a.Spells stack γ)
    {index : Nat} {stack' : List StateId} (hreduces : Reduces t x index stack stack') :
  Settles t x stack'
  := by
  obtain ⟨q, below, rfl, haction⟩ := hreduces.exists_action
  obtain ⟨_, _, _, -, hq, hlook, hcomplete⟩ := h.looks_of_reduce haction
  have hfollows := hexact hs hq hlook
  have hsettles := settles_of_follows h hfollows (s := []) hcomplete.2 .nil hs
  cases hsettles with
  | shift haction' =>
      rw [haction] at haction'
      cases haction'
  | accept haction' =>
      rw [haction] at haction'
      cases haction'
  | clash hclash =>
      obtain ⟨_, _, haction'⟩ := hclash
      rw [haction] at haction'
      cases haction'
  | reduce hreduces' hafter =>
      obtain ⟨-, rfl⟩ := hreduces.unique hreduces'
      apply hafter

theorem halts_of_exact (h : t.Over g a) (hexact : a.Exact g) (hs : a.Spells stack γ) :
  Halts t x stack
  := by
  constructor
  rintro stack' ⟨index, hreduces⟩
  apply (hreduces.settles h hexact hs).halts

theorem halts_of_exact_or_clean (h : t.Over g a)
    (hcases : a.Exact g ∨ ∀ q x, ¬ t.Clashes q x) (hs : a.Spells stack γ) :
  Halts t x stack
  := by
  rcases hcases with hexact | hclean
  · apply halts_of_exact h hexact hs
  · apply halts_of_spells h (fun q => hclean q x) hs

end

namespace Engine

/-! ### Chains of reductions -/

/-- A number of reductions, one after the other, that lead from one configuration to
another. -/
inductive Chain {σ V : Type} (m : Engine σ V) :
    Nat → Configuration σ V → Configuration σ V → Prop where
  | nil (c : Configuration σ V) : Chain m 0 c c
  | cons {n : Nat} {id : RuleId} {c c' c'' : Configuration σ V}
      (haction : m.action? c = some (.reduce id)) (hstep : m.step c = .next c')
      (h : Chain m n c' c'') : Chain m (n + 1) c c''

section

variable {σ V : Type} {m : Engine σ V} {g : Grammar} {a : Automaton}
  {lexemes read : List (Lexeme V)} {γ : List SymbolId} {stack : List StateId}
  {values : List V} {input : Input V} {x : SymbolId}

/-- The chains from a configuration that does not reduce have no reductions. -/
theorem Chain.eq_zero {n : Nat} {c c' : Configuration σ V} (h : m.Chain n c c')
    (hc : ∀ id, m.action? c ≠ some (.reduce id)) :
  n = 0
  := by
  cases h with
  | nil => rfl
  | cons haction _ _ => cases hc _ haction

/-- Where the reductions on the lookahead come to an end the chains are bounded. -/
theorem Standing.exists_chain_le (h : m.table.Over g a)
    (hx : m.table.symbolId? input.head.symbol = some x) (hhalts : Halts m.table x stack)
    (hstanding : Standing a lexemes read γ stack values input) (context : σ) :
  ∃ k, ∀ n c', m.Chain n (.reading stack values input context) c' → n ≤ k
  := by
  induction hhalts generalizing γ values context with
  | intro stack _ ih =>
      obtain ⟨q, below, rfl⟩ := hstanding.spells.exists_eq_cons
      by_cases hnext : ∃ id c₁,
          m.action? (.reading (q :: below) values input context) = some (.reduce id)
            ∧ m.step (.reading (q :: below) values input context) = .next c₁
      · obtain ⟨id, c₁, haction, hstep⟩ := hnext
        obtain ⟨x', index, stack', r, value, context', hx', hreduces, hr, rfl⟩ :=
          hstanding.eq_of_reduce h haction hstep
        rw [hx] at hx'
        cases hx'
        obtain ⟨-, δ, hafter⟩ := hstanding.reduce h hreduces hr
        obtain ⟨k, hk⟩ := ih stack' ⟨index, hreduces⟩ (hafter value) context'
        use k + 1
        intro n c' hchain
        cases hchain with
        | nil => apply Nat.zero_le
        | cons _ hstep' hchain =>
            rw [hstep] at hstep'
            cases hstep'
            apply Nat.succ_le_succ (hk _ _ hchain)
      · use 0
        intro n c' hchain
        cases hchain with
        | nil => apply Nat.le_refl
        | cons haction hstep _ => cases hnext ⟨_, _, haction, hstep⟩

/-- Where the reductions on the lookahead come to an end, a parse does so if it does so after
the lookahead has been shifted. -/
theorem Standing.exists_ends_of_halts (h : m.table.Over g a)
    (hend : g.symbols.id? .endOfInput = some endOfInputId)
    (hx : m.table.symbolId? input.head.symbol = some x) (hhalts : Halts m.table x stack)
    (hstanding : Standing a lexemes read γ stack values input)
    (hshift : ∀ {γ stack values context}, input.tail.rest.length < input.rest.length →
      Standing a lexemes (read ++ [input.head]) γ stack values input.tail →
      ∃ parsed, m.Ends (.reading stack values input.tail context) parsed)
    (context : σ) :
  ∃ parsed, m.Ends (.reading stack values input context) parsed
  := by
  induction hhalts generalizing γ values context with
  | intro stack _ ih =>
      obtain ⟨q, below, rfl⟩ := hstanding.spells.exists_eq_cons
      have houtcome := hstanding.outcome h context
      cases hstep : m.step (.reading (q :: below) values input context) with
      | stop parsed => exact ⟨parsed, ends_of_stop hstep⟩
      | next c =>
          rw [hstep] at houtcome
          cases houtcome with
          | @shift _ _ value context' hx' haction =>
              obtain ⟨lexeme, rest, hrest, -, htail, -⟩ := exists_of_shift h hend hx' haction
              have hlt : input.tail.rest.length < input.rest.length := by
                rw [htail, hrest]
                apply Nat.lt_succ_self
              obtain ⟨parsed, hends⟩ := hshift hlt (hstanding.shift h hend hx' haction value)
              exact ⟨parsed, ends_of_next hstep hends⟩
          | @reduce _ index stack' r value context' hx' hreduces hr =>
              rw [hx] at hx'
              cases hx'
              obtain ⟨-, δ, hafter⟩ := hstanding.reduce h hreduces hr
              obtain ⟨parsed, hends⟩ := ih stack' ⟨index, hreduces⟩ (hafter value) context'
              exact ⟨parsed, ends_of_next hstep hends⟩

/-- From wherever a parse stands it comes to an end. -/
theorem Standing.exists_ends (h : m.table.Over g a)
    (hend : g.symbols.id? .endOfInput = some endOfInputId)
    (hcases : a.Exact g ∨ ∀ q x, ¬ m.table.Clashes q x)
    (hstanding : Standing a lexemes read γ stack values input) (context : σ) :
  ∃ parsed, m.Ends (.reading stack values input context) parsed
  := by
  induction hn : input.rest.length using Nat.strong_induction_on
    generalizing read γ stack values input context with
  | _ n ih =>
      cases hx : m.table.symbolId? input.head.symbol with
      | none =>
          obtain ⟨q, below, rfl⟩ := hstanding.spells.exists_eq_cons
          exact ⟨_, ends_of_stop (step_unknown hx)⟩
      | some x =>
          have hhalts : Halts m.table x stack :=
            halts_of_exact_or_clean h hcases hstanding.spells
          apply hstanding.exists_ends_of_halts h hend hx hhalts
          intro γ' stack' values' context' hlt hnext
          apply ih _ (hn ▸ hlt) hnext context' rfl

end

end Engine

namespace ParseTable.Generated

section Library

variable [PatternLibrary] {σ V E : Type} {p : Parser σ V E} {strategy : Strategy}

/-- With a generated table every parse comes to an end. -/
theorem ends_parseLexemes (hp : p.table.Generated strategy) (lexemes : List (Lexeme V))
    (context : σ) :
  p.engine.Ends (.initial lexemes context) (p.parseLexemes lexemes context)
  := by
  obtain ⟨g, a, h, hend, hcases⟩ := hp.exists_over
  have hover : p.engine.table.Over g a := h
  rw [Configuration.initial_eq]
  obtain ⟨parsed, hends⟩ := Engine.Standing.initial.exists_ends hover hend hcases context
  rw [Parser.parseLexemes, Engine.Ends.parse_eq hends]
  apply hends

/-- With a generated table every parse comes to an end after finitely many steps, whatever the
rules and the interpretation of the parser are, and wherever it comes to, only so many
reductions are made before the next shift. -/
theorem parse_ends (hp : p.table.Generated strategy) (lexemes : List (Lexeme V)) (context : σ) :
  (∃ n, p.engine.run n (.initial lexemes context) = some (p.parseLexemes lexemes context))
    ∧ ∀ read c, p.engine.Reached lexemes context read c →
      ∃ k, ∀ n c', p.engine.Chain n c c' → n ≤ k
  := by
  obtain ⟨g, a, h, hend, hcases⟩ := hp.exists_over
  have hover : p.engine.table.Over g a := h
  constructor
  · apply hp.ends_parseLexemes
  · intro read c hc
    obtain ⟨γ, q, below, values, input, context', rfl, hstanding⟩ := hc.exists_standing hover hend
    cases hx : p.engine.table.symbolId? input.head.symbol with
    | none =>
        use 0
        intro n c' hchain
        apply Nat.le_of_eq (hchain.eq_zero _)
        intro id haction
        simp [Engine.action?, Configuration.reading, hx] at haction
    | some x =>
        apply hstanding.exists_chain_le hover hx _ context'
        apply halts_of_exact_or_clean h hcases hstanding.spells

end Library

/-- The parser with the rules in the opposite order comes to an end also where a word of the
small language comes twice. -/
theorem parse_ends_small :
  (∃ n, swapped.engine.run n (.initial (Language.smallWord ++ Language.smallWord) ())
      = some (swapped.parseLexemes (Language.smallWord ++ Language.smallWord) ()))
    ∧ ∃ k, ∀ n c', swapped.engine.Chain n
      (.initial (Language.smallWord ++ Language.smallWord) ()) c' → n ≤ k
  := by
  have htable : swapped.table.Generated .mergedFirst :=
    (Parser.small_generated .mergedFirst).table_generated
  obtain ⟨hends, hchains⟩ :=
    parse_ends htable (Language.smallWord ++ Language.smallWord) ()
  exact ⟨hends, hchains _ _ .start⟩

end ParseTable.Generated

end ShiftReduce
