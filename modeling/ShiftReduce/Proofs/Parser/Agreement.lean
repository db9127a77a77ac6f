import ShiftReduce.Proofs.Parser.Admission
import ShiftReduce.Proofs.Parser.Halting
import ShiftReduce.Proofs.Parser.Soundness
import ShiftReduce.Proofs.Table.Matching

/-!
# Merged and canonical tables agree

An engine over an exact automaton and one with a table without conflicts for the same grammar
go in step (`Engine.Abreast`) until the first of them ends.  Where it ends at a lexeme that is
not admitted, the other one may still reduce, but since a reduction does not make the lexeme
admitted it can neither shift nor accept it, and its reductions come to an end.
-/

namespace ShiftReduce

namespace Engine

/-- The one result is the other, up to the state in which a lexeme is unexpected. -/
inductive Echoes {V : Type} : Except ParseError V → Except ParseError V → Prop where
  | ok (v : V) : Echoes (.ok v) (.ok v)
  | unexpected (q q' : StateId) (s : Symbol) (offset : Nat) :
      Echoes (.error (.unexpected q s offset)) (.error (.unexpected q' s offset))
  | unknownSymbol (s : Symbol) (offset : Nat) :
      Echoes (.error (.unknownSymbol s offset)) (.error (.unknownSymbol s offset))

variable {σ E : Type} {m m' : Engine σ ParseTree} {language : Language ParseTree E} {g : Grammar}
  {a a' : Automaton} {lexemes : List (Lexeme ParseTree)} {γ : List SymbolId}
  {stack stack' below' : List StateId} {q' : StateId} {x : SymbolId} {values : List ParseTree}
  {input : Input ParseTree} {context : σ}

/-- Without conflicts a lexeme that is not admitted is refused, maybe after some
reductions. -/
theorem At.ends_of_not_admits (hm : m.Parses language g a) (hclash : ∀ q x, ¬ m.table.Clashes q x)
    (hx : g.symbols.id? input.head.symbol = some x)
    (h : At language g a lexemes γ stack values input) (hne : ¬ Admits g γ x) (context : σ) :
  ∃ q, m.Ends (.reading stack values input context)
    ⟨.error (.unexpected q input.head.symbol input.head.offset), context⟩
  := by
  have hhalts := halts_of_spells hm.isOver (fun q => hclash q x) h.spells
  induction hhalts generalizing γ values with
  | intro stack _ ih =>
      obtain ⟨q, below, rfl⟩ := h.spells.exists_eq_cons
      have heffect := h.effect hm context
      generalize hstep : m.step (.reading (q :: below) values input context) = step
        at heffect
      cases heffect with
      | unknown hx' =>
          rw [hx] at hx'
          cases hx'
      | shift hx' haction =>
          rw [hx] at hx'
          cases hx'
          cases hne (admits_of_shift hm.isOver h.spells haction)
      | reduce hx' hreduces hr hp =>
          rw [hx] at hx'
          cases hx'
          obtain ⟨δ, rfl, -, h'⟩ := h.reduced hm hreduces hr hp
          have hne' : ¬ Admits g _ x := fun hadmits => hne (hadmits.of_reduced hr)
          obtain ⟨q', hends⟩ := ih _ ⟨_, hreduces⟩ h' hne'
          exact ⟨q', ends_of_next hstep hends⟩
      | accept hx' haction _ _ =>
          rw [hx] at hx'
          cases hx'
          cases hne (admits_of_accept hm.isOver h.spells haction)
      | more hx' haction _ =>
          rw [hx] at hx'
          cases hx'
          cases hne (admits_of_accept hm.isOver h.spells haction)
      | clash _ hc => cases hclash _ _ hc
      | unexpected _ _ => exact ⟨q, ends_of_stop hstep⟩

/-- One engine has a table without conflicts, and the other one is over an exact automaton of the
same grammar. -/
structure Paired (m m' : Engine σ ParseTree) (language : Language ParseTree E) (g : Grammar)
    (a a' : Automaton) : Prop where
  left : m.Parses language g a
  clean : ∀ q x, ¬ m.table.Clashes q x
  right : m'.Parses language g a'
  isExact : a'.Exact g

/-- The other table has no conflicts either where a prefix is spelled. -/
theorem Paired.not_clashes (hpair : Paired m m' language g a a')
    (hs' : a'.Spells (q' :: below') γ) :
  ¬ m'.table.Clashes q' x
  := by
  apply hpair.left.isOver.not_clashes_of_exact hpair.clean hpair.right.isOver hpair.isExact hs'

/-- Two engines have read the same lexemes and made the same trees of them. -/
structure Abreast (language : Language ParseTree E) (g : Grammar) (a a' : Automaton)
    (lexemes : List (Lexeme ParseTree)) (γ : List SymbolId) (stack stack' : List StateId)
    (values : List ParseTree) (input : Input ParseTree) : Prop where
  left : At language g a lexemes γ stack values input
  right : At language g a' lexemes γ stack' values input

namespace Abreast

/-- For each action of the one table there is one of the other that matches. -/
theorem exists_matching (hpair : Paired m m' language g a a')
    (h : Abreast language g a a' lexemes γ stack (q' :: below') values input) {b' : Action}
    (hb' : m'.table.action? q' x = some b') :
  ∃ q below b, stack = q :: below ∧ m.table.action? q x = some b ∧ b'.Matches b
  := by
  obtain ⟨q, below, rfl⟩ := h.left.spells.exists_eq_cons
  obtain ⟨b, hb, hmatches⟩ := hpair.left.isOver.exists_matching_action hpair.clean
    hpair.right.isOver hpair.isExact h.left.spells h.right.spells hb'
  exact ⟨q, below, b, rfl, hb, hmatches⟩

/-- What the one engine shifts is shifted by the other. -/
theorem exists_shift (hpair : Paired m m' language g a a')
    (h : Abreast language g a a' lexemes γ stack (q' :: below') values input) {target' : StateId}
    (haction' : m'.table.action? q' x = some (.shift target')) :
  ∃ q below target, stack = q :: below ∧ m.table.action? q x = some (.shift target)
  := by
  obtain ⟨q, below, b, hstack, hb, hmatches⟩ := h.exists_matching hpair haction'
  cases hmatches with
  | shift _ target => exact ⟨q, below, target, hstack, hb⟩

/-- What the one engine accepts is accepted by the other. -/
theorem exists_accept (hpair : Paired m m' language g a a')
    (h : Abreast language g a a' lexemes γ stack (q' :: below') values input)
    (haction' : m'.table.action? q' x = some .accept) :
  ∃ q below, stack = q :: below ∧ m.table.action? q x = some .accept
  := by
  obtain ⟨q, below, b, hstack, hb, hmatches⟩ := h.exists_matching hpair haction'
  cases hmatches with
  | accept => exact ⟨q, below, hstack, hb⟩

/-- What the one engine reduces by is reduced by by the other. -/
theorem exists_reduces (hpair : Paired m m' language g a a')
    (h : Abreast language g a a' lexemes γ stack stack' values input) {index : Nat}
    {stack₁' : List StateId} (hreduces' : Reduces m'.table x index stack' stack₁') :
  ∃ stack₁, Reduces m.table x index stack stack₁
  := by
  obtain ⟨q', below', rfl, haction'⟩ := hreduces'.exists_action
  obtain ⟨q, below, b, rfl, hb, hmatches⟩ := h.exists_matching hpair haction'
  cases hmatches with
  | reduce =>
      obtain ⟨_, _, _, stack₁, hindex, _, _, _, hreduces, _⟩ :=
        ShiftReduce.exists_reduces hpair.left.isOver h.left.spells hb
      cases hindex
      exact ⟨stack₁, hreduces⟩

/-- Where the engine over the exact automaton goes on, both do, and they stay abreast. -/
theorem next (hpair : Paired m m' language g a a')
    (h : Abreast language g a a' lexemes γ stack stack' values input)
    {c' : Configuration σ ParseTree}
    (hstep : m'.step (.reading stack' values input context) = .next c') :
  ∃ γ₁ stack₁ stack₁' values₁ input₁, c' = .reading stack₁' values₁ input₁ context
    ∧ m.step (.reading stack values input context)
      = .next (.reading stack₁ values₁ input₁ context)
    ∧ Abreast language g a a' lexemes γ₁ stack₁ stack₁' values₁ input₁
  := by
  obtain ⟨q', below', rfl⟩ := h.right.spells.exists_eq_cons
  have heffect := h.right.effect hpair.right context
  rw [hstep] at heffect
  cases heffect with
  | shift hx haction' =>
      obtain ⟨q, below, target, rfl, haction⟩ := h.exists_shift hpair haction'
      have hleft := h.left.shift hpair.left hx haction
      have hright := h.right.shift hpair.right hx haction'
      exact ⟨_, _, _, _, _, rfl, hpair.left.step_shift hx haction, hleft, hright⟩
  | reduce hx hreduces' hr hp =>
      obtain ⟨stack₁, hreduces⟩ := h.exists_reduces hpair hreduces'
      obtain ⟨δ, hγ, hle, hleft⟩ := h.left.reduced hpair.left hreduces hr hp
      obtain ⟨δ', hγ', -, hright⟩ := h.right.reduced hpair.right hreduces' hr hp
      obtain rfl : δ = δ' := List.append_cancel_left (hγ.symm.trans hγ')
      exact ⟨_, _, _, _, _, rfl, hpair.left.step_reduce hx hreduces hp hr hle, hleft, hright⟩

/-- Where the engine over the exact automaton ends, the other one ends with the same result, up
to the state. -/
theorem stop (hpair : Paired m m' language g a a')
    (h : Abreast language g a a' lexemes γ stack stack' values input)
    {parsed' : Parsed σ ParseTree}
    (hstep : m'.step (.reading stack' values input context) = .stop parsed') :
  ∃ parsed, m.Ends (.reading stack values input context) parsed
    ∧ Echoes parsed'.value parsed.value
  := by
  obtain ⟨q', below', rfl⟩ := h.right.spells.exists_eq_cons
  have heffect := h.right.effect hpair.right context
  rw [hstep] at heffect
  cases heffect with
  | unknown hx =>
      obtain ⟨q, below, rfl⟩ := h.left.spells.exists_eq_cons
      refine ⟨_, ends_of_stop (step_unknown (hpair.left.symbolId?_eq _ ▸ hx)), ?_⟩
      apply Echoes.unknownSymbol
  | @accept x t hx haction' hvalues hlast =>
      obtain ⟨q, below, rfl, haction⟩ := h.exists_accept hpair haction'
      refine ⟨⟨.ok t, context⟩, ends_of_stop ?_, .ok t⟩
      rw [step_accept (hpair.left.symbolId?_eq _ ▸ hx) haction, accept_reading, if_pos hlast,
        hvalues]
  | more hx haction' hlast =>
      obtain ⟨q, below, rfl, haction⟩ := h.exists_accept hpair haction'
      refine ⟨⟨.error (.unexpected q _ _), context⟩, ends_of_stop ?_, .unexpected _ _ _ _⟩
      rw [step_accept (hpair.left.symbolId?_eq _ ▸ hx) haction, accept_reading, if_neg hlast]
  | clash _ hclash' =>
      cases hpair.not_clashes h.right.spells hclash'
  | unexpected hx haction' =>
      have hne := not_admits hpair.right.isOver h.right.spells haction'
      obtain ⟨q, hends⟩ := h.left.ends_of_not_admits hpair.left hpair.clean hx hne context
      exact ⟨_, hends, .unexpected _ _ _ _⟩

end Abreast

/-- Where an engine over an exact automaton ends with a result, an engine with a table without
conflicts ends with the same result, up to the state. -/
theorem Paired.ends_of_ends (hpair : Paired m m' language g a a')
    {parsed' : Parsed σ ParseTree} (h : m'.Ends (.initial lexemes context) parsed') :
  ∃ parsed, m.Ends (.initial lexemes context) parsed ∧ Echoes parsed'.value parsed.value
  := by
  apply h.induction (I := fun c' => ∃ γ stack stack' values input,
    c' = .reading stack' values input context
      ∧ Abreast language g a a' lexemes γ stack stack' values input
      ∧ ∀ parsed, m.Ends (.reading stack values input context) parsed →
        m.Ends (.initial lexemes context) parsed)
  · rintro c c' ⟨γ, stack, stack', values, input, rfl, habreast, hends⟩ hstep
    obtain ⟨γ₁, stack₁, stack₁', values₁, input₁, rfl, hnext, habreast₁⟩ :=
      habreast.next hpair hstep
    use γ₁, stack₁, stack₁', values₁, input₁, rfl, habreast₁
    intro parsed hparsed
    apply hends parsed (ends_of_next hnext hparsed)
  · rintro c parsed' ⟨γ, stack, stack', values, input, rfl, habreast, hends⟩ hstep
    obtain ⟨parsed, hparsed, hechoes⟩ := habreast.stop hpair hstep
    exact ⟨parsed, hends parsed hparsed, hechoes⟩
  · refine ⟨[], _, _, [], _, Configuration.initial_eq lexemes context, ⟨.initial, .initial⟩, ?_⟩
    intro parsed hparsed
    apply hparsed

end Engine

namespace Parser.Generated

section Library

variable [PatternLibrary] {σ E : Type} {p p' : Parser σ ParseTree E}

/-- The engine of a parser with a merged table and that of the parser with the canonical table
are paired. -/
theorem exists_paired (hp : p.Generated .mergedFirst) (hkind : p.table.kind = .merged)
    (hp' : p'.Generated .canonicalOnly) (hlanguage : p'.language = p.language)
    (htrees : p.interpretation = .trees) (htrees' : p'.interpretation = .trees) :
  ∃ g a a', Engine.Paired p.engine p'.engine p.language g a a'
  := by
  obtain ⟨g, hg, htable⟩ := hp.table
  obtain ⟨g', hg', htable'⟩ := hp'.table
  rw [hlanguage, hg] at hg'
  cases hg'
  have hencodes := Grammar.encodes_of_ofLanguage hg
  have hproper := hencodes.proper hp.definable
  obtain ⟨a, hover⟩ := ParseTable.exists_over_of_generate hproper htable
  obtain ⟨t', ht', hover'⟩ := ParseTable.generate_canonicalOnly hproper
  rw [htable'] at ht'
  cases ht'
  use g, a, Automaton.canonical g
  constructor
  · exact ⟨hover, hencodes, rfl, htrees⟩
  · apply hover.not_clashes
    intro hconflicted
    cases hkind.symm.trans hconflicted
  · exact ⟨hover', hencodes, congrArg Language.rules hlanguage, htrees'⟩
  · exact (Automaton.canonical_drawn hproper).exact hproper

/-- A parser with a merged table returns the trees that the parser with the canonical table
does, and where the canonical table finds an unexpected lexeme or an unknown symbol, the merged
one finds the same one at the same offset. -/
theorem merged_agrees_with_canonical (hp : p.Generated .mergedFirst)
    (hkind : p.table.kind = .merged) (hp' : p'.Generated .canonicalOnly)
    (hlanguage : p'.language = p.language) (htrees : p.interpretation = .trees)
    (htrees' : p'.interpretation = .trees) (lexemes : List (Lexeme ParseTree)) (context : σ) :
  (∀ t, (p.parseLexemes lexemes context).value = .ok t
      ↔ (p'.parseLexemes lexemes context).value = .ok t)
    ∧ (∀ q s offset, (p'.parseLexemes lexemes context).value = .error (.unexpected q s offset) →
      ∃ q', (p.parseLexemes lexemes context).value = .error (.unexpected q' s offset))
    ∧ ∀ s offset, (p'.parseLexemes lexemes context).value = .error (.unknownSymbol s offset) →
      (p.parseLexemes lexemes context).value = .error (.unknownSymbol s offset)
  := by
  obtain ⟨g, a, a', hpair⟩ := exists_paired hp hkind hp' hlanguage htrees htrees'
  have hechoes : (p'.parseLexemes lexemes context).value ≠ .error .endless →
      Engine.Echoes (p'.parseLexemes lexemes context).value
        (p.parseLexemes lexemes context).value := by
    intro hne
    obtain ⟨parsed, hends, hechoes⟩ := hpair.ends_of_ends (Engine.ends_parse hne)
    rw [parseLexemes, parseLexemes, hends.parse_eq]
    apply hechoes
  refine ⟨fun t => ⟨?_, ?_⟩, ?_, ?_⟩
  · intro ht
    -- the tree is a derivation tree, and the canonical table meets no conflict on its leaves
    obtain ⟨hderives, hstart, read, following, rfl, hleaves, -, hend, hlast⟩ :=
      hpair.left.derives_of_ends (Engine.ends_of_parse_eq_ok ht) ht
    obtain ⟨parsed, hends, hvalue | ⟨⟨_, _, _, _, hs, hclash'⟩, -⟩⟩ :=
      hpair.right.ends_of_derives hderives hstart hleaves hend hlast context
    · rw [parseLexemes, hends.parse_eq, hvalue]
    · cases hpair.not_clashes hs hclash'
  · intro ht
    have hvalue := hechoes (by simp [ht])
    rw [ht] at hvalue
    generalize (p.parseLexemes lexemes context).value = result at hvalue ⊢
    cases hvalue with
    | ok => rfl
  · intro q s offset he
    have hvalue := hechoes (by simp [he])
    rw [he] at hvalue
    generalize (p.parseLexemes lexemes context).value = result at hvalue ⊢
    cases hvalue with
    | unexpected _ q' => exact ⟨q', rfl⟩
  · intro s offset he
    have hvalue := hechoes (by simp [he])
    rw [he] at hvalue
    generalize (p.parseLexemes lexemes context).value = result at hvalue ⊢
    cases hvalue with
    | unknownSymbol => rfl

end Library

end Parser.Generated

/-! ### A language whose table is smaller when it is merged -/

/-- A language whose words are two parts, each of them some `c` and a `d`. -/
def Language.doubled : Language ParseTree Empty where
  lexRules := []
  rules :=
    [{ lhs := .label "S", rhs := [.label "C", .label "C"] },
     { lhs := .label "C", rhs := [.label "c", .label "C"] },
     { lhs := .label "C", rhs := [.label "d"] }]
  start := .label "S"

theorem Language.doubled_definable :
  doubled.Definable
  := definable_of_addRules rfl rfl

/-- Its grammar. -/
def Grammar.doubled : Grammar :=
  (Grammar.ofLanguage Language.doubled).toOption.get (by decide)

theorem Grammar.ofLanguage_doubled :
  Grammar.ofLanguage Language.doubled = .ok doubled
  := rfl

/-- The lexemes of a word of the doubled language. -/
def Language.doubledWord : List (Lexeme ParseTree) :=
  [{ symbol := .label "c", text := "c", offset := 0 },
   { symbol := .label "d", text := "d", offset := 1 },
   { symbol := .label "d", text := "d", offset := 2 }]

/-- A parser of the doubled language. -/
def Parser.doubled (strategy : Strategy) : Parser Unit ParseTree Empty :=
  .building .doubled .doubled strategy

theorem Parser.doubled_generated (strategy : Strategy) :
  (Parser.doubled strategy).Generated strategy
  := Parser.building_generated Language.doubled_definable Grammar.ofLanguage_doubled strategy

/-- Three states of the doubled language are merged with others.  Both parsers return the tree of
a word.  Where the second part of the word is missing, both refuse the end of the input at the
same offset, but not in the same state. -/
theorem Parser.Generated.merged_agrees_with_canonical_doubled :
  (Parser.doubled .mergedFirst).table.stateCount = 7
    ∧ (Parser.doubled .canonicalOnly).table.stateCount = 10
    ∧ (∃ t, ((Parser.doubled .canonicalOnly).parseLexemes Language.doubledWord ()).value = .ok t
      ∧ ((Parser.doubled .mergedFirst).parseLexemes Language.doubledWord ()).value = .ok t)
    ∧ ((Parser.doubled .canonicalOnly).parseLexemes (Language.doubledWord.take 2) ()).value
      = .error (.unexpected 4 .endOfInput 2)
    ∧ ∃ q ≠ 4, ((Parser.doubled .mergedFirst).parseLexemes (Language.doubledWord.take 2) ()).value
      = .error (.unexpected q .endOfInput 2)
  := by
  have hkind : (Parser.doubled .mergedFirst).table.kind = .merged := by decide +kernel
  have hmerged := Parser.doubled_generated .mergedFirst
  have hcanonical := Parser.doubled_generated .canonicalOnly
  obtain ⟨t, ht⟩ := (Parser.doubled .canonicalOnly).engine.exists_value_of_run
    Language.doubledWord () 8 (by decide +kernel)
  have herror := (Parser.doubled .canonicalOnly).engine.error_of_run
    (Language.doubledWord.take 2) () 3 (e := .unexpected 4 .endOfInput 2) (by decide +kernel)
  have hlater := (Parser.doubled .mergedFirst).engine.error_of_run
    (Language.doubledWord.take 2) () 5 (e := .unexpected 2 .endOfInput 2) (by decide +kernel)
  obtain ⟨hvalue, -⟩ := merged_agrees_with_canonical hmerged hkind hcanonical rfl rfl rfl
    Language.doubledWord ()
  obtain ⟨-, hunexpected, -⟩ := merged_agrees_with_canonical hmerged hkind hcanonical rfl rfl rfl
    (Language.doubledWord.take 2) ()
  refine ⟨by decide +kernel, by decide +kernel, ⟨t, ht, (hvalue t).mpr ht⟩, herror, ?_⟩
  obtain ⟨q, hq⟩ := hunexpected _ _ _ herror
  refine ⟨q, ?_, hq⟩
  rintro rfl
  cases hlater.symm.trans hq

end ShiftReduce
