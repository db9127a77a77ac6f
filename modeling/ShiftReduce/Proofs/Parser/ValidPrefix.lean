import ShiftReduce.Proofs.Parser.Course
import ShiftReduce.Proofs.Parser.Sentence

/-!
# Valid prefixes

Whatever the interpretation of a parser does, its stack of states is that of the engine that
builds trees from lexemes with the same symbols (`Engine.Reached.exists_at`).  So where every
nonterminal has a derivation tree, the lexemes that have been shifted begin a sentence at every
moment.  And a lexeme that is not expected cannot come in a sentence: on the leaves of a
derivation tree the engine that builds trees would not have stopped there.
-/

namespace ShiftReduce

namespace Engine

section

variable {σ V E : Type} {m : Engine σ V} {g : Grammar} {a : Automaton}
  {lexemes read : List (Lexeme V)} {context : σ} {c : Configuration σ V}

/-- A parse ends as it does from a configuration that it comes to. -/
theorem Reached.ends (hc : m.Reached lexemes context read c) {parsed : Parsed σ V}
    (hends : m.Ends c parsed) :
  m.Ends (.initial lexemes context) parsed
  := by
  induction hc with
  | start => apply hends
  | shift _ _ hstep ih => apply ih (ends_of_next hstep hends)
  | reduce _ _ hstep ih => apply ih (ends_of_next hstep hends)

/-- The engine with the same table that builds trees by the rules of a language. -/
def treeBuilding (m : Engine σ V) (language : Language ParseTree E) : Engine Unit ParseTree :=
  ⟨language.rules, m.table, .trees⟩

variable {language : Language ParseTree E}

theorem treeBuilding_parses (m : Engine σ V) (h : m.table.Over g a)
    (hencodes : g.Encodes language) :
  (m.treeBuilding language).Parses language g a
  where
  isOver := h
  encodes := hencodes
  rules := rfl
  interpretation := rfl

/-- Where a parse comes to, the engine that builds trees comes to the same states on lexemes
with the same symbols. -/
theorem Reached.exists_at (hm : (m.treeBuilding language).Parses language g a)
    (hc : m.Reached lexemes context read c) {read' following : List (Lexeme ParseTree)}
    (hread : read'.map Lexeme.symbol = read.map Lexeme.symbol)
    (hfirst : firstSymbol following = c.lookahead.symbol) :
  ∃ γ values finish,
    At language g a (read' ++ following) γ c.states values ⟨following, finish⟩
      ∧ (m.treeBuilding language).Reached (read' ++ following) () read'
        (.reading c.states values ⟨following, finish⟩ ())
  := by
  have h : m.table.Over g a := hm.isOver
  have hend := hm.encodes.endOfInput
  have hsymbolId : ∀ s, m.table.symbolId? s = g.symbols.id? s := hm.symbolId?_eq
  induction hc generalizing read' following with
  | start =>
      obtain rfl := List.map_eq_nil_iff.mp hread
      exact ⟨[], [], 0, .initial, .start⟩
  | @shift read c c' target hc haction hstep ih =>
      rw [List.map_append] at hread
      obtain ⟨before, last, rfl, hbefore, hlast⟩ := List.map_eq_append_iff.mp hread
      obtain ⟨lexeme, rfl, hlexeme⟩ := List.map_eq_singleton_iff.mp hlast
      have hfirst' : firstSymbol (lexeme :: following) = c.lookahead.symbol := hlexeme
      obtain ⟨γ, values, finish, hat, hreached⟩ := ih hbefore hfirst'
      obtain ⟨_, q, below, _, input, _, rfl, hstanding⟩ := hc.exists_standing h hend
      obtain ⟨x, _, _, hx, hshift, rfl⟩ := hstanding.eq_of_shift h haction hstep
      have hknown :
          m.table.symbolId? (Input.head ⟨lexeme :: following, finish⟩).symbol = some x := by
        rw [← hx]
        apply congrArg m.table.symbolId? hlexeme
      have hx' := hsymbolId _ ▸ hknown
      have haction' : (m.treeBuilding language).action?
          (.reading (q :: below) values ⟨lexeme :: following, finish⟩ ())
            = some (.shift target) := by
        rw [← hshift]
        apply action?_reading hknown
      rw [List.append_assoc]
      refine ⟨x :: γ, _, _, hat.shift hm hx' hshift, ?_⟩
      apply hreached.shift haction' (hm.step_shift hx' hshift)
  | @reduce read c c' id hc haction hstep ih =>
      obtain ⟨_, q, below, _, input, _, rfl, hstanding⟩ := hc.exists_standing h hend
      obtain ⟨x, index, stack', r, _, _, hx, hreduces, hr, rfl⟩ :=
        hstanding.eq_of_reduce h haction hstep
      obtain ⟨γ, values, finish, hat, hreached⟩ := ih hread hfirst
      have hknown : m.table.symbolId? (Input.head ⟨following, finish⟩).symbol = some x := by
        rw [← hx, Input.symbol_head, hfirst]
        rfl
      have hx' := hsymbolId _ ▸ hknown
      have haction' : (m.treeBuilding language).action?
          (.reading (q :: below) values ⟨following, finish⟩ ()) = some (.reduce (.user index)) := by
        obtain ⟨_, _, hcons, hreduce⟩ := hreduces.exists_action
        cases hcons
        rw [← hreduce]
        apply action?_reading hknown
      obtain ⟨p, hp, -⟩ := hm.encodes.exists_production_at hr
      obtain ⟨δ, -, hle, hat'⟩ := hat.reduced hm hreduces hr hp
      refine ⟨r.lhs :: δ, _, _, hat', ?_⟩
      apply hreached.reduce haction' (hm.step_reduce hx' hreduces hp hr hle)

/-- A sentence does not go on with a symbol that has no action after its beginning. -/
theorem Reached.not_sentence (hm : (m.treeBuilding language).Parses language g a) {q : StateId}
    {below : List StateId} {values : List V} {input : Input V} {context' : σ} {x : SymbolId}
    (hc : m.Reached lexemes context read (.reading (q :: below) values input context'))
    (hx : m.table.symbolId? input.head.symbol = some x)
    (haction : m.table.action? q x = none ∨ ∃ target, m.table.action? q x = some (.goto target))
    {rest : List Symbol} (hrest : rest.headD .endOfInput = input.head.symbol) :
  ¬ language.Sentence (read.map Lexeme.symbol ++ rest)
  := by
  rintro ⟨t, ht, hkind, hleaves⟩
  -- the engine that builds trees parses the leaves, and comes to the same states
  obtain ⟨word, hword⟩ : ∃ word : List (Lexeme ParseTree), word.map Lexeme.content = t.leaves := by
    use t.leaves.map fun leaf => { symbol := leaf.1, text := leaf.2, offset := 0 }
    rw [List.map_map]
    apply List.map_id
  have hsymbols : word.map Lexeme.symbol = read.map Lexeme.symbol ++ rest := by
    rw [← hleaves, ← hword, List.map_map]
    rfl
  obtain ⟨read', following, rfl, hread, rfl⟩ := List.map_eq_append_iff.mp hsymbols
  have hfirst : firstSymbol following = input.head.symbol := by
    rw [← hrest]
    cases following <;> rfl
  obtain ⟨γ, trees, finish, -, hreached⟩ := hc.exists_at hm hread hfirst
  have hnil : firstSymbol ([] : List (Lexeme ParseTree)) = .endOfInput := rfl
  obtain ⟨parsed, hends, hcases⟩ := hm.ends_of_derives ht hkind hword hnil hnil ()
  rw [List.append_nil] at hends
  have hknown : m.table.symbolId? (Input.head ⟨following, finish⟩).symbol = some x := by
    rw [Input.symbol_head, hfirst, hx]
  have hstop : (m.treeBuilding language).step
      (.reading (q :: below) trees ⟨following, finish⟩ ()) = .stop _ :=
    step_unexpected hknown haction
  obtain rfl := hends.unique (hreached.ends (ends_of_stop hstop))
  rcases hcases with hvalue | ⟨-, _, _, _, hvalue⟩ <;> cases hvalue

/-- So such a symbol may not follow what has been read. -/
theorem Reached.not_mayFollow (hm : (m.treeBuilding language).Parses language g a) {q : StateId}
    {below : List StateId} {values : List V} {input : Input V} {context' : σ} {x : SymbolId}
    (hc : m.Reached lexemes context read (.reading (q :: below) values input context'))
    (hx : m.table.symbolId? input.head.symbol = some x)
    (haction : m.table.action? q x = none ∨ ∃ target, m.table.action? q x = some (.goto target)) :
  ¬ language.MayFollow (read.map Lexeme.symbol) input.head.symbol
  := by
  rw [Language.MayFollow]
  split
  · rename_i hend
    have hrest : ([] : List Symbol).headD .endOfInput = input.head.symbol := hend.symm
    rw [← List.append_nil (read.map Lexeme.symbol)]
    apply hc.not_sentence hm hx haction hrest
  · rintro ⟨rest, hsentence⟩
    rw [List.append_assoc] at hsentence
    apply hc.not_sentence hm hx haction _ hsentence
    rfl

end

end Engine

namespace Parser.Generated

section Library

variable [PatternLibrary] {σ V E : Type} {p : Parser σ V E} {strategy : Strategy}

/-- What has been shifted begins a sentence. -/
theorem beginsSentence_of_reached (hp : p.Generated strategy)
    (hproductive : p.language.Productive) {lexemes read : List (Lexeme V)} {context : σ}
    {c : Configuration σ V} (hc : p.engine.Reached lexemes context read c) :
  p.language.BeginsSentence (read.map Lexeme.symbol)
  := by
  obtain ⟨g, a, hencodes, hover⟩ := hp.exists_over
  have hm := p.engine.treeBuilding_parses hover hencodes.bare
  let bare (lexeme : Lexeme V) : Lexeme ParseTree :=
    { symbol := lexeme.symbol, text := lexeme.text, offset := lexeme.offset }
  have hread : (read.map bare).map Lexeme.symbol = read.map Lexeme.symbol := by
    rw [List.map_map]
    rfl
  have hfirst : firstSymbol [bare c.lookahead] = c.lookahead.symbol := rfl
  obtain ⟨γ, trees, finish, hat, -⟩ := hc.exists_at hm hread hfirst
  obtain ⟨read', hlexemes, hcontent, -⟩ := hat.consumed
  obtain rfl := List.append_cancel_right hlexemes
  obtain ⟨core, hcore⟩ := hover.faithful.exists_viable hat.spells
  have hforest : ParseTree.DerivesForest p.language.rules trees := by
    apply Language.derivesForest_bare.mp
    apply ParseTree.derivesForest_iff.mpr hat.derives
  have hbegins := hencodes.beginsSentence hover.proper hproductive hcore hforest hat.numbers
  rw [← hcontent, List.map_map] at hbegins
  rw [← hread]
  apply hbegins

/-- A lookahead that is not expected may not follow what has been shifted. -/
theorem not_mayFollow_of_stop (hp : p.Generated strategy) {lexemes read : List (Lexeme V)}
    {context context' : σ} {c : Configuration σ V}
    (hc : p.engine.Reached lexemes context read c) {q : StateId} {offset : Nat}
    (hstop : p.engine.step c
      = .stop ⟨.error (.unexpected q c.lookahead.symbol offset), context'⟩) :
  ¬ p.language.MayFollow (read.map Lexeme.symbol) c.lookahead.symbol
  := by
  obtain ⟨g, a, hencodes, hover⟩ := hp.exists_over
  have hover' : p.engine.table.Over g a := hover
  obtain ⟨_, _, _, _, input, _, rfl, hstanding⟩ := hc.exists_standing hover' hencodes.endOfInput
  rcases hstanding.of_unexpected hover' hencodes.endOfInput hstop rfl with
    ⟨-, x, hx, haction⟩ | ⟨hend, -, hne⟩
  · rw [← Language.mayFollow_bare]
    apply hc.not_mayFollow (p.engine.treeBuilding_parses hover hencodes.bare) hx haction
  · cases hne hend

/-- Where every nonterminal has a derivation tree, what a parse has shifted begins a sentence at
every moment, and a lookahead that is not expected may not follow it.  A parse that ends with
such an error has come to such a lookahead, or to the first end of the input with something
after it. -/
theorem shifts_valid_prefixes (hp : p.Generated strategy) (hproductive : p.language.Productive)
    (lexemes : List (Lexeme V)) (context : σ) :
  (∀ read c, p.engine.Reached lexemes context read c →
      p.language.BeginsSentence (read.map Lexeme.symbol)
        ∧ (∀ lexeme ∈ read, lexeme.symbol ≠ .endOfInput)
        ∧ (∃ following, lexemes = read ++ following
          ∧ c.lookahead.symbol = firstSymbol following)
        ∧ ∀ q offset context', p.engine.step c
            = .stop ⟨.error (.unexpected q c.lookahead.symbol offset), context'⟩ →
          ¬ p.language.MayFollow (read.map Lexeme.symbol) c.lookahead.symbol)
    ∧ ∀ q symbol offset,
      (p.parseLexemes lexemes context).value = .error (.unexpected q symbol offset) →
      ∃ read c, p.engine.Reached lexemes context read c
        ∧ p.engine.step c = .stop (p.parseLexemes lexemes context)
        ∧ (symbol = c.lookahead.symbol
          ∨ c.lookahead.symbol = .endOfInput ∧ symbol = c.input.head.symbol)
  := by
  obtain ⟨g, a, hencodes, hover⟩ := hp.exists_over
  have hover' : p.engine.table.Over g a := hover
  have hend := hencodes.endOfInput
  constructor
  · intro read c hc
    have hbegins := hp.beginsSentence_of_reached hproductive hc
    obtain ⟨_, _, _, _, input, _, rfl, hstanding⟩ := hc.exists_standing hover' hend
    exact ⟨hbegins, hstanding.unended, ⟨input.rest, hstanding.consumed, input.symbol_head⟩,
      fun _ _ _ hstop => hp.not_mayFollow_of_stop hc hstop⟩
  · intro q symbol offset herror
    have hne : (p.engine.parse lexemes context).value ≠ .error .endless := by
      rw [← parseLexemes, herror]
      simp
    obtain ⟨read, c, hc, hstop⟩ := (Engine.ends_parse hne).exists_reached
    use read, c, hc, hstop
    obtain ⟨_, _, _, _, input, _, rfl, hstanding⟩ := hc.exists_standing hover' hend
    rcases hstanding.of_unexpected hover' hend hstop herror with ⟨rfl, -⟩ | ⟨hlast, hsymbol, -⟩
    · apply Or.inl rfl
    · apply Or.inr ⟨hlast, hsymbol⟩

end Library

/-- No word of the small language begins with its first letter twice, and the parser says so when
it comes to the second one. -/
theorem shifts_valid_prefixes_small :
  ∃ read c, (Parser.small .canonicalOnly).engine.Reached
      (Language.smallWord.take 1 ++ Language.smallWord) () read c
    ∧ read.map Lexeme.symbol = [.label "a"] ∧ Language.small.BeginsSentence [.label "a"]
    ∧ c.lookahead.symbol = .label "a" ∧ ¬ Language.small.MayFollow [.label "a"] (.label "a")
  := by
  have hgenerated := Parser.small_generated .canonicalOnly
  have hproductive : Language.small.Productive := by
    have hderives : ParseTree.Derives Language.small.rules
        (.node (.label "s") [.leaf (.label "a") "a"]) := by
      simp only [ParseTree.Derives, ParseTree.DerivesForest]
      decide
    intro p hp
    refine ⟨_, hderives, ?_⟩
    revert p
    decide
  have hx : (Parser.small .canonicalOnly).engine.table.symbolId? (.label "a") = some 3 := by
    decide +kernel
  have hshift : (Parser.small .canonicalOnly).engine.table.action? startState 3
      = some (.shift 2) := by decide +kernel
  have hnone : (Parser.small .canonicalOnly).engine.table.action? 2 3 = none := by
    decide +kernel
  obtain ⟨hvalid, -⟩ := shifts_valid_prefixes hgenerated hproductive
    (Language.smallWord.take 1 ++ Language.smallWord) ()
  have hreached : (Parser.small .canonicalOnly).engine.Reached
      (Language.smallWord.take 1 ++ Language.smallWord) () (Language.smallWord.take 1)
      (.reading [2, startState] [.leaf (.label "a") "a"] ⟨Language.smallWord, 1⟩ ()) := by
    apply Engine.Reached.start.shift ((Engine.action?_reading hx).trans hshift)
    apply Engine.step_shift hx hshift
  obtain ⟨hbegins, -, -, hrefuses⟩ := hvalid _ _ hreached
  refine ⟨_, _, hreached, rfl, hbegins, rfl, hrefuses 2 0 () ?_⟩
  apply Engine.step_unexpected hx (.inl hnone)

end Parser.Generated

end ShiftReduce
