import ShiftReduce.Proofs.Grammar.Renaming
import ShiftReduce.Proofs.Parser.Simulation
import ShiftReduce.Proofs.Table.Renumbering

/-!
# Parsing with a renamed language

Names of labels and the order of rules do not matter.  The engine of a renamed language makes the
same steps on renamed lexemes, and so it builds the renamed tree or fails with the same error at
the same offset (`Engine.Renamed.parse_eq`).
-/

namespace ShiftReduce

variable {σ V E E' : Type} {ρ : String → String} {names : Set String} {f : Renumbering}
  {states : Equiv.Perm StateId}

/-! ### Renaming what a parse reads and returns -/

namespace ParseTree

mutual

/-- A tree with other labels. -/
def rename (ρ : String → String) : ParseTree → ParseTree
  | leaf kind text => leaf (kind.rename ρ) text
  | node kind children => node (kind.rename ρ) (renameForest ρ children)

/-- Several trees with other labels. -/
def renameForest (ρ : String → String) : List ParseTree → List ParseTree
  | [] => []
  | tree :: trees => rename ρ tree :: renameForest ρ trees

end

theorem renameForest_eq_map (trees : List ParseTree) :
  renameForest ρ trees = trees.map (rename ρ)
  := by
  induction trees with
  | nil => rfl
  | cons tree trees ih => rw [renameForest, ih, List.map_cons]

end ParseTree

/-- A lexeme with another label. -/
def Lexeme.rename (ρ : String → String) (lexeme : Lexeme V) : Lexeme V :=
  { lexeme with symbol := lexeme.symbol.rename ρ }

@[simp]
theorem Lexeme.symbol_rename (lexeme : Lexeme V) :
  (lexeme.rename ρ).symbol = lexeme.symbol.rename ρ
  := rfl

theorem Lexeme.isEndOfInput_rename (lexeme : Lexeme V) :
  (lexeme.rename ρ).isEndOfInput = lexeme.isEndOfInput
  := decide_eq_decide.mpr Symbol.rename_eq_endOfInput

/-- Lexemes with other labels. -/
def Input.rename (ρ : String → String) (input : Input V) : Input V :=
  ⟨input.rest.map (Lexeme.rename ρ), input.finish⟩

theorem Input.head_rename (input : Input V) :
  (input.rename ρ).head = input.head.rename ρ
  := by
  obtain ⟨rest, finish⟩ := input
  cases rest <;> rfl

theorem Input.tail_rename (input : Input V) :
  (input.rename ρ).tail = input.tail.rename ρ
  := by
  obtain ⟨rest, finish⟩ := input
  cases rest <;> rfl

/-- The same error, with other labels and under other numbers. -/
def ParseError.rename (ρ : String → String) (f : Renumbering) (states : Equiv.Perm StateId) :
    ParseError → ParseError
  | lex error => lex error
  | unexpected state symbol offset => unexpected (states state) (symbol.rename ρ) offset
  | conflict state symbol offset => conflict (states state) (symbol.rename ρ) offset
  | missingGoto state symbol => missingGoto (states state) (symbol.rename ρ)
  | unknownSymbol symbol offset => unknownSymbol (symbol.rename ρ) offset
  | unknownRule rule => unknownRule (f.ruleId rule)
  | interpretation message => interpretation message
  | emptyStateStack => emptyStateStack
  | emptyValueStack => emptyValueStack
  | endless => endless

/-- The renamed tree, or the same error with other labels and under other numbers. -/
def Parsed.rename (ρ : String → String) (f : Renumbering) (states : Equiv.Perm StateId)
    (parsed : Parsed σ ParseTree) : Parsed σ ParseTree :=
  match parsed.value with
  | .ok tree => ⟨.ok (tree.rename ρ), parsed.context⟩
  | .error e => ⟨.error (e.rename ρ f states), parsed.context⟩

/-- A configuration with other labels and under other numbers. -/
def Configuration.rename (ρ : String → String) (states : Equiv.Perm StateId)
    (c : Configuration σ ParseTree) : Configuration σ ParseTree where
  states := c.states.map states
  values := c.values.map (ParseTree.rename ρ)
  lookahead := c.lookahead.rename ρ
  input := c.input.rename ρ
  context := c.context

@[simp]
theorem Configuration.states_rename (c : Configuration σ ParseTree) :
  (c.rename ρ states).states = c.states.map states
  := rfl

@[simp]
theorem Configuration.lookahead_rename (c : Configuration σ ParseTree) :
  (c.rename ρ states).lookahead = c.lookahead.rename ρ
  := rfl

/-- A step with other labels and under other numbers. -/
def Step.rename (ρ : String → String) (f : Renumbering) (states : Equiv.Perm StateId) :
    Step σ ParseTree → Step σ ParseTree
  | next c => next (c.rename ρ states)
  | stop parsed => stop (parsed.rename ρ f states)

/-- The labels of the lexemes that are still to be read are among some names. -/
structure Configuration.Within (names : Set String) (c : Configuration σ V) : Prop where
  lookahead : c.lookahead.symbol.Within names
  rest : ∀ lexeme ∈ c.input.rest, lexeme.symbol.Within names

/-- A step reads no new labels. -/
theorem Configuration.Within.of_step {m : Engine σ V} {c c' : Configuration σ V}
    (hc : c.Within names) (h : m.step c = .next c') :
  c'.Within names
  := by
  have hreads : c.Reads (·.symbol.Within names) := ⟨hc.lookahead, hc.rest⟩
  obtain ⟨hlookahead, hrest⟩ := hreads.of_step (fun _ => Symbol.within_of_isReserved rfl) h
  exact ⟨hlookahead, hrest⟩

/-! ### Steps -/

namespace Engine

/-- The second engine is that of a renamed language.  Both build trees. -/
structure Renamed (ρ : String → String) (names : Set String) (f : Renumbering)
    (states : Equiv.Perm StateId) (m m' : Engine σ ParseTree) : Prop where
  table : m.table.Renumbered f states m'.table
  symbol : ∀ s : Symbol, s.Within names →
    m'.table.symbolId? (s.rename ρ) = (m.table.symbolId? s).map f.symbol
  production : ∀ index,
    Option.Rel (Production.Renames ρ) m.rules[index]? m'.rules[f.place index]?
  interpretation : m.interpretation = .trees
  interpretation' : m'.interpretation = .trees

variable {m m' : Engine σ ParseTree} {c : Configuration σ ParseTree}

/-- Accepting is the same. -/
theorem accept_rename (c : Configuration σ ParseTree) (q : StateId) :
  accept (c.rename ρ states) (states q) = (accept c q).rename ρ f states
  := by
  simp only [accept, Configuration.rename, Input.head_rename, Lexeme.isEndOfInput_rename]
  split
  · cases c.values <;> rfl
  · rfl

namespace Renamed

/-- Shifting is the same. -/
theorem shift_rename (h : Renamed ρ names f states m m') (c : Configuration σ ParseTree)
    (target : StateId) :
  m'.shift (c.rename ρ states) (states target) = (m.shift c target).rename ρ f states
  := by
  rw [shift, shift, h.interpretation, h.interpretation']
  simp only [Configuration.rename, Input.head_rename, Input.tail_rename]
  rfl

/-- The rules with matched numbers are renamed and have the same shape. -/
theorem rule?_rename (h : Renamed ρ names f states m m') (id : RuleId) :
  Option.Rel (fun (entry entry' : Production ParseTree × Reduction) =>
      entry.1.Renames ρ entry'.1 ∧ entry'.2 = ⟨f.symbol entry.2.lhs, entry.2.length⟩)
    (m.rule? id) (m'.rule? (f.ruleId id))
  := by
  cases id with
  | accept => apply Option.Rel.none
  | user index =>
      have hproduction := h.production index
      have hreduction := h.table.reduction index
      simp only [rule?, Renumbering.ruleId, RuleId.index?, ParseTable.reduction?, bind,
        Option.bind_some]
      generalize m.rules[index]? = p at hproduction ⊢
      generalize m'.rules[f.place index]? = p' at hproduction ⊢
      rw [hreduction]
      cases hproduction with
      | none => apply Option.Rel.none
      | some hrenames =>
          cases m.table.reductions[index]? with
          | none => apply Option.Rel.none
          | some shape => apply Option.Rel.some ⟨hrenames, rfl⟩

/-- Reducing is the same. -/
theorem reduce_rename (h : Renamed ρ names f states m m') (c : Configuration σ ParseTree)
    (id : RuleId) :
  m'.reduce (c.rename ρ states) (f.ruleId id) = (m.reduce c id).rename ρ f states
  := by
  have hrule := h.rule?_rename id
  rw [reduce, reduce, h.interpretation, h.interpretation']
  generalize m.rule? id = entry at hrule ⊢
  generalize m'.rule? (f.ruleId id) = entry' at hrule ⊢
  cases hrule with
  | none => rfl
  | @some entry entry' hentry =>
      obtain ⟨p, shape⟩ := entry
      obtain ⟨p', _⟩ := entry'
      obtain ⟨hrenames, rfl⟩ := hentry
      simp only [Configuration.rename, List.length_map, ← List.map_drop, ← List.map_take,
        ← List.map_reverse]
      by_cases hvalues : c.values.length < shape.length
      · rw [if_pos hvalues, if_pos hvalues]
        rfl
      · rw [if_neg hvalues, if_neg hvalues]
        cases c.states.drop shape.length with
        | nil => rfl
        | cons top below =>
            simp only [List.map_cons, Interpretation.trees, Interpretation.pure]
            have haction := h.table.action top shape.lhs
            generalize m.table.action? top shape.lhs = b at haction ⊢
            generalize m'.table.action? (states top) (f.symbol shape.lhs) = b' at haction ⊢
            rw [hrenames.lhs, ← ParseTree.renameForest_eq_map, ← ParseTree.rename]
            cases haction with
            | none => rfl
            | conflict => rfl
            | action hb => cases hb <;> rfl

/-- A step is the same. -/
theorem step_rename (h : Renamed ρ names f states m m') (hc : c.Within names) :
  m'.step (c.rename ρ states) = (m.step c).rename ρ f states
  := by
  rw [step, step, c.states_rename]
  cases c.states with
  | nil => rfl
  | cons q below =>
      simp only [List.map_cons, c.lookahead_rename, Lexeme.symbol_rename,
        h.symbol _ hc.lookahead]
      cases m.table.symbolId? c.lookahead.symbol with
      | none => rfl
      | some i =>
          have haction := h.table.action q i
          simp only [Option.map_some]
          generalize m.table.action? q i = b at haction ⊢
          generalize m'.table.action? (states q) (f.symbol i) = b' at haction ⊢
          cases haction with
          | none => rfl
          | conflict => rfl
          | action hb =>
              cases hb with
              | shift target => apply h.shift_rename
              | goto target => rfl
              | reduce id => apply h.reduce_rename
              | accept => apply accept_rename

/-! ### Runs -/

/-- The engine of the renamed language goes in step with that of the language. -/
theorem simulates (h : Renamed ρ names f states m m') :
  m.Simulates m' (fun c c' => c.Within names ∧ c' = c.rename ρ states)
    (Parsed.rename ρ f states)
  := by
  rintro c _ ⟨hc, rfl⟩
  rw [h.step_rename hc]
  cases hstep : m.step c with
  | stop parsed => apply Step.Matches.stop
  | next c' => apply Step.Matches.next ⟨hc.of_step hstep, rfl⟩

/-- What the engine of a renamed language makes of renamed lexemes is what the engine of the
language makes of the lexemes, with other labels and under other numbers. -/
theorem parse_eq (h : Renamed ρ names f states m m') {lexemes : List (Lexeme ParseTree)}
    (hlexemes : ∀ lexeme ∈ lexemes, lexeme.symbol.Within names) (context : σ) :
  m'.parse (lexemes.map (Lexeme.rename ρ)) context
    = (m.parse lexemes context).rename ρ f states
  := by
  have hinitial : Configuration.initial (lexemes.map (Lexeme.rename ρ)) context
      = (Configuration.initial lexemes context).rename ρ states := by
    have hinput : (⟨lexemes.map (Lexeme.rename ρ), 0⟩ : Input ParseTree)
        = Input.rename ρ ⟨lexemes, 0⟩ := rfl
    simp only [Configuration.initial, Configuration.rename, hinput, Input.head_rename,
      Input.tail_rename, List.map_cons, List.map_nil, h.table.start]
  obtain ⟨hlookahead, hrest⟩ := Configuration.Reads.initial
    (fun _ => Symbol.within_of_isReserved rfl) hlexemes context
  apply h.simulates.parse_eq ⟨⟨hlookahead, hrest⟩, hinitial⟩ rfl

end Renamed

end Engine

/-! ### Renamed languages -/

/-- Neither the names of the labels nor the order of the rules matter.  If the labels of a language
are renamed and its rules come in another order, it makes no grammar for the same reason as before,
or else, with each strategy, its table is of the same kind and has as many states and conflicts as
before.  Parsing the renamed lexemes then gives the same tree, with other labels, or the same error
at the same offset, with other labels and under other numbers. -/
theorem Language.outcome_of_renamed {language : Language ParseTree E}
    {language' : Language ParseTree E'} (hl : language.Definable) (hl' : language'.Definable)
    (h : language.Renamed ρ names language') :
  (∃ e, Grammar.ofLanguage language = .error e
      ∧ Grammar.ofLanguage language' = .error (e.rename ρ))
    ∨ ∃ g g' f, Grammar.ofLanguage language = .ok g ∧ Grammar.ofLanguage language' = .ok g'
      ∧ ∀ strategy, ∃ t t' states, ParseTable.generate g strategy = .ok t
        ∧ ParseTable.generate g' strategy = .ok t' ∧ t'.kind = t.kind
        ∧ t'.stateCount = t.stateCount ∧ t'.conflictCount = t.conflictCount
        ∧ ∀ lexemes : List (Lexeme ParseTree),
          (∀ lexeme ∈ lexemes, lexeme.symbol.Within names) → ∀ context : σ,
          (Engine.mk language'.rules t' .trees).parse (lexemes.map (Lexeme.rename ρ)) context
            = ((Engine.mk language.rules t .trees).parse lexemes context).rename ρ f states
  := by
  rcases Grammar.ofLanguage_renamed h hl hl' with herror | ⟨g, g', f, hg, hg', hrenamed⟩
  · exact .inl herror
  · right
    refine ⟨g, g', f, hg, hg', ?_⟩
    intro strategy
    have hproper := (Grammar.encodes_of_ofLanguage hg).proper hl
    have hproper' := (Grammar.encodes_of_ofLanguage hg').proper hl'
    obtain ⟨t, t', states, ht, ht', htable⟩ :=
      ParseTable.generate_renumbered hrenamed.numbers hproper hproper' strategy
    refine ⟨t, t', states, ht, ht', htable.kind, htable.stateCount, htable.conflictCount, ?_⟩
    intro lexemes hlexemes context
    obtain ⟨a, hover⟩ := ParseTable.exists_over_of_generate hproper ht
    obtain ⟨a', hover'⟩ := ParseTable.exists_over_of_generate hproper' ht'
    have hengine : Engine.Renamed (σ := σ) ρ names f states ⟨language.rules, t, .trees⟩
        ⟨language'.rules, t', .trees⟩ := by
      constructor
      · apply htable
      · intro s hs
        rw [ParseTable.symbolId?, ParseTable.symbolId?, hover.symbols, hover'.symbols]
        apply hrenamed.symbol s hs
      · apply hrenamed.production
      · rfl
      · rfl
    apply hengine.parse_eq hlexemes

/-- The small language with `a` and `b` exchanged, and its rules in the other order. -/
def Language.exchanged : Language ParseTree Empty where
  lexRules := []
  rules :=
    [{ lhs := .label "s", rhs := [.label "s", .label "a"] },
     { lhs := .label "s", rhs := [.label "b"] }]
  start := .label "s"

theorem Language.exchanged_definable :
  exchanged.Definable
  := definable_of_addRules rfl rfl

theorem Language.small_renamed :
  small.Renamed (Equiv.swap "a" "b") Set.univ exchanged
  where
  injOn := (Equiv.swap "a" "b").injective.injOn
  within _ _ _ _ := Set.mem_univ _
  startWithin _ _ := Set.mem_univ _
  rules := by decide
  start := by decide

/-- The grammar of the exchanged language. -/
def Grammar.exchanged : Grammar :=
  (Grammar.ofLanguage Language.exchanged).toOption.get (by decide)

theorem Grammar.ofLanguage_exchanged :
  Grammar.ofLanguage Language.exchanged = .ok exchanged
  := rfl

/-- The tables of the small language and of the exchanged one are merged and have four states and no
conflicts.  The tree of `a b` has a chain over `a`, and that of `b a` in the exchanged language is
the same with `a` and `b` exchanged. -/
theorem Language.outcome_of_renamed_small :
  small.Definable ∧ exchanged.Definable ∧ small.Renamed (Equiv.swap "a" "b") Set.univ exchanged
    ∧ ∃ t t', ParseTable.generate .small .mergedFirst = .ok t
      ∧ ParseTable.generate .exchanged .mergedFirst = .ok t'
      ∧ t.kind = .merged ∧ t'.kind = .merged ∧ t.stateCount = 4 ∧ t'.stateCount = 4
      ∧ t.conflictCount = 0 ∧ t'.conflictCount = 0
      ∧ ((Engine.mk small.rules t .trees).parse smallWord ()).value
        = .ok (.node (.label "s")
          [.node (.label "s") [.leaf (.label "a") "a"], .leaf (.label "b") "b"])
      ∧ ((Engine.mk exchanged.rules t' .trees).parse
          (smallWord.map (Lexeme.rename (Equiv.swap "a" "b"))) ()).value
        = .ok (.node (.label "s")
          [.node (.label "s") [.leaf (.label "b") "a"], .leaf (.label "a") "b"])
  := by
  use small_definable, exchanged_definable, small_renamed
  rcases outcome_of_renamed (σ := Unit) small_definable exchanged_definable small_renamed with
    ⟨e, he, -⟩ | ⟨g, g', f, hg, hg', houtcome⟩
  · rw [Grammar.ofLanguage_small] at he
    cases he
  · rw [Grammar.ofLanguage_small] at hg
    rw [Grammar.ofLanguage_exchanged] at hg'
    cases hg
    cases hg'
    obtain ⟨t, t', states, ht, ht', hkind, hstates, hconflicts, hparse⟩ := houtcome .mergedFirst
    have hshape : (ParseTable.generate .small .mergedFirst).toOption.map
        (fun t => (t.kind, t.stateCount, t.conflictCount)) = some (.merged, 4, 0) := by
      decide +kernel
    simp only [ht, Except.toOption, Option.map_some, Option.some.injEq, Prod.mk.injEq] at hshape
    obtain ⟨hmerged, hfour, hnone⟩ := hshape
    have hengine : (Parser.small .mergedFirst).engine = ⟨small.rules, t, .trees⟩ := by
      simp only [Parser.engine, Parser.small, Parser.building, ht]
    have htree := (Parser.small .mergedFirst).engine.value_of_run smallWord () 5
      (v := .node (.label "s")
        [.node (.label "s") [.leaf (.label "a") "a"], .leaf (.label "b") "b"]) (by decide +kernel)
    rw [hengine] at htree
    refine ⟨t, t', ht, ht', hmerged, hkind.trans hmerged, hfour, hstates.trans hfour, hnone,
      hconflicts.trans hnone, htree, ?_⟩
    rw [hparse smallWord (fun _ _ _ _ => Set.mem_univ _) (), Parsed.rename, htree]
    rfl

end ShiftReduce
