import ShiftReduce.Parser.Basic
import ShiftReduce.Proofs.Parser.DerivationTree
import ShiftReduce.Proofs.Parser.Reduction

/-!
# Steps of an engine that builds trees

An engine that parses a language has the rules of the language and a table over a faithful
automaton of its grammar, and builds trees.  Its steps are those of the table on the stack
of states, and they build the stack of trees along the way.
-/

namespace ShiftReduce

/-- The symbol of the first lexeme; where there is none that is the end of the input. -/
def firstSymbol {V : Type} (lexemes : List (Lexeme V)) : Symbol :=
  match lexemes with
  | [] => .endOfInput
  | lexeme :: _ => lexeme.symbol

/-- The lexemes before the first end of input. -/
def beforeEnd {V : Type} (lexemes : List (Lexeme V)) : List (Lexeme V) :=
  lexemes.takeWhile (·.symbol ≠ .endOfInput)

/-- The lexemes after the first end of input. -/
def afterEnd {V : Type} (lexemes : List (Lexeme V)) : List (Lexeme V) :=
  (lexemes.dropWhile (·.symbol ≠ .endOfInput)).tail

section

variable {V : Type} {read following : List (Lexeme V)}

theorem symbol_ne_of_mem_beforeEnd {lexemes : List (Lexeme V)} :
  ∀ lexeme ∈ beforeEnd lexemes, lexeme.symbol ≠ .endOfInput
  := by
  intro lexeme hlexeme
  apply of_decide_eq_true (List.all_eq_true.mp List.all_takeWhile lexeme hlexeme)

/-- The lexemes before the first end of input, and then nothing or that end of input, are all
lexemes. -/
theorem exists_eq_beforeEnd_append (lexemes : List (Lexeme V)) :
  ∃ following, lexemes = beforeEnd lexemes ++ following
    ∧ firstSymbol following = .endOfInput ∧ afterEnd lexemes = following.tail
  := by
  refine ⟨_, List.takeWhile_append_dropWhile.symm, ?_, rfl⟩
  have hhead := List.head?_dropWhile_not (fun l : Lexeme V => decide (l.symbol ≠ .endOfInput))
    lexemes
  cases hdrop : lexemes.dropWhile (·.symbol ≠ .endOfInput) with
  | nil => rfl
  | cons lexeme following =>
      rw [hdrop] at hhead
      apply not_not.mp (of_decide_eq_false hhead)

/-- There is one way only to split lexemes at the first end of input. -/
theorem beforeEnd_append (hread : ∀ lexeme ∈ read, lexeme.symbol ≠ .endOfInput)
    (h : firstSymbol following = .endOfInput) :
  beforeEnd (read ++ following) = read
  := by
  have hnil : following.takeWhile (·.symbol ≠ .endOfInput) = [] := by
    cases following with
    | nil => rfl
    | cons lexeme following =>
        have hlexeme : lexeme.symbol = .endOfInput := h
        simp [hlexeme]
  rw [beforeEnd, List.takeWhile_append_of_pos, hnil, List.append_nil]
  intro lexeme hlexeme
  apply decide_eq_true (hread lexeme hlexeme)

end

theorem Input.symbol_head {V : Type} (input : Input V) :
  input.head.symbol = firstSymbol input.rest
  := by
  obtain ⟨rest, finish⟩ := input
  cases rest <;> rfl

theorem Input.rest_tail {V : Type} (input : Input V) :
  input.tail.rest = input.rest.tail
  := by
  obtain ⟨rest, finish⟩ := input
  cases rest <;> rfl

/-- The configuration in which the first lexeme of the input is read next. -/
def Configuration.reading {σ V : Type} (states : List StateId) (values : List V)
    (input : Input V) (context : σ) : Configuration σ V :=
  ⟨states, values, input.head, input.tail, context⟩

theorem Configuration.initial_eq {σ V : Type} (lexemes : List (Lexeme V)) (context : σ) :
  Configuration.initial lexemes context = .reading [startState] [] ⟨lexemes, 0⟩ context
  := rfl

/-- Whether a parse has ended with an error. -/
def Parsed.failsWith {σ V : Type} (parsed : Parsed σ V) (e : ParseError) : Bool :=
  match parsed.value with
  | .error e' => e' = e
  | .ok _ => false

namespace Engine

/-! ### Ends of runs -/

/-- From a configuration the parse ends, and in the given way. -/
def Ends {σ V : Type} (m : Engine σ V) (c : Configuration σ V) (parsed : Parsed σ V) : Prop :=
  ∃ n, m.run n c = some parsed

section

variable {σ V : Type} {m : Engine σ V} {c c' : Configuration σ V} {parsed parsed' : Parsed σ V}

theorem ends_of_stop (h : m.step c = .stop parsed) :
  m.Ends c parsed
  := by
  use 1
  rw [run, h]

theorem ends_of_next (h : m.step c = .next c') (h' : m.Ends c' parsed) :
  m.Ends c parsed
  := by
  obtain ⟨n, hn⟩ := h'
  use n + 1
  rw [run, h]
  apply hn

/-- A parse ends in one way at most. -/
theorem Ends.unique (h : m.Ends c parsed) (h' : m.Ends c parsed') :
  parsed = parsed'
  := by
  obtain ⟨n, hn⟩ := h
  obtain ⟨k, hk⟩ := h'
  have hn' := run_add hn k
  have hk' := run_add hk n
  rw [Nat.add_comm, hn'] at hk'
  apply Option.some.inj hk'

/-- What a parse returns is how it ends. -/
theorem Ends.parse_eq {lexemes : List (Lexeme V)} {context : σ}
    (h : m.Ends (.initial lexemes context) parsed) :
  m.parse lexemes context = parsed
  := by
  rw [parse, loop_eq_some_iff.mpr h]
  rfl

/-- A parse that does not return that it is endless ends as it returns. -/
theorem ends_parse {lexemes : List (Lexeme V)} {context : σ}
    (h : (m.parse lexemes context).value ≠ .error .endless) :
  m.Ends (.initial lexemes context) (m.parse lexemes context)
  := by
  rw [parse] at h ⊢
  cases hloop : m.loop (.initial lexemes context) with
  | none =>
      rw [hloop] at h
      cases h rfl
  | some parsed => apply loop_eq_some_iff.mp hloop

/-- A parse returns a value if and only if it ends with it. -/
theorem parse_eq_ok_iff {lexemes : List (Lexeme V)} {context context' : σ} {value : V} :
  m.parse lexemes context = ⟨.ok value, context'⟩
    ↔ m.Ends (.initial lexemes context) ⟨.ok value, context'⟩
  := by
  constructor
  · intro h
    rw [← h]
    apply ends_parse
    rw [h]
    intro hvalue
    cases hvalue
  · apply Ends.parse_eq

theorem ends_of_parse_eq_ok {lexemes : List (Lexeme V)} {context : σ} {value : V}
    (h : (m.parse lexemes context).value = .ok value) :
  m.Ends (.initial lexemes context) (m.parse lexemes context)
  := by
  apply ends_parse
  rw [h]
  intro hvalue
  cases hvalue

/-- What holds of the end of a run holds of the end of the parse. -/
theorem parse_of_run (m : Engine σ V) (lexemes : List (Lexeme V)) (context : σ) (n : Nat)
    {P : Parsed σ V → Bool} (h : (m.run n (.initial lexemes context)).any P = true) :
  P (m.parse lexemes context) = true
  := by
  obtain ⟨parsed, hrun, hP⟩ := (Option.any_eq_true _ _).mp h
  rw [Ends.parse_eq ⟨n, hrun⟩]
  apply hP

/-- A run that ends with a value is how the parse ends. -/
theorem exists_value_of_run (m : Engine σ V) (lexemes : List (Lexeme V)) (context : σ) (n : Nat)
    (h : (m.run n (.initial lexemes context)).any (·.value.isOk) = true) :
  ∃ v, (m.parse lexemes context).value = .ok v
  := by
  have hok := m.parse_of_run lexemes context n h
  cases hvalue : (m.parse lexemes context).value with
  | error e =>
      rw [hvalue] at hok
      cases hok
  | ok v => exact ⟨v, rfl⟩

/-- A run that ends with a certain value shows what the parse returns. -/
theorem value_of_run [DecidableEq V] (m : Engine σ V) (lexemes : List (Lexeme V)) (context : σ)
    (n : Nat) {v : V}
    (h : (m.run n (.initial lexemes context)).any (·.value.toOption = some v) = true) :
  (m.parse lexemes context).value = .ok v
  := by
  have hvalue := of_decide_eq_true (m.parse_of_run lexemes context n h)
  cases hparse : (m.parse lexemes context).value with
  | error e =>
      rw [hparse] at hvalue
      cases hvalue
  | ok v' =>
      rw [hparse] at hvalue
      rw [Option.some.inj hvalue]

/-- A run that ends with an error is how the parse ends. -/
theorem error_of_run (m : Engine σ V) (lexemes : List (Lexeme V)) (context : σ) (n : Nat)
    {e : ParseError}
    (h : (m.run n (.initial lexemes context)).any (·.failsWith e) = true) :
  (m.parse lexemes context).value = .error e
  := by
  have hfails := m.parse_of_run lexemes context n h
  rw [Parsed.failsWith] at hfails
  cases hvalue : (m.parse lexemes context).value with
  | error e' =>
      rw [hvalue] at hfails
      rw [of_decide_eq_true hfails]
  | ok v =>
      rw [hvalue] at hfails
      cases hfails

/-- To prove something of the way a parse ends, find what holds at the start, is kept by
steps, and gives it at the last step. -/
theorem Ends.induction {I : Configuration σ V → Prop} {P : Parsed σ V → Prop}
    (hnext : ∀ c c', I c → m.step c = .next c' → I c')
    (hstop : ∀ c parsed, I c → m.step c = .stop parsed → P parsed)
    (h : m.Ends c parsed) (hc : I c) :
  P parsed
  := by
  obtain ⟨n, hn⟩ := h
  induction n generalizing c with
  | zero => cases hn
  | succ n ih =>
      rw [run] at hn
      cases hstep : m.step c with
      | stop parsed' =>
          rw [hstep] at hn
          cases hn
          apply hstop c parsed hc hstep
      | next c' =>
          rw [hstep] at hn
          apply ih (hnext c c' hc hstep) hn

end

/-! ### Steps by the action of the table -/

section

variable {σ V : Type} {m : Engine σ V} {q : StateId} {below : List StateId} {values : List V}
  {input : Input V} {context : σ} {x : SymbolId}

/-- A symbol that the table does not know ends the parse. -/
theorem step_unknown (hx : m.table.symbolId? input.head.symbol = none) :
  m.step (.reading (q :: below) values input context)
    = .stop ⟨.error (.unknownSymbol input.head.symbol input.head.offset), context⟩
  := by simp [step, Configuration.reading, hx, fail]

/-- A conflict ends the parse. -/
theorem step_clash (hx : m.table.symbolId? input.head.symbol = some x)
    (hclash : m.table.Clashes q x) :
  m.step (.reading (q :: below) values input context)
    = .stop ⟨.error (.conflict q input.head.symbol input.head.offset), context⟩
  := by
  obtain ⟨shifts, reduces, haction⟩ := hclash
  simp [step, Configuration.reading, hx, haction, fail]

/-- A symbol that is neither shifted nor reduced on nor accepted ends the parse. -/
theorem step_unexpected (hx : m.table.symbolId? input.head.symbol = some x)
    (haction : m.table.action? q x = none ∨ ∃ target, m.table.action? q x = some (.goto target)) :
  m.step (.reading (q :: below) values input context)
    = .stop ⟨.error (.unexpected q input.head.symbol input.head.offset), context⟩
  := by
  rcases haction with haction | ⟨target, haction⟩
  · simp [step, Configuration.reading, hx, haction, fail]
  · simp [step, Configuration.reading, hx, haction, fail]

theorem step_shift (hx : m.table.symbolId? input.head.symbol = some x) {target : StateId}
    (haction : m.table.action? q x = some (.shift target)) :
  m.step (.reading (q :: below) values input context)
    = m.shift (.reading (q :: below) values input context) target
  := by simp [step, Configuration.reading, hx, haction]

/-- What is shifted is a lexeme that is no end of input. -/
theorem exists_of_shift {t : ParseTable} {g : Grammar} {a : Automaton} (h : t.Over g a)
    (hend : g.symbols.id? .endOfInput = some endOfInputId)
    (hx : t.symbolId? input.head.symbol = some x) {target : StateId}
    (haction : t.action? q x = some (.shift target)) :
  ∃ lexeme rest, input.rest = lexeme :: rest ∧ input.head = lexeme ∧ input.tail.rest = rest
    ∧ lexeme.symbol ≠ .endOfInput
  := by
  have hne : input.head.symbol ≠ .endOfInput := by
    intro heq
    rw [heq, ParseTable.symbolId?, h.symbols, hend] at hx
    cases hx
    cases h.not_shift_endOfInput q target haction
  obtain ⟨rest, finish⟩ := input
  cases rest with
  | nil => cases hne rfl
  | cons lexeme rest => exact ⟨lexeme, rest, rfl, rfl, rfl, hne⟩

theorem step_reduce (hx : m.table.symbolId? input.head.symbol = some x) {id : RuleId}
    (haction : m.table.action? q x = some (.reduce id)) :
  m.step (.reading (q :: below) values input context)
    = m.reduce (.reading (q :: below) values input context) id
  := by simp [step, Configuration.reading, hx, haction]

/-- A reduction by a rule of the engine hands the values of the right-hand side to the
interpretation. -/
theorem step_reduces (hx : m.table.symbolId? input.head.symbol = some x) {index : Nat}
    {states states' : List StateId} (hreduces : Reduces m.table x index states states')
    {shape : Reduction} (hshape : m.table.reductions[index]? = some shape) {p : Production V}
    (hp : m.rules[index]? = some p) (hvalues : shape.length ≤ values.length) :
  m.step (.reading states values input context)
    = match m.interpretation.nonterminal p (values.take shape.length).reverse context with
      | (.error message, context') => .stop ⟨.error (.interpretation message), context'⟩
      | (.ok value, context') =>
        .next (.reading states' (value :: values.drop shape.length) input context')
  := by
  obtain ⟨haction, hshape', hdrop, hgoto⟩ := hreduces
  rw [hshape] at hshape'
  cases hshape'
  have hrule : m.rule? (.user index) = some (p, shape) := by
    simp [rule?, RuleId.index?, ParseTable.reduction?, hp, hshape]
  rw [step_reduce hx haction]
  cases hresult : m.interpretation.nonterminal p (values.take shape.length).reverse context with
  | mk result context' =>
      cases result <;>
        simp [Configuration.reading, reduce, hrule, Nat.not_lt_of_le hvalues, hdrop, hgoto, hresult]

theorem step_accept (hx : m.table.symbolId? input.head.symbol = some x)
    (haction : m.table.action? q x = some .accept) :
  m.step (.reading (q :: below) values input context)
    = accept (.reading (q :: below) values input context) q
  := by simp [step, Configuration.reading, hx, haction]

/-- The end of the input is accepted, unless something comes after it. -/
theorem accept_reading {states : List StateId} :
  accept (.reading states values input context) q
    = if firstSymbol input.rest.tail = .endOfInput then
        match values with
        | [] => .stop ⟨.error .emptyValueStack, context⟩
        | value :: _ => .stop ⟨.ok value, context⟩
      else
        .stop ⟨.error (.unexpected q input.tail.head.symbol input.tail.head.offset), context⟩
  := by
  rw [← Input.rest_tail, ← Input.symbol_head]
  by_cases hlast : input.tail.head.symbol = .endOfInput
  · cases values <;>
      simp [accept, Configuration.reading, Lexeme.isEndOfInput, hlast, fail]
  · simp [accept, Configuration.reading, Lexeme.isEndOfInput, hlast, fail]

end

/-- Steps with the same table, in the same states and on lexemes of the same symbol, both shift to a
state, or reduce by a rule, or accept, or fail for the same reason at the offsets of the lexemes.
So they are related if all such steps are. -/
theorem step_related {σ τ V W : Type} {m : Engine σ V} {m' : Engine τ W}
    {R : Step σ V → Step τ W → Prop} {c : Configuration σ V} {c' : Configuration τ W}
    (htable : m'.table = m.table) (hstates : c'.states = c.states)
    (hsymbol : c'.lookahead.symbol = c.lookahead.symbol)
    (hfail : ∀ e : Nat → ParseError,
      R (fail c (e c.lookahead.offset)) (fail c' (e c'.lookahead.offset)))
    (hshift : ∀ q x target, m.table.symbolId? c.lookahead.symbol = some x →
      m.table.action? q x = some (.shift target) → R (m.shift c target) (m'.shift c' target))
    (hreduce : ∀ id, R (m.reduce c id) (m'.reduce c' id))
    (haccept : ∀ q x, m.table.symbolId? c.lookahead.symbol = some x →
      m.table.action? q x = some .accept → R (accept c q) (accept c' q)) :
  R (m.step c) (m'.step c')
  := by
  rw [step, step, htable, hstates, hsymbol]
  cases c.states with
  | nil => apply hfail fun _ => .emptyStateStack
  | cons q below =>
      dsimp only
      cases hx : m.table.symbolId? c.lookahead.symbol with
      | none => apply hfail (.unknownSymbol c.lookahead.symbol)
      | some x =>
          dsimp only
          cases haction : m.table.action? q x with
          | none => apply hfail (.unexpected q c.lookahead.symbol)
          | some action =>
              cases action with
              | shift target => apply hshift q x target hx haction
              | goto target => apply hfail (.unexpected q c.lookahead.symbol)
              | reduce id => apply hreduce
              | accept => apply haccept q x hx haction
              | conflict shifts reduces => apply hfail (.conflict q c.lookahead.symbol)

/-! ### Engines that parse a language -/

/-- An engine has the rules of a language and a table over a faithful automaton of its
grammar, and builds trees. -/
structure Parses {σ E : Type} (m : Engine σ ParseTree) (language : Language ParseTree E)
    (g : Grammar) (a : Automaton) : Prop where
  isOver : m.table.Over g a
  encodes : g.Encodes language
  rules : m.rules = language.rules
  interpretation : m.interpretation = .trees

namespace Parses

variable {σ E : Type} {m : Engine σ ParseTree} {language : Language ParseTree E} {g : Grammar}
  {a : Automaton} {q : StateId} {below : List StateId} {values : List ParseTree}
  {input : Input ParseTree} {context : σ} {x : SymbolId}

theorem symbolId?_eq (hm : m.Parses language g a) (s : Symbol) :
  m.table.symbolId? s = g.symbols.id? s
  := by rw [ParseTable.symbolId?, hm.isOver.symbols]

/-- A shift reads the first lexeme as a leaf. -/
theorem step_shift (hm : m.Parses language g a)
    (hx : g.symbols.id? input.head.symbol = some x) {target : StateId}
    (haction : m.table.action? q x = some (.shift target)) :
  m.step (.reading (q :: below) values input context)
    = .next (.reading (target :: q :: below)
        (.leaf input.head.symbol input.head.text :: values) input.tail context)
  := by
  rw [← hm.symbolId?_eq] at hx
  rw [Engine.step_shift hx haction, shift, hm.interpretation]
  rfl

/-- A reduction makes a node of the trees of the right-hand side. -/
theorem step_reduce (hm : m.Parses language g a)
    (hx : g.symbols.id? input.head.symbol = some x) {states states' : List StateId}
    {index : Nat} (hreduces : Reduces m.table x index states states') {p : Production ParseTree}
    {r : Rule} (hp : language.rules[index]? = some p) (hr : g.rule? (.user index) = some r)
    (hvalues : r.rhs.length ≤ values.length) :
  m.step (.reading states values input context)
    = .next (.reading states' (.node p.lhs (values.take r.rhs.length).reverse
        :: values.drop r.rhs.length) input context)
  := by
  rw [← hm.symbolId?_eq] at hx
  rw [← hm.rules] at hp
  rw [step_reduces hx hreduces (hm.isOver.shape_of_rule hr) hp hvalues, hm.interpretation]
  rfl

end Parses

end Engine

/-! ### Generated parsers -/

section Library

variable [PatternLibrary] {σ V E : Type}

/-- A parser of a definable language that has a table generated for the language. -/
structure Parser.Generated (p : Parser σ V E) (strategy : Strategy) : Prop where
  definable : p.language.Definable
  table : ∃ g, Grammar.ofLanguage p.language = .ok g
    ∧ ParseTable.generate g strategy = .ok p.table

namespace Parser.Generated

/-- The table of a generated parser is over a faithful automaton of the grammar of its
language. -/
theorem exists_over {p : Parser σ V E} {strategy : Strategy} (hp : p.Generated strategy) :
  ∃ g a, g.Encodes p.language ∧ p.table.Over g a
  := by
  obtain ⟨g, hg, htable⟩ := hp.table
  have hencodes := Grammar.encodes_of_ofLanguage hg
  obtain ⟨a, hover⟩ :=
    ParseTable.exists_over_of_generate (hencodes.proper hp.definable) htable
  exact ⟨g, a, hencodes, hover⟩

/-- The engine of a generated parser that builds trees parses the language. -/
theorem exists_parses {p : Parser σ ParseTree E} {strategy : Strategy}
    (hp : p.Generated strategy) (htrees : p.interpretation = .trees) :
  ∃ g a, p.engine.Parses p.language g a
  := by
  obtain ⟨g, a, hencodes, hover⟩ := hp.exists_over
  exact ⟨g, a, hover, hencodes, rfl, htrees⟩

end Parser.Generated

end Library

/-! ### Parsers of small languages -/

/-- A parser of a language with the table of a grammar, which builds trees. -/
def Parser.building (language : Language ParseTree Empty) (g : Grammar) (strategy : Strategy) :
    Parser Unit ParseTree Empty where
  language := language
  table :=
    match ParseTable.generate g strategy with
    | .ok table => table
    | .error _ => .ofAutomaton g (.canonical g) .canonical
  lexer := { rules := [] }
  interpretation := .trees

theorem Parser.building_generated {language : Language ParseTree Empty} {g : Grammar}
    (hl : language.Definable) (hg : Grammar.ofLanguage language = .ok g) (strategy : Strategy) :
  (Parser.building language g strategy).Generated strategy
  := by
  have hproper := (Grammar.encodes_of_ofLanguage hg).proper hl
  obtain ⟨t, ht⟩ := ParseTable.exists_generate hproper strategy
  use hl, g, hg
  simp only [Parser.building, ht]

/-- The lexemes of a word of the small language. -/
def Language.smallWord : List (Lexeme ParseTree) :=
  [{ symbol := .label "a", text := "a", offset := 0 },
   { symbol := .label "b", text := "b", offset := 1 }]

/-- A parser of the small language. -/
def Parser.small (strategy : Strategy) : Parser Unit ParseTree Empty :=
  .building .small .small strategy

theorem Parser.small_generated (strategy : Strategy) :
  (Parser.small strategy).Generated strategy
  := Parser.building_generated Language.small_definable Grammar.ofLanguage_small strategy

end ShiftReduce
