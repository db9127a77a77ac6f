import ShiftReduce.Proofs.Parser.Stepping

/-!
# The course of a parse

A parse reaches a configuration after it has read some of the lexemes (`Engine.Reached`).
Whatever the interpretation does and whichever rules the engine has, the states then spell a
prefix of which each symbol has a value, and no end of input has been read
(`Engine.Standing`).  So a step never lacks a state or a value or a goto
(`Engine.Standing.outcome`).
-/

namespace ShiftReduce

/-! ### Generated tables -/

/-- A table that has been generated for some definable language. -/
def ParseTable.Generated (t : ParseTable) (strategy : Strategy) : Prop :=
  ∃ (V E : Type) (language : Language V E) (g : Grammar), language.Definable
    ∧ Grammar.ofLanguage language = .ok g ∧ generate g strategy = .ok t

/-- The end of the input has its number in a generated table, and the table is over an exact
automaton or has no conflicts. -/
theorem ParseTable.Generated.exists_over {t : ParseTable} {strategy : Strategy}
    (ht : t.Generated strategy) :
  ∃ g a, t.Over g a ∧ g.symbols.id? .endOfInput = some endOfInputId
    ∧ (a.Exact g ∨ ∀ q x, ¬ t.Clashes q x)
  := by
  obtain ⟨V, E, language, g, hdefinable, hg, ht⟩ := ht
  have hencodes := Grammar.encodes_of_ofLanguage hg
  obtain ⟨a, hover, hcases⟩ :=
    exists_over_exact_or_clean (hencodes.proper hdefinable) ht
  exact ⟨g, a, hover, hencodes.endOfInput, hcases⟩

theorem Parser.Generated.table_generated [PatternLibrary] {σ V E : Type} {p : Parser σ V E}
    {strategy : Strategy} (hp : p.Generated strategy) :
  p.table.Generated strategy
  := by
  obtain ⟨g, hg, ht⟩ := hp.table
  exact ⟨V, E, p.language, g, hp.definable, hg, ht⟩

namespace Engine

/-! ### Configurations that are reached -/

section

variable {σ V : Type} {m : Engine σ V} {c c' : Configuration σ V} {lexemes : List (Lexeme V)}
  {context : σ}

/-- The action of the table for the lookahead in the state on top. -/
def action? (m : Engine σ V) (c : Configuration σ V) : Option Action := do
  m.table.action? (← c.states.head?) (← m.table.symbolId? c.lookahead.symbol)

/-- A configuration that the parse of some lexemes comes to, and the lexemes that it has
shifted on the way. -/
inductive Reached (m : Engine σ V) (lexemes : List (Lexeme V)) (context : σ) :
    List (Lexeme V) → Configuration σ V → Prop where
  | start : Reached m lexemes context [] (.initial lexemes context)
  | shift {read : List (Lexeme V)} {c c' : Configuration σ V} {target : StateId}
      (h : Reached m lexemes context read c) (haction : m.action? c = some (.shift target))
      (hstep : m.step c = .next c') : Reached m lexemes context (read ++ [c.lookahead]) c'
  | reduce {read : List (Lexeme V)} {c c' : Configuration σ V} {id : RuleId}
      (h : Reached m lexemes context read c) (haction : m.action? c = some (.reduce id))
      (hstep : m.step c = .next c') : Reached m lexemes context read c'

theorem action?_reading {q : StateId} {below : List StateId} {values : List V}
    {input : Input V} {x : SymbolId} (hx : m.table.symbolId? input.head.symbol = some x) :
  m.action? (.reading (q :: below) values input context) = m.table.action? q x
  := by simp [action?, Configuration.reading, hx]

/-- A step shifts, reduces or accepts as the action of the table says, and fails if there is no
such action. -/
theorem step_cases (m : Engine σ V) (c : Configuration σ V) :
  (∃ target, m.action? c = some (.shift target) ∧ m.step c = m.shift c target)
    ∨ (∃ id, m.action? c = some (.reduce id) ∧ m.step c = m.reduce c id)
    ∨ (∃ q, m.action? c = some .accept ∧ m.step c = accept c q)
    ∨ (m.action? c = none ∨ (∃ target, m.action? c = some (.goto target))
        ∨ ∃ shifts reduces, m.action? c = some (.conflict shifts reduces))
      ∧ ∃ e, m.step c = fail c e
  := by
  rw [step]
  cases hstates : c.states with
  | nil => simp [action?, hstates]
  | cons q below =>
      cases hx : m.table.symbolId? c.lookahead.symbol with
      | none => simp [action?, hstates, hx]
      | some x =>
          have haction : m.action? c = m.table.action? q x := by simp [action?, hstates, hx]
          rw [haction]
          simp only [hx]
          cases m.table.action? q x with
          | none => exact .inr (.inr (.inr ⟨.inl rfl, _, rfl⟩))
          | some b =>
              cases b with
              | shift target => exact .inl ⟨target, rfl, rfl⟩
              | reduce id => exact .inr (.inl ⟨id, rfl, rfl⟩)
              | accept => exact .inr (.inr (.inl ⟨q, rfl, rfl⟩))
              | goto target => exact .inr (.inr (.inr ⟨.inr (.inl ⟨target, rfl⟩), _, rfl⟩))
              | conflict shifts reduces =>
                  exact .inr (.inr (.inr ⟨.inr (.inr ⟨shifts, reduces, rfl⟩), _, rfl⟩))

/-- Accepting ends the parse. -/
theorem accept_ne_next (q : StateId) :
  accept c q ≠ .next c'
  := by
  rw [accept]
  grind [fail]

/-- A shift that goes on reads the next lexeme. -/
theorem reads_of_shift {target : StateId} (h : m.shift c target = .next c') :
  c'.lookahead = c.input.head ∧ c'.input = c.input.tail
  := by
  rw [shift] at h
  grind

/-- A reduction that goes on reads nothing. -/
theorem reads_of_reduce {id : RuleId} (h : m.reduce c id = .next c') :
  c'.lookahead = c.lookahead ∧ c'.input = c.input
  := by
  rw [reduce] at h
  grind [fail]

/-- The parse goes on only after a shift or a reduction. -/
theorem next_cases (h : m.step c = .next c') :
  (∃ target, m.action? c = some (.shift target) ∧ m.shift c target = .next c')
    ∨ ∃ id, m.action? c = some (.reduce id) ∧ m.reduce c id = .next c'
  := by
  obtain ⟨target, haction, hstep⟩ | ⟨id, haction, hstep⟩ | ⟨q, -, hstep⟩ | ⟨-, e, hstep⟩ :=
    m.step_cases c
  · exact .inl ⟨target, haction, hstep ▸ h⟩
  · exact .inr ⟨id, haction, hstep ▸ h⟩
  · cases accept_ne_next q (hstep ▸ h)
  · rw [hstep] at h
    cases h

/-- Every step that goes on leads to a configuration that the parse comes to. -/
theorem Reached.exists_next {read : List (Lexeme V)} (h : m.Reached lexemes context read c)
    (hstep : m.step c = .next c') :
  ∃ read', m.Reached lexemes context read' c'
  := by
  rcases next_cases hstep with ⟨target, haction, -⟩ | ⟨id, haction, -⟩
  · exact ⟨_, h.shift haction hstep⟩
  · exact ⟨_, h.reduce haction hstep⟩

/-- A parse ends at a configuration that it reaches. -/
theorem Ends.exists_reached {parsed : Parsed σ V}
    (h : m.Ends (.initial lexemes context) parsed) :
  ∃ read c, m.Reached lexemes context read c ∧ m.step c = .stop parsed
  := by
  apply h.induction (I := fun c => ∃ read, m.Reached lexemes context read c)
  · rintro c c' ⟨read, hc⟩ hstep
    apply hc.exists_next hstep
  · rintro c parsed ⟨read, hc⟩ hstep
    exact ⟨read, c, hc, hstep⟩
  · exact ⟨[], .start⟩

end

/-! ### What a step does -/

/-- What a step does with a state on top, where the table is over an automaton of a grammar. -/
inductive Outcome {σ V : Type} (m : Engine σ V) (g : Grammar) (q : StateId)
    (below : List StateId) (values : List V) (input : Input V) (context : σ) :
    Step σ V → Prop where
  | unknown (hx : m.table.symbolId? input.head.symbol = none) :
      Outcome m g q below values input context
        (.stop ⟨.error (.unknownSymbol input.head.symbol input.head.offset), context⟩)
  | shift {x : SymbolId} {target : StateId} {value : V} {context' : σ}
      (hx : m.table.symbolId? input.head.symbol = some x)
      (haction : m.table.action? q x = some (.shift target)) :
      Outcome m g q below values input context
        (.next (.reading (target :: q :: below) (value :: values) input.tail context'))
  | reduce {x : SymbolId} {index : Nat} {stack' : List StateId} {r : Rule} {value : V}
      {context' : σ} (hx : m.table.symbolId? input.head.symbol = some x)
      (hreduces : Reduces m.table x index (q :: below) stack')
      (hr : g.rule? (.user index) = some r) :
      Outcome m g q below values input context
        (.next (.reading stack' (value :: values.drop r.rhs.length) input context'))
  | refused (message : String) (context' : σ) :
      Outcome m g q below values input context
        (.stop ⟨.error (.interpretation message), context'⟩)
  | ruleless (id : RuleId) :
      Outcome m g q below values input context (.stop ⟨.error (.unknownRule id), context⟩)
  | accept {x : SymbolId} {value : V} (hx : m.table.symbolId? input.head.symbol = some x)
      (haction : m.table.action? q x = some .accept) (hvalues : values = [value])
      (hlast : firstSymbol input.rest.tail = .endOfInput) :
      Outcome m g q below values input context (.stop ⟨.ok value, context⟩)
  | more {x : SymbolId} (hx : m.table.symbolId? input.head.symbol = some x)
      (haction : m.table.action? q x = some .accept)
      (hlast : firstSymbol input.rest.tail ≠ .endOfInput) :
      Outcome m g q below values input context
        (.stop ⟨.error (.unexpected q input.tail.head.symbol input.tail.head.offset), context⟩)
  | clash {x : SymbolId} (hx : m.table.symbolId? input.head.symbol = some x)
      (hclash : m.table.Clashes q x) :
      Outcome m g q below values input context
        (.stop ⟨.error (.conflict q input.head.symbol input.head.offset), context⟩)
  | unexpected {x : SymbolId} (hx : m.table.symbolId? input.head.symbol = some x)
      (haction : m.table.action? q x = none
        ∨ ∃ target, m.table.action? q x = some (.goto target)) :
      Outcome m g q below values input context
        (.stop ⟨.error (.unexpected q input.head.symbol input.head.offset), context⟩)

/-- No step ends the parse because a state, a value or a goto is missing. -/
theorem Outcome.error_ne {σ V : Type} {m : Engine σ V} {g : Grammar} {q : StateId}
    {below : List StateId} {values : List V} {input : Input V} {context : σ}
    {parsed : Parsed σ V} (h : m.Outcome g q below values input context (.stop parsed))
    {e : ParseError} (he : parsed.value = .error e) :
  e ≠ .emptyStateStack ∧ e ≠ .emptyValueStack ∧ ∀ q symbol, e ≠ .missingGoto q symbol
  := by
  cases h with
  | accept => cases he
  | _ =>
      cases he
      exact ⟨nofun, nofun, nofun⟩

/-- Where a parse stands after it has read some of the lexemes: the states spell a prefix, each
symbol of the prefix has a value, and no end of input has been read. -/
structure Standing {V : Type} (a : Automaton) (lexemes read : List (Lexeme V))
    (γ : List SymbolId) (states : List StateId) (values : List V) (input : Input V) :
    Prop where
  spells : a.Spells states γ
  balanced : values.length = γ.length
  consumed : lexemes = read ++ input.rest
  unended : ∀ lexeme ∈ read, lexeme.symbol ≠ .endOfInput

namespace Standing

variable {σ V : Type} {m : Engine σ V} {g : Grammar} {a : Automaton}
  {lexemes read : List (Lexeme V)} {γ : List SymbolId} {q : StateId}
  {states below : List StateId} {values : List V} {input : Input V} {x : SymbolId}

theorem initial :
  Standing a lexemes [] [] [startState] [] ⟨lexemes, 0⟩
  where
  spells := .start
  balanced := rfl
  consumed := rfl
  unended _ hlexeme := by cases hlexeme

/-- There is one state more than there are values. -/
theorem length_eq (h : Standing a lexemes read γ states values input) :
  states.length = values.length + 1
  := by rw [h.spells.length_eq, h.balanced]

/-- A shift reads the lookahead. -/
theorem shift (h : m.table.Over g a)
    (hend : g.symbols.id? .endOfInput = some endOfInputId)
    (hstanding : Standing a lexemes read γ (q :: below) values input)
    (hx : m.table.symbolId? input.head.symbol = some x) {target : StateId}
    (haction : m.table.action? q x = some (.shift target)) (value : V) :
  Standing a lexemes (read ++ [input.head]) (x :: γ) (target :: q :: below) (value :: values)
    input.tail
  := by
  obtain ⟨lexeme, rest, hrest, hhead, htail, hne⟩ := exists_of_shift h hend hx haction
  constructor
  · apply hstanding.spells.edge (h.target_of_shift haction).1
  · rw [List.length_cons, List.length_cons, hstanding.balanced]
  · rw [hhead, htail, hstanding.consumed, hrest, List.append_assoc]
    rfl
  · rw [hhead, List.forall_mem_append]
    use hstanding.unended
    intro lexeme' hlexeme'
    obtain rfl := List.mem_singleton.mp hlexeme'
    apply hne

/-- A reduction replaces the values of a right-hand side by one value. -/
theorem reduce (h : m.table.Over g a)
    (hstanding : Standing a lexemes read γ states values input) {index : Nat}
    {stack' : List StateId} (hreduces : Reduces m.table x index states stack') {r : Rule}
    (hr : g.rule? (.user index) = some r) :
  r.rhs.length ≤ values.length
    ∧ ∃ δ, ∀ value, Standing a lexemes read (r.lhs :: δ) stack'
        (value :: values.drop r.rhs.length) input
  := by
  obtain ⟨r', δ, hr', rfl, hs', -⟩ := hreduces.exists_rule h hstanding.spells
  rw [hr] at hr'
  cases hr'
  have hbalanced := hstanding.balanced
  rw [List.length_append, List.length_reverse] at hbalanced
  constructor
  · rw [hbalanced]
    apply Nat.le_add_right
  · use δ
    intro value
    constructor
    · apply hs'
    · rw [List.length_cons, List.length_cons, List.length_drop, hbalanced,
        Nat.add_sub_cancel_left]
    · apply hstanding.consumed
    · apply hstanding.unended

/-- There is one value when the parse is accepted. -/
theorem accept (h : m.table.Over g a)
    (hstanding : Standing a lexemes read γ (q :: below) values input)
    (haction : m.table.action? q x = some .accept) :
  ∃ value, values = [value]
  := by
  obtain ⟨-, rfl⟩ := h.eq_start_of_accept hstanding.spells haction
  apply List.length_eq_one_iff.mp hstanding.balanced

/-- A step has one of the outcomes. -/
theorem outcome (h : m.table.Over g a)
    (hstanding : Standing a lexemes read γ (q :: below) values input) (context : σ) :
  m.Outcome g q below values input context
    (m.step (.reading (q :: below) values input context))
  := by
  cases hx : m.table.symbolId? input.head.symbol with
  | none =>
      rw [step_unknown hx]
      apply Outcome.unknown hx
  | some x =>
      cases haction : m.table.action? q x with
      | none =>
          rw [step_unexpected hx (.inl haction)]
          apply Outcome.unexpected hx (.inl haction)
      | some action =>
          cases action with
          | shift target =>
              rw [step_shift hx haction, Engine.shift]
              cases hvalue : m.interpretation.terminal input.head context with
              | mk result context' =>
                  simp only [Configuration.reading, hvalue]
                  cases result with
                  | error message => apply Outcome.refused
                  | ok value => apply Outcome.shift hx haction
          | reduce id =>
              obtain ⟨index, r, δ, stack', rfl, hr, -, -, hreduces, -⟩ :=
                exists_reduces h hstanding.spells haction
              obtain ⟨hle, -⟩ := hstanding.reduce h hreduces hr
              cases hp : m.rules[index]? with
              | none =>
                  have hrule : m.rule? (.user index) = none := by simp [rule?, RuleId.index?, hp]
                  rw [step_reduce hx haction]
                  simp only [Engine.reduce, hrule]
                  apply Outcome.ruleless
              | some p =>
                  rw [step_reduces hx hreduces (h.shape_of_rule hr) hp hle]
                  generalize m.interpretation.nonterminal p _ context = result
                  obtain ⟨value | message, context'⟩ := result
                  · apply Outcome.refused
                  · apply Outcome.reduce hx hreduces hr
          | goto target =>
              rw [step_unexpected hx (.inr ⟨target, haction⟩)]
              apply Outcome.unexpected hx (.inr ⟨target, haction⟩)
          | accept =>
              obtain ⟨value, rfl⟩ := hstanding.accept h haction
              rw [step_accept hx haction, accept_reading]
              by_cases hlast : firstSymbol input.rest.tail = .endOfInput
              · rw [if_pos hlast]
                apply Outcome.accept hx haction rfl hlast
              · rw [if_neg hlast]
                apply Outcome.more hx haction hlast
          | conflict shifts reduces =>
              rw [step_clash hx ⟨shifts, reduces, haction⟩]
              apply Outcome.clash hx ⟨shifts, reduces, haction⟩

/-- When the parse goes on after a shift, the lookahead has a value. -/
theorem eq_of_shift (h : m.table.Over g a)
    (hstanding : Standing a lexemes read γ (q :: below) values input) {context : σ}
    {target : StateId} {c' : Configuration σ V}
    (haction : m.action? (.reading (q :: below) values input context) = some (.shift target))
    (hstep : m.step (.reading (q :: below) values input context) = .next c') :
  ∃ x value context', m.table.symbolId? input.head.symbol = some x
    ∧ m.table.action? q x = some (.shift target)
    ∧ c' = .reading (target :: q :: below) (value :: values) input.tail context'
  := by
  have houtcome := hstanding.outcome h context
  rw [hstep] at houtcome
  cases houtcome with
  | @shift x _ value context' hx hshift =>
      rw [action?_reading hx, hshift] at haction
      cases haction
      exact ⟨x, value, context', hx, hshift, rfl⟩
  | reduce hx hreduces _ =>
      obtain ⟨_, _, hcons, hreduce⟩ := hreduces.exists_action
      cases hcons
      rw [action?_reading hx, hreduce] at haction
      cases haction

/-- When the parse goes on after a reduction, the left-hand side of the rule has a value. -/
theorem eq_of_reduce (h : m.table.Over g a)
    (hstanding : Standing a lexemes read γ (q :: below) values input) {context : σ}
    {id : RuleId} {c' : Configuration σ V}
    (haction : m.action? (.reading (q :: below) values input context) = some (.reduce id))
    (hstep : m.step (.reading (q :: below) values input context) = .next c') :
  ∃ x index stack' r value context', m.table.symbolId? input.head.symbol = some x
    ∧ Reduces m.table x index (q :: below) stack' ∧ g.rule? (.user index) = some r
    ∧ c' = .reading stack' (value :: values.drop r.rhs.length) input context'
  := by
  have houtcome := hstanding.outcome h context
  rw [hstep] at houtcome
  cases houtcome with
  | @reduce x index stack' r value context' hx hreduces hr =>
      exact ⟨x, index, stack', r, value, context', hx, hreduces, hr, rfl⟩
  | shift hx hshift =>
      rw [action?_reading hx, hshift] at haction
      cases haction

/-- A symbol that is not expected has no action that could be made on it, or it comes after the
end of the input. -/
theorem of_unexpected (h : m.table.Over g a)
    (hend : g.symbols.id? .endOfInput = some endOfInputId)
    (hstanding : Standing a lexemes read γ (q :: below) values input) {context : σ}
    {parsed : Parsed σ V}
    (hstop : m.step (.reading (q :: below) values input context) = .stop parsed)
    {state : StateId} {symbol : Symbol} {offset : Nat}
    (herror : parsed.value = .error (.unexpected state symbol offset)) :
  (symbol = input.head.symbol ∧ ∃ x, m.table.symbolId? input.head.symbol = some x
      ∧ (m.table.action? q x = none ∨ ∃ target, m.table.action? q x = some (.goto target)))
    ∨ input.head.symbol = .endOfInput ∧ symbol = input.tail.head.symbol ∧ symbol ≠ .endOfInput
  := by
  have houtcome := hstanding.outcome h context
  rw [hstop] at houtcome
  cases houtcome with
  | unexpected hx haction =>
      cases herror
      apply Or.inl ⟨rfl, _, hx, haction⟩
  | more hx haction hlast =>
      cases herror
      obtain ⟨rfl, -⟩ := h.eq_start_of_accept hstanding.spells haction
      right
      refine ⟨?_, rfl, ?_⟩
      · rw [ParseTable.symbolId?, h.symbols] at hx
        apply SymbolTable.id?_injective hx hend
      · rw [Input.symbol_head, Input.rest_tail]
        apply hlast
  | _ => cases herror

end Standing

/-- A parse stands somewhere wherever it comes to. -/
theorem Reached.exists_standing {σ V : Type} {m : Engine σ V} {g : Grammar} {a : Automaton}
    (h : m.table.Over g a) (hend : g.symbols.id? .endOfInput = some endOfInputId)
    {lexemes read : List (Lexeme V)} {context : σ} {c : Configuration σ V}
    (hc : m.Reached lexemes context read c) :
  ∃ γ q below values input context', c = .reading (q :: below) values input context'
    ∧ Standing a lexemes read γ (q :: below) values input
  := by
  induction hc with
  | start => exact ⟨[], _, _, _, _, _, Configuration.initial_eq lexemes context, .initial⟩
  | shift _ haction hstep ih =>
      obtain ⟨γ, q, below, values, input, _, rfl, hstanding⟩ := ih
      obtain ⟨x, value, context', hx, hshift, rfl⟩ := hstanding.eq_of_shift h haction hstep
      exact ⟨x :: γ, _, _, _, _, _, rfl, hstanding.shift h hend hx hshift value⟩
  | reduce _ haction hstep ih =>
      obtain ⟨γ, q, below, values, input, _, rfl, hstanding⟩ := ih
      obtain ⟨_, _, stack', r, value, _, -, hreduces, hr, rfl⟩ :=
        hstanding.eq_of_reduce h haction hstep
      obtain ⟨-, δ, hnext⟩ := hstanding.reduce h hreduces hr
      obtain ⟨q', below', rfl⟩ := (hnext value).spells.exists_eq_cons
      exact ⟨r.lhs :: δ, _, _, _, _, _, rfl, hnext value⟩

end Engine

/-! ### Stacks suffice -/

namespace ParseTable.Generated

section Library

variable [PatternLibrary] {σ V E : Type} {p : Parser σ V E} {strategy : Strategy}

/-- With a generated table the stacks keep in step: wherever a parse comes to, whatever the
rules and the interpretation of the parser are, there is one state more than there are values,
and one value where it accepts.  It never ends because a state, a value or a goto is missing. -/
theorem stacks_suffice (hp : p.table.Generated strategy) (lexemes : List (Lexeme V))
    (context : σ) :
  (∀ read c, p.engine.Reached lexemes context read c →
      c.states.length = c.values.length + 1
        ∧ (p.engine.action? c = some .accept → ∃ value, c.values = [value]))
    ∧ ∀ e, (p.parseLexemes lexemes context).value = .error e →
      e ≠ .emptyStateStack ∧ e ≠ .emptyValueStack ∧ ∀ q symbol, e ≠ .missingGoto q symbol
  := by
  obtain ⟨g, a, h, hend, -⟩ := hp.exists_over
  constructor
  · intro read c hc
    obtain ⟨γ, q, below, values, input, context', rfl, hstanding⟩ := hc.exists_standing h hend
    use hstanding.length_eq
    intro haction
    cases hx : p.table.symbolId? input.head.symbol with
    | none => simp [Engine.action?, Configuration.reading, Parser.engine, hx] at haction
    | some x =>
        rw [Engine.action?_reading hx] at haction
        apply hstanding.accept h haction
  · intro e he
    by_cases hendless : e = .endless
    · subst hendless
      simp
    · have hends : p.engine.Ends (.initial lexemes context) (p.parseLexemes lexemes context) := by
        apply Engine.ends_parse
        rw [← Parser.parseLexemes, he]
        intro heq
        apply hendless (Except.error.inj heq)
      obtain ⟨read, c, hc, hstop⟩ := hends.exists_reached
      obtain ⟨γ, q, below, values, input, context', rfl, hstanding⟩ := hc.exists_standing h hend
      have houtcome := Engine.Standing.outcome (m := p.engine) h hstanding context'
      rw [hstop] at houtcome
      apply houtcome.error_ne he

end Library

/-- A parser with a table of the small language, and with the rules of that language in the
opposite order. -/
def swapped : Parser Unit ParseTree Empty :=
  { Parser.small .mergedFirst with
    language := { Language.small with rules := Language.small.rules.reverse } }

/-- The parser with the rules in the opposite order accepts a word of the small language, with
one state more than there are values. -/
theorem stacks_suffice_small :
  ∃ read c t, swapped.engine.Reached Language.smallWord () read c
    ∧ swapped.engine.step c = .stop ⟨.ok t, ()⟩ ∧ c.states.length = c.values.length + 1
  := by
  obtain ⟨t, ht⟩ := swapped.engine.exists_value_of_run Language.smallWord () 5
    (by decide +kernel)
  obtain ⟨read, c, hc, hstop⟩ := (Engine.ends_of_parse_eq_ok ht).exists_reached
  have htable : swapped.table.Generated .mergedFirst :=
    (Parser.small_generated .mergedFirst).table_generated
  refine ⟨read, c, t, hc, ?_, ((stacks_suffice htable Language.smallWord ()).1 read c hc).1⟩
  rw [hstop, ← ht]

end ParseTable.Generated

end ShiftReduce
