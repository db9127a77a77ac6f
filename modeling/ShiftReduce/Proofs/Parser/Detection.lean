import ShiftReduce.Proofs.Parser.Admission
import ShiftReduce.Proofs.Parser.Termination
import ShiftReduce.Proofs.Parser.Trace

/-!
# Errors are found at once

The canonical table reduces on a lookahead only if the lookahead follows what is reduced, and
then it settles: further reductions lead to where it is shifted or accepted, or to a conflict.
So a lexeme that is not expected has not been reduced on.  It is the last thing that is seen of
the parse that it has been taken from the input.
-/

namespace ShiftReduce

namespace Engine

variable {σ V : Type} {m : Engine σ V}

/-- The lookahead of a configuration is shifted or accepted or met by a conflict, unless the
interpretation ends the parse. -/
inductive Decides (m : Engine σ V) (c : Configuration σ V) : Prop where
  | shift (target : StateId) (h : m.action? c = some (.shift target))
  | accept (h : m.action? c = some .accept)
  | conflict (shifts : List StateId) (reduces : List RuleId)
      (h : m.action? c = some (.conflict shifts reduces))
  | refused (message : String) (context : σ)
      (h : m.step c = .stop ⟨.error (.interpretation message), context⟩)

/-- A shift that goes on is seen as a call and the next lexeme. -/
theorem events_of_shift {c c' : Configuration σ V} {target : StateId}
    (haction : m.action? c = some (.shift target)) (hstep : m.step c = .next c') :
  m.events c = [.call (.terminal c.lookahead), .read c'.lookahead]
  := by
  rcases m.step_cases c with ⟨target', -, hshift⟩ | hother
  · rw [hshift, Engine.shift] at hstep
    rw [events, haction]
    cases hvalue : m.interpretation.terminal c.lookahead c.context with
    | mk result context =>
        rw [hvalue] at hstep
        cases result with
        | error message => cases hstep
        | ok value =>
            cases hstep
            rfl
  · simp [haction] at hother

namespace Standing

variable {g : Grammar} {a : Automaton} {lexemes read : List (Lexeme V)} {γ : List SymbolId}
  {stack : List StateId} {values : List V} {input : Input V} {x : SymbolId}

/-- A lookahead that settles is decided on after finitely many reductions. -/
theorem exists_chain_decides (h : m.table.Over g a)
    (hrules : ∀ {index r}, g.rule? (.user index) = some r → ∃ p, m.rules[index]? = some p)
    (hx : m.table.symbolId? input.head.symbol = some x) (hsettles : Settles m.table x stack)
    (hstanding : Standing a lexemes read γ stack values input) (context : σ) :
  ∃ n c, m.Chain n (.reading stack values input context) c ∧ c.lookahead = input.head
    ∧ m.Decides c
  := by
  induction hsettles generalizing γ values context with
  | shift haction => exact ⟨0, _, .nil _, rfl, .shift _ ((action?_reading hx).trans haction)⟩
  | accept haction => exact ⟨0, _, .nil _, rfl, .accept ((action?_reading hx).trans haction)⟩
  | clash hclash =>
      obtain ⟨shifts, reduces, haction⟩ := hclash
      exact ⟨0, _, .nil _, rfl, .conflict _ _ ((action?_reading hx).trans haction)⟩
  | reduce hreduces _ ih =>
      obtain ⟨r, _, hr, -, -, -⟩ := hreduces.exists_rule h hstanding.spells
      obtain ⟨hle, δ, hnext⟩ := hstanding.reduce h hreduces hr
      obtain ⟨p, hp⟩ := hrules hr
      obtain ⟨q, below, rfl, haction⟩ := hreduces.exists_action
      rw [← action?_reading hx] at haction
      have hstep : m.step (.reading (q :: below) values input context) = _ :=
        step_reduces hx hreduces (h.shape_of_rule hr) hp hle
      cases hresult : m.interpretation.nonterminal p (values.take r.rhs.length).reverse context with
      | mk result context' =>
          simp only [hresult] at hstep
          cases result with
          | error message => exact ⟨0, _, .nil _, rfl, .refused message context' hstep⟩
          | ok value =>
              obtain ⟨n, c, hchain, hlookahead, hdecides⟩ := ih (hnext value) context'
              exact ⟨n + 1, c, .cons haction hstep hchain, hlookahead, hdecides⟩

/-- The lookahead is the last thing that has been seen of the parse, or it settles. -/
def Ready (m : Engine σ V) (seen : List (Event V)) (stack : List StateId) (input : Input V) :
    Prop :=
  (∃ before, seen = before ++ [.read input.head])
    ∨ ∀ x, m.table.symbolId? input.head.symbol = some x → Settles m.table x stack

variable {q : StateId} {below : List StateId} {seen : List (Event V)} {context : σ}

/-- The parse goes on with a lookahead that has just been taken from the input, or that
settles. -/
theorem ready_next (h : m.table.Over g a)
    (hend : g.symbols.id? .endOfInput = some endOfInputId) (hexact : a.Exact g)
    (hstanding : Standing a lexemes read γ (q :: below) values input) {c : Configuration σ V}
    (hstep : m.step (.reading (q :: below) values input context) = .next c) :
  ∃ read' γ' stack' values' input' context', c = .reading stack' values' input' context'
    ∧ Standing a lexemes read' γ' stack' values' input'
    ∧ Ready m (seen ++ m.events (.reading (q :: below) values input context)) stack' input'
  := by
  have houtcome := hstanding.outcome h context
  rw [hstep] at houtcome
  cases houtcome with
  | @shift x target value context' hx haction =>
      refine ⟨_, _, _, _, _, _, rfl, hstanding.shift h hend hx haction value, .inl ?_⟩
      rw [events_of_shift ((action?_reading hx).trans haction) hstep]
      use seen ++ [.call (.terminal input.head)]
      rw [List.append_assoc]
      rfl
  | @reduce x index stack' r value context' hx hreduces hr =>
      obtain ⟨-, δ, hnext⟩ := hstanding.reduce h hreduces hr
      refine ⟨_, _, _, _, _, _, rfl, hnext value, .inr ?_⟩
      intro x' hx'
      rw [hx] at hx'
      cases hx'
      apply hreduces.settles h hexact hstanding.spells

/-- Where a lexeme is not expected, it has just been taken from the input. -/
theorem seen_of_unexpected (h : m.table.Over g a)
    (hstanding : Standing a lexemes read γ (q :: below) values input)
    (hready : Ready m seen (q :: below) input) {parsed : Parsed σ V}
    (hstep : m.step (.reading (q :: below) values input context) = .stop parsed)
    {state : StateId} {symbol : Symbol} {offset : Nat}
    (herror : parsed.value = .error (.unexpected state symbol offset)) :
  ∃ before t, seen ++ m.events (.reading (q :: below) values input context) = before ++ [.read t]
    ∧ t.symbol = symbol ∧ t.offset = offset
  := by
  have houtcome := hstanding.outcome h context
  rw [hstep] at houtcome
  cases houtcome with
  | unexpected hx haction =>
      cases herror
      rcases hready with ⟨before, rfl⟩ | hsettles
      · have hevents : m.events (.reading (q :: below) values input context) = [] := by
          rcases haction with haction | ⟨target, haction⟩ <;>
            simp only [events, action?_reading hx, haction]
        use before, input.head
        rw [hevents, List.append_nil]
        exact ⟨rfl, rfl, rfl⟩
      · cases not_settles haction (hsettles _ hx)
  | more hx haction _ =>
      cases herror
      use seen, input.tail.head
      have hevents : m.events (.reading (q :: below) values input context)
          = [.read input.tail.head] := by
        simp only [events, action?_reading hx, haction]
        rfl
      rw [hevents]
      exact ⟨rfl, rfl, rfl⟩
  | _ => cases herror

/-- The last thing that is seen of a parse with an unexpected lexeme is that this has been taken
from the input. -/
theorem trace_of_unexpected (h : m.table.Over g a)
    (hend : g.symbols.id? .endOfInput = some endOfInputId) (hexact : a.Exact g)
    (hstanding : Standing a lexemes read γ stack values input)
    (hready : Ready m seen stack input) {n : Nat} {parsed : Parsed σ V}
    (hrun : m.run n (.reading stack values input context) = some parsed) {state : StateId}
    {symbol : Symbol} {offset : Nat}
    (herror : parsed.value = .error (.unexpected state symbol offset)) :
  ∃ before t, seen ++ m.trace n (.reading stack values input context) = before ++ [.read t]
    ∧ t.symbol = symbol ∧ t.offset = offset
  := by
  induction n generalizing read γ stack values input context seen with
  | zero => cases hrun
  | succ n ih =>
      obtain ⟨q, below, rfl⟩ := hstanding.spells.exists_eq_cons
      rw [run] at hrun
      rw [trace, ← List.append_assoc]
      cases hstep : m.step (.reading (q :: below) values input context) with
      | stop parsed' =>
          rw [hstep] at hrun
          cases hrun
          rw [List.append_nil]
          apply hstanding.seen_of_unexpected h hready hstep herror
      | next c =>
          rw [hstep] at hrun
          obtain ⟨_, _, _, _, _, _, rfl, hnext, hready'⟩ :=
            hstanding.ready_next h hend hexact hstep
          apply ih hnext hready' hrun

end Standing

end Engine

namespace Parser.Generated

section Library

variable [PatternLibrary] {σ V E : Type} {p : Parser σ V E}

/-- The canonical table of a parser is over an exact automaton. -/
theorem exists_over_exact (hp : p.Generated .canonicalOnly) :
  ∃ g a, g.Encodes p.language ∧ p.table.Over g a ∧ a.Exact g
  := by
  obtain ⟨g, hg, htable⟩ := hp.table
  have hencodes := Grammar.encodes_of_ofLanguage hg
  have hproper := hencodes.proper hp.definable
  obtain ⟨t, ht, hover⟩ := ParseTable.generate_canonicalOnly hproper
  rw [htable] at ht
  cases ht
  exact ⟨g, _, hencodes, hover, (Automaton.canonical_drawn hproper).exact hproper⟩

/-- With the canonical table an unexpected lexeme is found before anything is done with it: when
the parse stops, the last thing that has been seen of it is that the lexeme has been taken from
the input.  Where a reduction has been made on a lookahead, the parse goes on to shift it or to
accept, or to a conflict, unless the interpretation ends it. -/
theorem finds_errors_at_once (hp : p.Generated .canonicalOnly) (lexemes : List (Lexeme V))
    (context : σ) :
  (∀ q s offset, (p.parseLexemes lexemes context).value = .error (.unexpected q s offset) →
      ∃ n before t, p.engine.run n (.initial lexemes context)
          = some (p.parseLexemes lexemes context)
        ∧ p.engine.history n lexemes context = before ++ [.read t]
        ∧ t.symbol = s ∧ t.offset = offset)
    ∧ ∀ read c c' id, p.engine.Reached lexemes context read c →
      p.engine.action? c = some (.reduce id) → p.engine.step c = .next c' →
      ∃ n c'', p.engine.Chain n c' c'' ∧ c''.lookahead = c.lookahead ∧ p.engine.Decides c''
  := by
  obtain ⟨g, a, hencodes, hover, hexact⟩ := hp.exists_over_exact
  have h : p.engine.table.Over g a := hover
  have hend := hencodes.endOfInput
  constructor
  · intro q s offset herror
    have hends : p.engine.Ends (.initial lexemes context) (p.parseLexemes lexemes context) := by
      apply Engine.ends_parse
      rw [← parseLexemes, herror]
      intro hendless
      cases hendless
    obtain ⟨n, hrun⟩ := hends
    obtain ⟨before, t, hseen, hsymbol, hoffset⟩ :=
      Engine.Standing.initial.trace_of_unexpected h hend hexact (.inl ⟨[], rfl⟩) hrun herror
    exact ⟨n, before, t, hrun, hseen, hsymbol, hoffset⟩
  · intro read c c' id hc haction hstep
    obtain ⟨γ, q, below, values, input, _, rfl, hstanding⟩ := hc.exists_standing h hend
    obtain ⟨x, index, stack', r, value, context', hx, hreduces, hr, rfl⟩ :=
      hstanding.eq_of_reduce h haction hstep
    obtain ⟨-, δ, hnext⟩ := hstanding.reduce h hreduces hr
    have hrules : ∀ {index r}, g.rule? (.user index) = some r →
        ∃ rule, p.engine.rules[index]? = some rule := by
      intro index r hr
      obtain ⟨rule, hrule, -⟩ := hencodes.exists_production_at hr
      exact ⟨rule, hrule⟩
    apply (hnext value).exists_chain_decides h hrules hx
      (hreduces.settles h hexact hstanding.spells)

end Library

/-- In the small language no `a` is expected after `a b`.  The rule for `a` alone is reduced by
before, on `b`, and the `a` that is not expected is taken from the input last. -/
theorem finds_errors_at_once_small :
  ((Parser.small .canonicalOnly).parseLexemes
      (Language.smallWord ++ Language.smallWord) ()).value
      = .error (.unexpected 3 (.label "a") 0)
    ∧ ∃ n before t, (Parser.small .canonicalOnly).engine.history n
        (Language.smallWord ++ Language.smallWord) () = before ++ [.read t]
      ∧ t.symbol = .label "a"
  := by
  have herror := (Parser.small .canonicalOnly).engine.error_of_run
    (Language.smallWord ++ Language.smallWord) () 6 (e := .unexpected 3 (.label "a") 0)
    (by decide +kernel)
  use herror
  obtain ⟨hunexpected, -⟩ := finds_errors_at_once (Parser.small_generated .canonicalOnly)
    (Language.smallWord ++ Language.smallWord) ()
  obtain ⟨n, before, t, -, hseen, hsymbol, -⟩ := hunexpected _ _ _ herror
  exact ⟨n, before, t, hseen, hsymbol⟩

end Parser.Generated

end ShiftReduce
