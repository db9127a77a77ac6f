import ShiftReduce.Proofs.Parser.Soundness

/-!
# What comes after the end of the input

A parser with a generated table takes the first end of input for the end of the lexemes,
whatever its interpretation is.  When it accepts it looks at one more lexeme, which must be
an end of input too, and it does not look at the lexemes after that one: they are dropped.
-/

namespace ShiftReduce

namespace Engine

variable {σ V : Type} {m : Engine σ V}

/-- A reduction does not look at the lexemes. -/
theorem reduce_reading (m : Engine σ V) (states : List StateId) (values : List V) (context : σ)
    (id : RuleId) :
  (∃ e context', ∀ input, m.reduce (.reading states values input context) id
      = .stop ⟨.error e, context'⟩)
    ∨ ∃ states' values' context', ∀ input, m.reduce (.reading states values input context) id
      = .next (.reading states' values' input context')
  := by
  simp only [reduce, Configuration.reading]
  cases m.rule? id with
  | none => apply Or.inl ⟨_, _, fun _ => rfl⟩
  | some found =>
      obtain ⟨rule, shape⟩ := found
      by_cases hlength : values.length < shape.length
      · simp only [hlength, if_true]
        apply Or.inl ⟨_, _, fun _ => rfl⟩
      · simp only [hlength, if_false]
        cases states.drop shape.length with
        | nil => apply Or.inl ⟨_, _, fun _ => rfl⟩
        | cons top below =>
            cases m.interpretation.nonterminal rule (values.take shape.length).reverse
              context with
            | mk result context' =>
                cases result with
                | error message => apply Or.inl ⟨_, _, fun _ => rfl⟩
                | ok value =>
                    by_cases hgoto : ∃ target,
                        m.table.action? top shape.lhs = some (.goto target)
                    · obtain ⟨target, hgoto⟩ := hgoto
                      refine Or.inr ⟨target :: top :: below, value :: values.drop shape.length,
                        context', fun _ => ?_⟩
                      simp only [hgoto]
                    · refine Or.inl ⟨.missingGoto top rule.lhs, context', fun _ => ?_⟩
                      dsimp only
                      split
                      · rename_i target heq
                        cases hgoto ⟨target, heq⟩
                      · rfl

/-- A shift looks at the first lexeme only. -/
theorem shift_reading (m : Engine σ V) (states : List StateId) (values : List V) (first : Lexeme V)
    (finish : Nat) (context : σ) (target : StateId) :
  (∃ e context', ∀ rest, m.shift (.reading states values ⟨first :: rest, finish⟩ context) target
      = .stop ⟨.error e, context'⟩)
    ∨ ∃ value context', ∀ rest,
      m.shift (.reading states values ⟨first :: rest, finish⟩ context) target
        = .next (.reading (target :: states) (value :: values) ⟨rest, first.finish⟩ context')
  := by
  simp only [shift, Configuration.reading, Input.head, Input.tail]
  cases m.interpretation.terminal first context with
  | mk result context' =>
      cases result with
      | error message => apply Or.inl ⟨_, _, fun _ => rfl⟩
      | ok value => apply Or.inr ⟨_, _, fun _ => rfl⟩

/-- Two steps that are made on some lexemes, where after these the one has an end of input and
what follows it, and the other has nothing. -/
inductive Alike (lexeme : Lexeme V) (following : List (Lexeme V)) :
    Step σ V → Step σ V → Prop where
  /-- Both go on in the same way. -/
  | next {read : List (Lexeme V)} (hread : ∀ l ∈ read, l.symbol ≠ .endOfInput)
      (states : List StateId) (values : List V) (finish : Nat) (context : σ) :
      Alike lexeme following
        (.next (.reading states values ⟨read ++ lexeme :: following, finish⟩ context))
        (.next (.reading states values ⟨read, finish⟩ context))
  /-- Both fail. -/
  | fail (e e' : ParseError) (context context' : σ) :
      Alike lexeme following (.stop ⟨.error e, context⟩) (.stop ⟨.error e', context'⟩)
  /-- Both accept. -/
  | accept (hlast : firstSymbol following = .endOfInput) (value : V) (context : σ) :
      Alike lexeme following (.stop ⟨.ok value, context⟩) (.stop ⟨.ok value, context⟩)
  /-- One of them sees that there is something else. -/
  | more (hlast : firstSymbol following ≠ .endOfInput) (e : ParseError) (value : V)
      (context : σ) :
      Alike lexeme following (.stop ⟨.error e, context⟩) (.stop ⟨.ok value, context⟩)

section

variable {g : Grammar} {a : Automaton} {lexeme : Lexeme V} {following read : List (Lexeme V)}

/-- Accepting before the end of input looks at what follows it. -/
theorem alike_accept (states : List StateId) (values : List V) (finish : Nat) (context : σ)
    (q : StateId) :
  Alike lexeme following
    (accept (.reading states values ⟨lexeme :: following, finish⟩ context) q)
    (accept (.reading states values ⟨[], finish⟩ context) q)
  := by
  have hnil : firstSymbol (V := V) [] = .endOfInput := rfl
  rw [accept_reading, accept_reading, List.tail_cons, List.tail_nil, if_pos hnil]
  by_cases hlast : firstSymbol following = .endOfInput
  · rw [if_pos hlast]
    cases values with
    | nil => apply Alike.fail
    | cons value values => apply Alike.accept hlast
  · rw [if_neg hlast]
    cases values with
    | nil => apply Alike.fail
    | cons value values => apply Alike.more hlast

/-- Reductions are alike. -/
theorem alike_reduce (m : Engine σ V) (hread : ∀ l ∈ read, l.symbol ≠ .endOfInput)
    (states : List StateId) (values : List V) (finish : Nat) (context : σ) (id : RuleId) :
  Alike lexeme following
    (m.reduce (.reading states values ⟨read ++ lexeme :: following, finish⟩ context) id)
    (m.reduce (.reading states values ⟨read, finish⟩ context) id)
  := by
  rcases m.reduce_reading states values context id with
    ⟨e, context', hstop⟩ | ⟨states', values', context', hnext⟩
  · rw [hstop, hstop]
    apply Alike.fail
  · rw [hnext, hnext]
    apply Alike.next hread

/-- Shifts of a lexeme before the end of input are alike. -/
theorem alike_shift (m : Engine σ V) {first : Lexeme V}
    (hread : ∀ l ∈ first :: read, l.symbol ≠ .endOfInput) (states : List StateId)
    (values : List V) (finish : Nat) (context : σ) (target : StateId) :
  Alike lexeme following
    (m.shift (.reading states values ⟨first :: read ++ lexeme :: following, finish⟩ context) target)
    (m.shift (.reading states values ⟨first :: read, finish⟩ context) target)
  := by
  rw [List.cons_append]
  rcases m.shift_reading states values first finish context target with
    ⟨e, context', hstop⟩ | ⟨value, context', hnext⟩
  · rw [hstop, hstop]
    apply Alike.fail
  · rw [hnext, hnext]
    apply Alike.next (List.forall_mem_cons.mp hread).2

/-- The steps before an end of input are alike, whatever comes after it. -/
theorem step_alike (following : List (Lexeme V)) (h : m.table.Over g a)
    (hend : g.symbols.id? .endOfInput = some endOfInputId)
    (hlexeme : lexeme.symbol = .endOfInput) (hread : ∀ l ∈ read, l.symbol ≠ .endOfInput)
    (states : List StateId) (values : List V) (finish : Nat) (context : σ) :
  Alike lexeme following
    (m.step (.reading states values ⟨read ++ lexeme :: following, finish⟩ context))
    (m.step (.reading states values ⟨read, finish⟩ context))
  := by
  have hsymbol : (Input.head ⟨read, finish⟩).symbol
      = (Input.head ⟨read ++ lexeme :: following, finish⟩).symbol := by
    cases read with
    | nil => exact hlexeme.symm
    | cons first read => rfl
  apply step_related
  · rfl
  · rfl
  · apply hsymbol
  · intro e
    apply Alike.fail
  · intro q x target hx haction
    cases read with
    | nil =>
        -- no end of input is shifted
        obtain ⟨_, _, hrest, hhead, -, hne⟩ := exists_of_shift h hend hx haction
        cases hne (hhead ▸ hlexeme)
    | cons first read => apply alike_shift m hread
  · intro id
    apply alike_reduce m hread
  · intro q x hx haction
    cases read with
    | nil => apply alike_accept
    | cons first read =>
        -- only an end of input is accepted
        obtain ⟨_, _, rfl, -⟩ := h.hasCore_of_accept haction
        rw [ParseTable.symbolId?, h.symbols] at hx
        cases (List.forall_mem_cons.mp hread).1 (SymbolTable.id?_injective hx hend)

/-- A run ends with a value before the end of input and whatever comes after it as it does
where the lexemes end there, provided that the next lexeme is not anything else. -/
theorem run_endOfInput (h : m.table.Over g a)
    (hend : g.symbols.id? .endOfInput = some endOfInputId)
    (hlexeme : lexeme.symbol = .endOfInput) (hread : ∀ l ∈ read, l.symbol ≠ .endOfInput) (n : Nat)
    {states : List StateId} {values : List V} {finish : Nat} {context context' : σ} {v : V} :
  m.run n (.reading states values ⟨read ++ lexeme :: following, finish⟩ context)
      = some ⟨.ok v, context'⟩
    ↔ m.run n (.reading states values ⟨read, finish⟩ context) = some ⟨.ok v, context'⟩
      ∧ firstSymbol following = .endOfInput
  := by
  induction n generalizing read states values finish context with
  | zero => simp [run]
  | succ n ih =>
      have halike := step_alike following h hend hlexeme hread states values
        finish context
      rw [run, run]
      generalize m.step (.reading states values ⟨read ++ lexeme :: following, finish⟩ context)
        = long at halike ⊢
      generalize m.step (.reading states values ⟨read, finish⟩ context) = short at halike ⊢
      cases halike with
      | next hread' states' values' finish' context' => apply ih hread'
      | fail e e' context context' => simp
      | accept hlast value context => simp [hlast]
      | more hlast e value context => simp [hlast]

/-- So a parse ends in the same way. -/
theorem ends_endOfInput (h : m.table.Over g a)
    (hend : g.symbols.id? .endOfInput = some endOfInputId)
    (hlexeme : lexeme.symbol = .endOfInput) (hread : ∀ l ∈ read, l.symbol ≠ .endOfInput)
    {context context' : σ} {v : V} :
  m.Ends (.initial (read ++ lexeme :: following) context) ⟨.ok v, context'⟩
    ↔ m.Ends (.initial read context) ⟨.ok v, context'⟩ ∧ firstSymbol following = .endOfInput
  := by
  simp only [Configuration.initial_eq, Ends, run_endOfInput h hend hlexeme hread,
    exists_and_right]

end

end Engine

namespace Parser.Generated

section Library

variable [PatternLibrary] {σ V E : Type} {p : Parser σ V E} {strategy : Strategy}

/-- A parse returns a value if and only if the lexemes before the first end of input give it
and no other lexeme comes directly after that end of input. -/
theorem parseLexemes_eq_ok_iff (hp : p.Generated strategy) (lexemes : List (Lexeme V))
    (context context' : σ) (v : V) :
  p.parseLexemes lexemes context = ⟨.ok v, context'⟩
    ↔ p.parseLexemes (beforeEnd lexemes) context = ⟨.ok v, context'⟩
      ∧ firstSymbol (afterEnd lexemes) = .endOfInput
  := by
  obtain ⟨g, a, hencodes, hover⟩ := hp.exists_over
  rw [parseLexemes, parseLexemes, Engine.parse_eq_ok_iff, Engine.parse_eq_ok_iff]
  obtain ⟨following, hlexemes, hend, hafter⟩ := exists_eq_beforeEnd_append lexemes
  rw [hafter]
  conv_lhs => rw [hlexemes]
  cases following with
  | nil =>
      rw [List.append_nil]
      exact (and_iff_left rfl).symm
  | cons lexeme following =>
      apply Engine.ends_endOfInput hover hencodes.endOfInput hend symbol_ne_of_mem_beforeEnd

/-- So a parse returns some value exactly if the lexemes before the first end of input give
some value and no other lexeme comes directly after that end of input. -/
theorem exists_value_iff (hp : p.Generated strategy) (lexemes : List (Lexeme V)) (context : σ) :
  (∃ v, (p.parseLexemes lexemes context).value = .ok v)
    ↔ (∃ v, (p.parseLexemes (beforeEnd lexemes) context).value = .ok v)
      ∧ firstSymbol (afterEnd lexemes) = .endOfInput
  := by
  constructor
  · rintro ⟨v, hv⟩
    have hparsed : p.parseLexemes lexemes context
        = ⟨.ok v, (p.parseLexemes lexemes context).context⟩ := by rw [← hv]
    obtain ⟨hbefore, hafter⟩ := (hp.parseLexemes_eq_ok_iff lexemes context _ v).mp hparsed
    refine ⟨⟨v, ?_⟩, hafter⟩
    rw [hbefore]
  · rintro ⟨⟨v, hv⟩, hafter⟩
    have hparsed : p.parseLexemes (beforeEnd lexemes) context
        = ⟨.ok v, (p.parseLexemes (beforeEnd lexemes) context).context⟩ := by rw [← hv]
    use v
    rw [(hp.parseLexemes_eq_ok_iff lexemes context _ v).mpr ⟨hparsed, hafter⟩]

/-- A parse looks at one lexeme after the first end of input: it returns a value exactly if the
lexemes before that end of input give the value and the next lexeme, if there is one, is an end
of input as well.  So it drops other lexemes exactly if the lexemes before the first end of
input give a value and a second end of input stands between that one and them. -/
theorem endOfInput_hides_lexemes (hp : p.Generated strategy) (lexemes : List (Lexeme V))
    (context : σ) :
  (∀ v context', p.parseLexemes lexemes context = ⟨.ok v, context'⟩
      ↔ p.parseLexemes (beforeEnd lexemes) context = ⟨.ok v, context'⟩
        ∧ firstSymbol (afterEnd lexemes) = .endOfInput)
    ∧ ((∃ v, (p.parseLexemes lexemes context).value = .ok v)
        ∧ (∃ lexeme ∈ afterEnd lexemes, lexeme.symbol ≠ .endOfInput)
      ↔ (∃ v, (p.parseLexemes (beforeEnd lexemes) context).value = .ok v)
        ∧ ∃ second rest, afterEnd lexemes = second :: rest ∧ second.symbol = .endOfInput
          ∧ ∃ lexeme ∈ rest, lexeme.symbol ≠ .endOfInput)
  := by
  constructor
  · intro v context'
    apply hp.parseLexemes_eq_ok_iff
  · rw [hp.exists_value_iff, and_assoc, and_congr_right_iff]
    intro _
    cases afterEnd lexemes with
    | nil => simp
    | cons second rest =>
        constructor
        · rintro ⟨hsecond, lexeme, hlexeme, hne⟩
          refine ⟨second, rest, rfl, hsecond, lexeme, ?_, hne⟩
          rcases List.mem_cons.mp hlexeme with rfl | hlexeme
          · cases hne hsecond
          · apply hlexeme
        · rintro ⟨_, _, heq, hsecond, lexeme, hlexeme, hne⟩
          cases heq
          exact ⟨hsecond, lexeme, List.mem_cons_of_mem _ hlexeme, hne⟩

end Library

/-- A lexeme that no rule has at the front of a word is dropped after two ends of input. -/
theorem endOfInput_hides_lexemes_small :
  ∃ lexemes : List (Lexeme ParseTree),
    lexemes.map Lexeme.symbol = [.label "a", .endOfInput, .endOfInput, .label "b"]
      ∧ ∃ t, ((Parser.small .canonicalOnly).parseLexemes lexemes ()).value = .ok t
  := by
  have hvalue := (Parser.small .canonicalOnly).engine.exists_value_of_run
    (Language.smallWord.take 1) () 4 (by decide +kernel)
  refine ⟨Language.smallWord.take 1 ++ [.endOfInput 1, .endOfInput 1]
    ++ Language.smallWord.drop 1, rfl, ?_⟩
  apply ((endOfInput_hides_lexemes (Parser.small_generated .canonicalOnly) _ ()).2.mpr ?_).1
  exact ⟨hvalue, .endOfInput 1, Language.smallWord.drop 1, rfl, rfl, _,
    List.mem_singleton_self _, nofun⟩

end Parser.Generated

end ShiftReduce
