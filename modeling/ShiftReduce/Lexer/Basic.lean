import ShiftReduce.Language
import ShiftReduce.Lexer.Tokenization

/-!
# Lexers

A lexer has the compiled lexical rules of a language.  It splits a text into lexemes: again
and again it takes the preferred match at the start of what is left of the text, lets the
rule react to it, and goes on after the match.  When nothing is left it adds the lexeme
that marks the end of the input.  Every tokenization starts with the rules of the lexer in
the default state; what stays from one text to the next are the events that reactions have
reported.
-/

namespace ShiftReduce

variable [PatternLibrary]

/-- Why a text cannot be split into lexemes. -/
inductive LexError where
  /-- No rule that is visible in the state matches. -/
  | noMatch (offset : Nat) (state : String)
  /-- A reaction gave up with a message. -/
  | reaction (offset : Nat) (message : String)
  /-- A reaction asked for a lexeme with a reserved symbol. -/
  | reservedSymbol (offset : Nat) (symbol : Symbol)
  deriving DecidableEq

/-- The wording of an error. -/
def LexError.message : LexError → String
  | noMatch offset state => s!"no pattern matched at offset {offset} (state `{state}')"
  | reaction offset _ => s!"lexer callback failed at offset {offset}"
  | reservedSymbol offset symbol =>
    s!"lexer callback emitted the reserved token `{symbol.text}' at offset {offset}"

/-- What has come of a tokenization: all events that have been reported so far, and the
lexemes or the error. -/
structure Tokenized (V E : Type) where
  events : List E
  lexemes : Except LexError (List (Lexeme V))

namespace Outcome

variable {V : Type}

/-- The lexeme that becomes of a match, if any, where the rule has the symbol `declared`. -/
def lexeme? (outcome : Outcome V) (declared : Option Symbol) (matched : String)
    (offset : Nat) : Option (Lexeme V) :=
  match outcome with
  | emit => declared.map fun symbol => { symbol, text := matched, offset }
  | relabel symbol => some { symbol, text := matched, offset }
  | attach symbol value => some { symbol, text := matched, offset, value := some value }
  | replace lexeme => some lexeme
  | skip => none

end Outcome

namespace Tokenization

variable {V E : Type}

/-- The lexeme that becomes of a match, if any, unless it has a reserved symbol. -/
def emitted (m : Match V E) (matched : String) (offset : Nat) (outcome : Outcome V) :
    Except LexError (List (Lexeme V)) :=
  match outcome.lexeme? m.rule.symbol matched offset with
  | none => .ok []
  | some lexeme =>
    if lexeme.symbol.isReserved then .error (.reservedSymbol offset lexeme.symbol)
    else .ok [lexeme]

/-- Splits what is left of a text into lexemes, where `offset` counts the bytes before, and
some events have been reported. -/
def scan (t : Tokenization V E) (events : List E) (offset : Nat) (rest : List Char) :
    Tokenized V E :=
  if rest = [] then
    ⟨events, .ok [.endOfInput offset]⟩
  else
    match t.match? rest with
    | none => ⟨events, .error (.noMatch offset t.states.current)⟩
    | some m =>
      let matched := String.ofList (rest.take m.length)
      let reacted := t.reactTo events m matched
      match reacted.outcome with
      | .error message => ⟨reacted.events, .error (.reaction offset message)⟩
      | .ok outcome =>
        match emitted m matched offset outcome with
        | .error e => ⟨reacted.events, .error e⟩
        | .ok lexemes =>
          let following := scan reacted.after reacted.events (offset + matched.utf8ByteSize)
            (rest.drop m.length)
          ⟨following.events, following.lexemes.map (lexemes ++ ·)⟩
termination_by rest.length
decreasing_by
  have := m.positive
  have := List.length_pos_iff.mpr ‹¬ rest = []›
  simp only [List.length_drop]
  omega

end Tokenization

/-- The compiled rules of a language, and the states that they make exclusive. -/
structure Lexer (V E : Type) where
  rules : List (CompiledRule V E)
  exclusive : List String := (rules.flatMap fun rule => rule.exclusiveStates).eraseDups
  exclusive_eq :
    exclusive = (rules.flatMap fun rule => rule.exclusiveStates).eraseDups := by rfl

namespace Lexer

variable {V E : Type}

/-- The lexer with some rules.  Of several that cannot be compiled, the first one is
refused. -/
def ofRules (rules : List (LexRule V E)) : Except PatternError (Lexer V E) := do
  return { rules := ← rules.mapM LexRule.compile }

/-- Rules that are compiled one by one stay the same rules. -/
theorem mapM_compile_eq_ok_iff {rules : List (LexRule V E)} {compiled : List (CompiledRule V E)} :
  rules.mapM LexRule.compile = .ok compiled ↔ compiled.map CompiledRule.toLexRule = rules
  := by
  induction rules generalizing compiled with
  | nil =>
    constructor
    · rintro ⟨⟩
      rfl
    · intro h
      rw [List.map_eq_nil_iff.mp h]
      rfl
  | cons rule rules ih =>
    rw [List.mapM_cons, List.map_eq_cons_iff]
    cases hrule : rule.compile with
    | error e =>
      constructor
      · rintro ⟨⟩
      · rintro ⟨first, others, -, hfirst, -⟩
        cases hrule.symm.trans (LexRule.compile_eq_ok_iff.mpr hfirst)
    | ok first =>
      simp only [← LexRule.compile_eq_ok_iff, hrule, ← ih]
      cases rules.mapM LexRule.compile with
      | error e => simp [bind, Except.bind]
      | ok others => simp [bind, Except.bind, pure, Except.pure, eq_comm]

/-- The lexer with some rules has these and no others. -/
theorem ofRules_eq_ok_iff {rules : List (LexRule V E)} {lexer : Lexer V E} :
  ofRules rules = .ok lexer ↔ lexer.rules.map CompiledRule.toLexRule = rules
  := by
  rw [← mapM_compile_eq_ok_iff, ofRules]
  obtain ⟨compiled, exclusive, rfl⟩ := lexer
  cases rules.mapM LexRule.compile with
  | error e => simp [bind, Except.bind]
  | ok others =>
    simp only [bind, Except.bind, pure, Except.pure, Except.ok.injEq, mk.injEq]
    constructor
    · exact And.left
    · rintro rfl
      exact ⟨rfl, rfl⟩

/-- The lexer of a language. -/
def ofLanguage (language : Language V E) : Except PatternError (Lexer V E) :=
  ofRules language.lexRules

/-- Splits a text into lexemes, of which the last one marks the end of the input.  Reactions
have reported some events before, for earlier texts. -/
def tokenize (lexer : Lexer V E) (text : String) (earlier : List E := []) : Tokenized V E :=
  (Tokenization.initial lexer.rules lexer.exclusive).scan earlier 0 text.toList

/-- A lexer as text. -/
def inspect (lexer : Lexer V E) : String :=
  Text.record "Lexer"
    [("rules", Text.bracketed (lexer.rules.map CompiledRule.inspect)),
     ("exclusive", Text.braced (lexer.exclusive.map Text.quoted))]

end Lexer

end ShiftReduce
