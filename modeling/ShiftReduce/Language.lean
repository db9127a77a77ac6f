import ShiftReduce.Lexer.Rule
import ShiftReduce.Production

/-!
# Languages

A language is made of lexical rules, production rules and a start symbol.  It is built up
by a definition, which takes in rules one by one and refuses those that mention a reserved
symbol or an empty label, and those it has already.  A call that is refused returns an
error and no definition, so that the definition it was made on is the one to go on with.
-/

namespace ShiftReduce

/-- Why a definition refuses a rule or cannot be completed. -/
inductive LanguageError where
  /-- There is neither a start symbol nor a rule to take it from. -/
  | missingStart
  /-- The reserved symbols stand in no rule. -/
  | reservedSymbol (symbol : Symbol)
  /-- A label has at least one character. -/
  | emptyLabel
  /-- The rule is there already. -/
  | duplicateRule (lhs : Symbol) (rhs : List Symbol)
  deriving DecidableEq

/-- The wording of an error. -/
def LanguageError.message : LanguageError → String
  | missingStart => "the start symbol is not specified and there are no rules"
  | reservedSymbol symbol => s!"the reserved token `{symbol.text}' cannot be used in a rule"
  | emptyLabel => "empty token label"
  | duplicateRule lhs rhs => s!"duplicate production rule detected: {Production.textOf lhs rhs}"

/-- The symbols that may stand in a rule are the labels with at least one character. -/
def Symbol.verify : Symbol → Except LanguageError Unit
  | .label name => if name.isEmpty then .error .emptyLabel else .ok ()
  | symbol => .error (.reservedSymbol symbol)

/-- Lexical rules, production rules and a start symbol.  The place of a production rule is
its number. -/
structure Language (V E : Type) where
  lexRules : List (LexRule V E)
  rules : List (Production V)
  start : Symbol

/-- A language under construction. -/
structure Definition (V E : Type) where
  lexRules : List (LexRule V E) := []
  rules : List (Production V) := []
  start : Option Symbol := none

namespace Definition

variable {V E : Type}

/-- The definition without rules. -/
def empty : Definition V E := {}

/-- One more lexical rule.  Its symbol is checked when the definition is completed. -/
def addLexRule (d : Definition V E) (rule : LexRule V E) : Definition V E :=
  { d with lexRules := d.lexRules ++ [rule] }

/-- One more production rule, if its symbols are labels and it is not there yet. -/
def addRule (d : Definition V E) (rule : Production V) :
    Except LanguageError (Definition V E) := do
  rule.lhs.verify
  rule.rhs.forM Symbol.verify
  if d.rules.any rule.sameShape then
    throw (.duplicateRule rule.lhs rule.rhs)
  return { d with rules := d.rules ++ [rule] }

/-- The rule by which `lhs` becomes empty. -/
def addEmptyRule (d : Definition V E) (lhs : Symbol) : Except LanguageError (Definition V E) :=
  d.addRule { lhs, rhs := [] }

/-- Another start symbol. -/
def setStart (d : Definition V E) (symbol : Symbol) :
    Except LanguageError (Definition V E) := do
  symbol.verify
  return { d with start := some symbol }

/-- The language that is defined, if the symbols of its lexical rules are labels.  Where no
start symbol has been set it is the left-hand side of the first rule. -/
def complete (d : Definition V E) : Except LanguageError (Language V E) := do
  (d.lexRules.filterMap LexRule.symbol).forM Symbol.verify
  match d.start <|> d.rules.head?.map Production.lhs with
  | some symbol => return { lexRules := d.lexRules, rules := d.rules, start := symbol }
  | none => throw .missingStart

end Definition

namespace Language

variable {V E : Type}

/-- A language as text: its start symbol, and its production rules with their numbers. -/
def display (language : Language V E) : String :=
  Text.line s!"## start: {language.start.text}" ++ Text.line "## rules:" ++
    Text.lines (language.rules.mapIdx fun i rule =>
      Text.padded 3 ' ' i ++ ": " ++ rule.text)

/-- A language as text, with all its parts. -/
def inspect (language : Language V E) : String :=
  Text.record "Language"
    [("lex_rules", Text.bracketed (language.lexRules.map LexRule.inspect)),
     ("rules", Text.bracketed (language.rules.map Production.inspect)),
     ("start", language.start.inspect)]

end Language

end ShiftReduce
