import ShiftReduce.Parser.Engine
import ShiftReduce.Regex.Library

/-!
# Parsers

A parser has a language, a parse table and the lexer of the language.  A text is split into
lexemes, and these are parsed with the table; the values come from the interpretation of
the parser.  Where no other library for regular expressions is given, it is `Regex.library`.
-/

namespace ShiftReduce

variable [PatternLibrary]

/-- A parser of a language. -/
structure Parser (σ V E : Type) where
  language : Language V E
  table : ParseTable
  lexer : Lexer V E
  interpretation : Interpretation σ V

namespace Parser

variable {σ V E : Type}

/-- The parser of a language with a table, whose lexer is made from the language. -/
def make (language : Language V E) (table : ParseTable) (interpretation : Interpretation σ V) :
    Except PatternError (Parser σ V E) := do
  return { language, table, lexer := ← Lexer.ofLanguage language, interpretation }

/-- The parser with another interpretation. -/
def interpreted (p : Parser σ V E) (interpretation : Interpretation σ V) : Parser σ V E :=
  { p with interpretation }

/-- The engine of a parser. -/
def engine (p : Parser σ V E) : Engine σ V :=
  ⟨p.language.rules, p.table, p.interpretation⟩

/-- Parses some lexemes from a context on. -/
def parseLexemes (p : Parser σ V E) (lexemes : List (Lexeme V)) (context : σ) : Parsed σ V :=
  p.engine.parse lexemes context

/-- Parses a text from a context on.  The events are all that reactions have reported after the
tokenization, those included that they had reported earlier. -/
def parse (p : Parser σ V E) (text : String) (context : σ) (earlier : List E := []) :
    List E × Parsed σ V :=
  let tokenized := p.lexer.tokenize text earlier
  match tokenized.lexemes with
  | .error e => (tokenized.events, ⟨.error (.lex e), context⟩)
  | .ok lexemes => (tokenized.events, p.parseLexemes lexemes context)

/-- A parser as text. -/
def inspect (p : Parser σ V E) : String :=
  Text.partialRecord "Parser"
    [("language", p.language.inspect),
     ("table", p.table.kind.text),
     ("lexer", p.lexer.inspect)]

end Parser

end ShiftReduce
