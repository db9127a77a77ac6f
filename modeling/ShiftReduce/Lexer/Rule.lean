import ShiftReduce.Lexeme
import ShiftReduce.Lexer.StateStack

/-!
# Lexical rules

A lexical rule says which texts stand for which symbol.  It may carry a reaction: a
program that runs whenever the rule has matched.  It can change the lexical state, add and
remove rules, and it decides what becomes of the match.

A reaction is a tree of requests.  Each request asks one thing of the running tokenization
and continues with the answer, until an outcome or a failure is reached.  A reaction also
reports events of a type `E`, which are collected, and it can look at those that have been
reported so far, so that it can keep something in mind from one match to the next.
-/

namespace ShiftReduce

/-! ### Patterns -/

/-- A description of the texts that a rule matches. -/
inductive Pattern where
  /-- Exactly this text, unless it would end inside a word. -/
  | literal (text : String)
  /-- The texts this regular expression matches. -/
  | regex (source : String)
  deriving DecidableEq

/-- A pattern as text. -/
def Pattern.inspect : Pattern → String
  | literal text => s!"Literal({Text.quoted text})"
  | regex source => s!"Regex({Text.quoted source})"

/-- Why a lexical rule cannot be used. -/
inductive PatternError where
  /-- The literal has no characters. -/
  | emptyLiteral
  /-- The symbol of the rule is a reserved one. -/
  | reservedSymbol (symbol : Symbol)
  /-- The text is no regular expression. -/
  | invalidRegex (source : String)
  deriving DecidableEq

/-- The wording of an error. -/
def PatternError.message : PatternError → String
  | emptyLiteral => "empty literal pattern"
  | reservedSymbol symbol =>
    s!"the reserved token `{symbol.text}' cannot be emitted by a lexical rule"
  | invalidRegex source => s!"invalid regular expression `{source}'"

/-! ### Reactions -/

/-- What becomes of a match. -/
inductive Outcome (V : Type) where
  /-- A lexeme with the symbol of the rule, or nothing if the rule has none. -/
  | emit
  /-- A lexeme with another symbol. -/
  | relabel (symbol : Symbol)
  /-- A lexeme with another symbol and with a value. -/
  | attach (symbol : Symbol) (value : V)
  /-- This lexeme. -/
  | replace (lexeme : Lexeme V)
  /-- Nothing. -/
  | skip

/-- A program that acts on a running tokenization, to which it can add rules of type `R`,
and reports events of type `E`. -/
inductive Reaction (R V E : Type) where
  /-- Ends with an outcome. -/
  | finish (outcome : Outcome V)
  /-- Gives up with a message. -/
  | fail (message : String)
  /-- Moves to a state and forgets the current one. -/
  | jump (state : String) (next : Reaction R V E)
  /-- Moves to a state and saves the current one. -/
  | call (state : String) (next : Reaction R V E)
  /-- Comes back to the state saved last. -/
  | leave (next : Reaction R V E)
  /-- Adds a rule under a label, in place of the one that was added under it before. -/
  | add (label : String) (rule : R) (next : Except PatternError Unit → Reaction R V E)
  /-- Removes the rule that was added under a label; the answer says whether there was
  one. -/
  | remove (label : String) (next : Bool → Reaction R V E)
  /-- Looks at the situation. -/
  | look (next : Situation → Reaction R V E)
  /-- Reports an event. -/
  | report (event : E) (next : Reaction R V E)
  /-- Looks at the events that have been reported, in their order. -/
  | review (next : List E → Reaction R V E)

/-! ### Rules -/

/-- A lexical rule.  A rule without a symbol matches texts that are passed over.  A rule
without states belongs to the default state; the states of an exclusive rule do not
inherit the rules of the default state. -/
structure LexRule (V E : Type) where
  symbol : Option Symbol
  pattern : Pattern
  priority : Int := 0
  states : List String := []
  exclusive : Bool := false
  /-- The reaction to a match, from the matched text and the symbol of the rule. -/
  reaction : Option (String → Option Symbol → Reaction (LexRule V E) V E) := none

/-- A lexical rule as text; of its reaction, only whether there is one. -/
def LexRule.inspect {V E : Type} (rule : LexRule V E) : String :=
  Text.record "LexRule"
    [("token", Text.optional (rule.symbol.map Symbol.inspect)),
     ("pattern", rule.pattern.inspect),
     ("priority", toString rule.priority),
     ("callback", toString rule.reaction.isSome),
     ("states", Text.bracketed (rule.states.map Text.quoted)),
     ("exclusive", toString rule.exclusive)]

end ShiftReduce
