import ShiftReduce.Symbol

/-!
# Lexemes

A lexeme is a piece of text together with the symbol it stands for.  Offsets count the
bytes of the text that come before, in the encoding UTF-8.
-/

namespace ShiftReduce

/-- A symbol read from the input: the text it was read from, the offset of that text, and
the value that was given to it while it was read, if any. -/
structure Lexeme (V : Type) where
  symbol : Symbol
  text : String
  offset : Nat
  value : Option V := none

namespace Lexeme

variable {V : Type}

/-- The lexeme that marks the end of the input. -/
def endOfInput (offset : Nat) : Lexeme V :=
  { symbol := .endOfInput, text := "", offset }

/-- Whether a lexeme marks the end of the input. -/
def isEndOfInput (lexeme : Lexeme V) : Bool :=
  lexeme.symbol = .endOfInput

/-- The offset right after the text of a lexeme. -/
def finish (lexeme : Lexeme V) : Nat :=
  lexeme.offset + lexeme.text.utf8ByteSize

end Lexeme

end ShiftReduce
