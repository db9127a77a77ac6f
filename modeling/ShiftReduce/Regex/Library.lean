import ShiftReduce.Lexer.Library
import ShiftReduce.Regex.Reader
import ShiftReduce.Regex.Size

/-!
# A library for regular expressions

Patterns are read as `Regex.expression?` reads them, and searched for with `Regex.find?`.  An
expression whose height or whose size is too great is refused.  A character can stand within a
word if identifiers can go on with it.
-/

namespace ShiftReduce.Regex

/-- The greatest height of a regular expression. -/
def maxHeight : Nat := 250

/-- Whether identifiers can go on with a character. -/
def continuesIdentifier (c : Char) : Bool :=
  if c.toNat < 128 then c.isAlphanum || c = '_'
  else
    Unicode.Property.xidContinueMembers.contains c || Unicode.laterWordCharacters.contains c

/-- The expressions of this library come with their heights. -/
instance library : PatternLibrary where
  Expression := Regex × Nat
  parse? pattern := expression? pattern.toList
  fits read := read.2 ≤ maxHeight && read.1.fits
  find? read := read.1.find?
  Describes read text := read.1.Matches text
  isWordCharacter := continuesIdentifier

end ShiftReduce.Regex
