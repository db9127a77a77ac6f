import ShiftReduce.Unicode.CaseFolding
import ShiftReduce.Unicode.Property

/-!
# Sets of characters

The sets of characters for which regular expressions have a notation of their own, and the
operations that make one set of another: its complement, and the set of all characters that
are the same as one in the set where case makes no difference.
-/

namespace ShiftReduce.CharSet

open Unicode (CodePoints Category Property)

/-! ### Operations -/

/-- The characters that a set leaves over.  Where an interval of the set ends right before
the surrogates and another one begins right after them, what lies between the two are the
characters on either side of the surrogates, and these are left over as well. -/
def complement (s : CodePoints) : CodePoints :=
  let before := Unicode.lastBeforeSurrogates
  let after := Unicode.firstAfterSurrogates
  if s.intervals.any (·.last = before) && s.intervals.any (·.first = after) then
    s.complement.union (.interval before after)
  else s.complement

/-- The letter of ASCII that differs from `c` in case only. -/
def otherAsciiCase (c : Char) : Char :=
  if c.isUpper then c.toLower else c.toUpper

/-- The letters of ASCII. -/
def asciiLetters : List Char :=
  (List.range 128).map Char.ofNat |>.filter Char.isAlpha

/-- The characters that are the same as one in a set up to the case of the letters of
ASCII. -/
def asciiCaseClosure (s : CodePoints) : CodePoints :=
  s.union (.ofList ((asciiLetters.filter s.contains).map fun c => (otherAsciiCase c).toNat))

/-! ### Particular sets -/

/-- The set whose only member is `c`. -/
def single (c : Char) : CodePoints :=
  .single c.toNat

/-- The characters from `first` to `last`, both included. -/
def interval (first last : Char) : CodePoints :=
  .interval first.toNat last.toNat

/-- The characters of several intervals. -/
def intervals (l : List (Char × Char)) : CodePoints :=
  .unions (l.map fun (first, last) => interval first last)

/-- The characters of a list. -/
def ofList (l : List Char) : CodePoints :=
  .ofList (l.map Char.toNat)

/-- All characters. -/
def any : CodePoints :=
  complement .empty

/-- The decimal digits. -/
def digits : CodePoints :=
  Category.members .decimalNumber

/-- White space. -/
def spaces : CodePoints :=
  Property.members .whiteSpace

/-- The characters of words: letters, marks, decimal digits, connecting punctuation and the
controls that join letters. -/
def wordCharacters : CodePoints :=
  .unions
    [Property.members .alphabetic, Category.membersOf Category.marks,
     Category.members .decimalNumber, Category.members .connectorPunctuation,
     Property.members .joinControl]

/-- The decimal digits of ASCII. -/
def asciiDigits : CodePoints :=
  interval '0' '9'

/-- The white space of ASCII. -/
def asciiSpaces : CodePoints :=
  intervals [('\t', '\r'), (' ', ' ')]

/-- The letters and decimal digits of ASCII, and the underscore. -/
def asciiWordCharacters : CodePoints :=
  intervals [('a', 'z'), ('A', 'Z'), ('0', '9'), ('_', '_')]

end ShiftReduce.CharSet
