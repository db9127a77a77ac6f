import ShiftReduce.Unicode.Addition
import ShiftReduce.Unicode.Property

/-!
# Quoted text

A text between double quotes in which a quote, a backslash, a line end, a carriage
return, a tab and a null stand as a backslash and one more character, and any other
character that cannot be printed, or that would combine with the one before it, stands as
`\u`, its number in hexadecimal digits between braces.
-/

namespace ShiftReduce.Text

open Unicode (CodePoints Category Property)

/-- The characters that leave no mark of their own on paper: controls, blanks, those that
are ignored by default, and those that are unassigned. -/
def unprintable : CodePoints :=
  CodePoints.unions
    [Category.assigned.complement.difference Unicode.version17Additions,
     Category.membersOf
      [.control, .format, .privateUse, .spaceSeparator, .lineSeparator, .paragraphSeparator],
     Property.defaultIgnorableCodePointMembers]

/-- Whether a character can be printed as it is. -/
def isPrintable (c : Char) : Bool :=
  if c.toNat < 128 then 32 ≤ c.toNat && c.toNat < 127 else ! unprintable.contains c

/-- The marks that join the character before them in one grapheme. -/
def combining : CodePoints :=
  (Property.graphemeExtendMembers.intersection (Category.membersOf Category.marks)).union
    Unicode.version17Extenders

/-- Whether a character joins the one before it in one grapheme. -/
def isCombining (c : Char) : Bool :=
  128 ≤ c.toNat && combining.contains c

/-- The characters that stand for `c` between quotes. -/
def escape (c : Char) : List Char :=
  match c with
  | '"' => ['\\', '"']
  | '\\' => ['\\', '\\']
  | '\n' => ['\\', 'n']
  | '\r' => ['\\', 'r']
  | '\t' => ['\\', 't']
  | '\x00' => ['\\', '0']
  | c =>
    if isPrintable c && ! isCombining c then [c]
    else ['\\', 'u', '{'] ++ Nat.toDigits 16 c.toNat ++ ['}']

/-- The text between quotes. -/
def quoted (text : String) : String :=
  String.ofList ('"' :: (text.toList.flatMap escape ++ ['"']))

end ShiftReduce.Text
