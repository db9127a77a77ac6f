import ShiftReduce.Regex.CharSet
import ShiftReduce.Unicode.Age
import ShiftReduce.Unicode.Segmentation

/-!
# Names of sets of characters

The names by which a regular expression mentions sets of characters.  Case, blanks, hyphens,
underscores and a leading `is` make no difference in them.  A name on its own is that of a
property, a category or a script.  With a value, it says of what the value is the name: of
one of these, of a version of Unicode, or of a class of characters for segmentation.
-/

namespace ShiftReduce.ClassName

open Unicode (CodePoints Category Property Script SegmentClass)

/-- The characters of a name that make a difference, in lower case. -/
def significant (name : List Char) : List Char :=
  (name.filter fun c => c.toNat < 128 && ! [' ', '_', '-'].contains c).map Char.toLower

/-- The form of a name that is the same for all its spellings.  A leading `is` goes, except
from the name `isc`, which has to be kept apart from `c`. -/
def normalize (name : List Char) : List Char :=
  match name with
  | i :: s :: rest =>
    if i.toLower = 'i' && s.toLower = 's' then
      match significant rest with
      | ['c'] => ['i', 's', 'c']
      | letters => letters
    else significant name
  | _ => significant name

/-- Whether a name in its normal form is that of something with the given name. -/
def names (normal : List Char) (name : String) : Bool :=
  normal = normalize name.toList

/-! ### Categories -/

/-- The groups of general categories, with their names. -/
def groups : List (List String × List Category) :=
  [(["LC", "Cased_Letter"], [.uppercaseLetter, .lowercaseLetter, .titlecaseLetter]),
   (["L", "Letter"], Category.letters),
   (["M", "Mark", "Combining_Mark"], Category.marks),
   (["N", "Number"], [.decimalNumber, .letterNumber, .otherNumber]),
   (["P", "Punctuation", "punct"],
    [.connectorPunctuation, .dashPunctuation, .openPunctuation, .closePunctuation,
     .initialPunctuation, .finalPunctuation, .otherPunctuation]),
   (["S", "Symbol"], [.mathSymbol, .currencySymbol, .modifierSymbol, .otherSymbol]),
   (["Z", "Separator"], [.spaceSeparator, .lineSeparator, .paragraphSeparator]),
   (["Nd", "digit"], [.decimalNumber]),
   (["Cc", "cntrl"], [.control])]

/-- The code points that have no category. -/
def unassigned : CodePoints :=
  Category.assigned.complement

/-- The code points that are neither letters, marks, numbers, punctuation, symbols nor
separators. -/
def others : CodePoints :=
  .unions
    [unassigned, Category.membersOf [.control, .format, .privateUse],
     ⟨#[Unicode.surrogates]⟩]

/-- The set a name in its normal form stands for as that of a category or of a group of
categories. -/
def category? (normal : List Char) : Option CodePoints :=
  if names normal "Any" then some CodePoints.empty.complement
  else if names normal "Assigned" then some Category.assigned
  else if names normal "ASCII" then some (.ofText "0000..007F")
  else if names normal "Cn" || names normal "Unassigned" then some unassigned
  else if names normal "C" || names normal "Other" then some others
  else
    match groups.find? fun (l, _) => l.any (names normal) with
    | some (_, members) => some (Category.membersOf members)
    | none =>
      (Category.all.find? fun c =>
        names normal c.abbreviation || names normal c.name).map Category.members

/-! ### Scripts, properties, versions and classes for segmentation -/

/-- The script with a name in its normal form. -/
def script? (normal : List Char) : Option Script :=
  Unicode.scripts.find? fun script => script.names.any (names normal)

/-- The set a name in its normal form stands for as that of a property. -/
def property? (normal : List Char) : Option CodePoints :=
  (Property.all.find? fun p => p.names.any (names normal)).map Property.members

/-- The characters of Unicode up to the version with a name in its normal form. -/
def age? (normal : List Char) : Option CodePoints :=
  Unicode.addedUpTo? fun version => version.names.any (names normal)

/-- The class with a name in its normal form among several. -/
def segmentClass? (classes : List SegmentClass) (normal : List Char) : Option CodePoints :=
  (classes.find? fun s => s.names.any (names normal)).map SegmentClass.members

/-- The set that a name stands for. -/
def find? (name : List Char) : Option CodePoints :=
  let normal := normalize name
  property? normal <|> category? normal <|> (script? normal).map Script.members

/-- The kinds of sets that have a name and a value, with their names. -/
def valueKinds : List (List String × (List Char → Option CodePoints)) :=
  [(["General_Category", "gc"], category?),
   (["Script", "sc"], fun normal => (script? normal).map Script.members),
   (["Script_Extensions", "scx"], fun normal => (script? normal).map Script.extendedMembers),
   (["Age"], age?),
   (["Grapheme_Cluster_Break", "GCB"], segmentClass? SegmentClass.forGraphemes),
   (["Word_Break", "WB"], segmentClass? SegmentClass.forWords),
   (["Sentence_Break", "SB"], segmentClass? SegmentClass.forSentences)]

/-- The set that a name and a value of it stand for. -/
def findValue? (name value : List Char) : Option CodePoints := do
  let normal := normalize name
  let (_, member?) ← valueKinds.find? fun (l, _) => l.any (names normal)
  member? (normalize value)

/-! ### Sets of ASCII characters -/

/-- The sets of ASCII characters that have names of their own within brackets. -/
def ascii? (name : List Char) : Option CodePoints :=
  match String.ofList name with
  | "alnum" => some (CharSet.intervals [('0', '9'), ('A', 'Z'), ('a', 'z')])
  | "alpha" => some (CharSet.intervals [('A', 'Z'), ('a', 'z')])
  | "ascii" => some (CharSet.interval '\x00' '\x7f')
  | "blank" => some (CharSet.intervals [('\t', '\t'), (' ', ' ')])
  | "cntrl" => some (CharSet.intervals [('\x00', '\x1f'), ('\x7f', '\x7f')])
  | "digit" => some (CharSet.interval '0' '9')
  | "graph" => some (CharSet.interval '!' '~')
  | "lower" => some (CharSet.interval 'a' 'z')
  | "print" => some (CharSet.interval ' ' '~')
  | "punct" => some (CharSet.intervals [('!', '/'), (':', '@'), ('[', '\x60'), ('{', '~')])
  | "space" => some CharSet.asciiSpaces
  | "upper" => some (CharSet.interval 'A' 'Z')
  | "word" => some CharSet.asciiWordCharacters
  | "xdigit" => some (CharSet.intervals [('0', '9'), ('A', 'F'), ('a', 'f')])
  | _ => none

end ShiftReduce.ClassName
