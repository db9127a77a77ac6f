import ShiftReduce.Regex.ClassName
import ShiftReduce.Regex.Combination
import ShiftReduce.Unicode.Addition

/-!
# Reading regular expressions

`Regex.expression?` reads the notation of regular expressions, in which a text stands for itself
except for the characters that have a meaning of their own.  Groups, alternations,
repetitions, classes of characters, assertions and flags may stand in it; conditions on what
comes before or after, and references back to a group, may not.  A flag holds from the place
where it is set to the end of the group it is set in.

The reader goes through the text once, from left to right.  The groups that are open are on
a stack, with what had been read when they were opened; a class of characters has a stack of
its own for the brackets that are open in it.

What is read has a height, which counts how deep its parts are nested.
-/

namespace ShiftReduce.Regex

open Unicode (CodePoints)

/-! ### Heights -/

/-- The height of several things side by side, which is one more than that of the highest one
unless there is but one. -/
def heightOfAll : List Nat → Nat
  | [] => 0
  | [height] => height
  | heights => heights.foldl max 0 + 1

/-! ### Flags -/

/-- The flags that are set at a place. -/
structure Flags where
  /-- The case of letters makes no difference. -/
  caseless : Bool := false
  /-- Lines, and not only the text, have a start and an end. -/
  multiLine : Bool := false
  /-- The dot matches the ends of lines as well. -/
  dotMatchesAll : Bool := false
  /-- Repetitions are greedy where they are marked as not greedy, and the other way round. -/
  swapGreed : Bool := false
  /-- Classes have the characters of Unicode, and not only those of ASCII. -/
  unicode : Bool := true
  /-- A carriage return ends a line as well. -/
  crlf : Bool := false
  /-- Blanks and comments may stand between the parts of the expression. -/
  verbose : Bool := false

/-- The flags after one of them has been set or cleared. -/
def Flags.assign (flags : Flags) (flag : Char) (value : Bool) : Flags :=
  match flag with
  | 'i' => { flags with caseless := value }
  | 'm' => { flags with multiLine := value }
  | 's' => { flags with dotMatchesAll := value }
  | 'U' => { flags with swapGreed := value }
  | 'u' => { flags with unicode := value }
  | 'R' => { flags with crlf := value }
  | 'x' => { flags with verbose := value }
  | _ => flags

/-- Reads flags up to the colon or parenthesis that ends them.  The answer says whether it is a
parenthesis.  Each flag stands at most once, and after a hyphen flags are cleared; there is at
most one hyphen, and something follows it.  Before a parenthesis there is something. -/
def readFlags (flags : Flags) (met : List Char) :
    List Char → Option ((Flags × Bool) × List Char)
  | [] => none
  | c :: rest =>
    if c = ':' || c = ')' then
      if met.head? = some '-' || c = ')' && met.isEmpty then none
      else some ((flags, c = ')'), rest)
    else if met.contains c then none
    else if c = '-' then readFlags flags (c :: met) rest
    else if "imsUuRx".toList.contains c then
      readFlags (flags.assign c (! met.contains '-')) (c :: met) rest
    else none

/-! ### Blanks -/

/-- Whether a character is white space. -/
def isBlank (c : Char) : Bool :=
  CharSet.spaces.contains c

/-- What is left after blanks, and after comments, which go from a number sign to the end of
the line. -/
def skipComments (inComment : Bool) : List Char → List Char
  | [] => []
  | c :: rest =>
    if inComment then skipComments (c ≠ '\n') rest
    else if isBlank c then skipComments false rest
    else if c = '#' then skipComments true rest
    else c :: rest

/-- What is left after the blanks and comments that may stand here. -/
def skip (flags : Flags) (text : List Char) : List Char :=
  if flags.verbose then skipComments false text else text

/-- The characters from the start on that satisfy `p`, at most `n` of them, and what is left
after them; blanks and comments may stand after each. -/
def readRun (flags : Flags) (p : Char → Bool) : Nat → List Char → List Char × List Char
  | 0, text => ([], text)
  | _ + 1, [] => ([], [])
  | n + 1, c :: rest =>
    if p c then
      let (run, left) := readRun flags p n (skip flags rest)
      (c :: run, left)
    else
      ([], c :: rest)

/-- All characters from the start on that satisfy `p`, and what is left after them. -/
def readAll (flags : Flags) (p : Char → Bool) (text : List Char) : List Char × List Char :=
  readRun flags p text.length text

/-- Reads characters that satisfy `p`, up to the brace that closes them. -/
def readBraced (flags : Flags) (p : Char → Bool) (text : List Char) :
    Option (List Char × List Char) :=
  match readAll flags p text with
  | (run, '}' :: rest) => some (run, rest)
  | _ => none

/-- What comes next after a blank or a comment where one may stand.  The character that
follows the number sign of a comment counts as coming next. -/
def peekPast (first : Option Char) (inComment : Bool) : List Char → Option Char
  | [] => first
  | c :: rest =>
    if isBlank c then peekPast first inComment rest
    else if ! inComment && c = '#' then peekPast first true rest
    else some c

/-- The character that comes next, apart from blanks and comments where they may stand. -/
def peek? (flags : Flags) (text : List Char) : Option Char :=
  if flags.verbose then peekPast text.head? false text else text.head?

/-! ### Characters and classes -/

/-- What a single character or an escape stands for. -/
inductive Atom where
  | char (c : Char)
  | set (s : CodePoints)
  | assertion (a : Assertion)

/-- The set of characters that match a set under the flags. -/
def foldSet (flags : Flags) (s : CodePoints) : CodePoints :=
  if flags.caseless then
    if flags.unicode then s.caseClosure else CharSet.asciiCaseClosure s
  else s

/-- The set of characters that match a character under the flags. -/
def foldChar (flags : Flags) (c : Char) : CodePoints :=
  if flags.caseless && flags.unicode then CharSet.ofList (Unicode.caseVariants c)
  else foldSet flags (CharSet.single c)

/-- The characters of words under the flags. -/
def wordSet (flags : Flags) : CodePoints :=
  if flags.unicode then CharSet.wordCharacters else CharSet.asciiWordCharacters

/-- The complement of a set, which there is only among the characters of Unicode. -/
def complement? (flags : Flags) (s : CodePoints) : Option CodePoints :=
  if flags.unicode then some (CharSet.complement s) else none

/-- The character with a number. -/
def charOf? (n : Nat) : Option Char :=
  if n.isValidChar then some (Char.ofNat n) else none

/-- Whether a character is a hexadecimal digit. -/
def isHexDigit (c : Char) : Bool :=
  c.isDigit || 'a' ≤ c && c ≤ 'f' || 'A' ≤ c && c ≤ 'F'

/-- Reads the number of a character: hexadecimal digits in braces, or a fixed count of
them. -/
def readNumber (flags : Flags) (count : Nat) (text : List Char) :
    Option (Char × List Char) :=
  match skip flags text with
  | '{' :: rest => do
    let (digits, rest) ← readBraced flags isHexDigit (skip flags rest)
    if digits.isEmpty then none
    else (charOf? (Unicode.readHex digits)).map (·, skip flags rest)
  | text =>
    let (digits, rest) := readRun flags isHexDigit count text
    if digits.length < count then none
    else do
      let c ← charOf? (Unicode.readHex digits)
      if ! flags.unicode && count = 2 && 128 ≤ c.toNat then none
      else some (c, rest)

/-- The texts before and after the first place where `mark` stands. -/
def splitAtMark? (mark : List Char) : List Char → Option (List Char × List Char)
  | [] => none
  | c :: rest =>
    if mark.isPrefixOf (c :: rest) then some ([], (c :: rest).drop mark.length)
    else (splitAtMark? mark rest).map fun (before, after) => (c :: before, after)

/-- The set that the text between the braces of a property stands for, and whether it is the
complement that is meant. -/
def propertySet? (text : List Char) : Option (CodePoints × Bool) :=
  match splitAtMark? ['!', '='] text with
  | some (name, value) => (ClassName.findValue? name value).map (·, true)
  | none =>
    match splitAtMark? [':'] text <|> splitAtMark? ['='] text with
    | some (name, value) => (ClassName.findValue? name value).map (·, false)
    | none => (ClassName.find? text).map (·, false)

/-- Reads the name of a property, a single character or a text in braces. -/
def readPropertyName (flags : Flags) (text : List Char) : Option (List Char × List Char) :=
  match skip flags text with
  | [] => none
  | '{' :: rest => readBraced flags (· ≠ '}') (skip flags rest)
  | c :: rest => if c = '\\' then none else some ([c], skip flags rest)

/-- Reads a property after its letter. -/
def readProperty (flags : Flags) (negated : Bool) (text : List Char) :
    Option (CodePoints × List Char) := do
  let (name, rest) ← readPropertyName flags text
  let (s, complemented) ← if flags.unicode then propertySet? name else none
  let s := foldSet flags s
  return (if negated != complemented then CharSet.complement s else s, rest)

/-- Whether a character that has a meaning of its own loses it after a backslash, or has
none there, so that it stands for itself. -/
def isEscapable (c : Char) : Bool :=
  c.toNat < 128 && ! c.isAlphanum && c ≠ '<' && c ≠ '>'

/-- Reads the kind of a word boundary in braces; what stands in them is left unread if it
does not begin like one, and read as a repetition. -/
def readBoundary (flags : Flags) (rest : List Char) : Option (Assertion × List Char) :=
  let word := wordSet flags
  let isName (c : Char) : Bool := c.isAlpha || c = '-'
  match rest with
  | '{' :: inner =>
    let inner := skip flags inner
    if inner.head?.any isName then do
      let (name, left) ← readBraced flags isName inner
      match String.ofList name with
      | "start" => some (.wordStart word, left)
      | "end" => some (.wordEnd word, left)
      | "start-half" => some (.wordStartHalf word, left)
      | "end-half" => some (.wordEndHalf word, left)
      | _ => none
    else some (.boundary word, rest)
  | _ => some (.boundary word, rest)

/-- Reads what follows a backslash. -/
def readEscape (flags : Flags) : List Char → Option (Atom × List Char)
  | [] => none
  | c :: rest =>
    let set (s ascii : CodePoints) : Option (Atom × List Char) :=
      some (.set (if flags.unicode then s else ascii), rest)
    let complement (s : CodePoints) : Option (Atom × List Char) :=
      (complement? flags s).map (.set ·, rest)
    let char (c : Char) : Option (Atom × List Char) := some (.char c, rest)
    match c with
    | 'x' => (readNumber flags 2 rest).map fun (c, rest) => (.char c, rest)
    | 'u' => (readNumber flags 4 rest).map fun (c, rest) => (.char c, rest)
    | 'U' => (readNumber flags 8 rest).map fun (c, rest) => (.char c, rest)
    | 'p' => (readProperty flags false rest).map fun (s, rest) => (.set s, rest)
    | 'P' => (readProperty flags true rest).map fun (s, rest) => (.set s, rest)
    | 'd' => set CharSet.digits CharSet.asciiDigits
    | 's' => set CharSet.spaces CharSet.asciiSpaces
    | 'w' => set CharSet.wordCharacters CharSet.asciiWordCharacters
    | 'D' => complement CharSet.digits
    | 'S' => complement CharSet.spaces
    | 'W' => complement CharSet.wordCharacters
    | 'a' => char '\x07'
    | 'f' => char '\x0c'
    | 't' => char '\t'
    | 'n' => char '\n'
    | 'r' => char '\r'
    | 'v' => char '\x0b'
    | 'A' => some (.assertion .textStart, rest)
    | 'z' => some (.assertion .textEnd, rest)
    | 'b' => (readBoundary flags rest).map fun (a, rest) => (.assertion a, rest)
    | 'B' => some (.assertion (.notBoundary (wordSet flags)), rest)
    | '<' => some (.assertion (.wordStart (wordSet flags)), rest)
    | '>' => some (.assertion (.wordEnd (wordSet flags)), rest)
    | c => if isEscapable c then char c else none

/-! ### Classes in brackets -/

/-- An operation on two sets. -/
inductive SetOperation where
  | intersection
  | difference
  | symmetricDifference

/-- The operation for which a character stands that is doubled. -/
def SetOperation.of? : Char → Option SetOperation
  | '&' => some intersection
  | '-' => some difference
  | '~' => some symmetricDifference
  | _ => none

/-- The result of an operation. -/
def SetOperation.apply : SetOperation → CodePoints → CodePoints → CodePoints
  | intersection => CodePoints.intersection
  | difference => CodePoints.difference
  | symmetricDifference => CodePoints.symmetricDifference

/-- A set within brackets that has been read, with its height. -/
structure Member where
  set : CodePoints
  height : Nat := 0

/-- An open bracket: whether the complement of the class is meant, the left-hand side of an
operation that waits for its right-hand side, and what has been read since. -/
structure Bracket where
  negated : Bool
  pending : Option (SetOperation × Member) := none
  members : List Member := []

/-- The bracket with one more member. -/
def Bracket.add (b : Bracket) (m : Member) : Bracket :=
  { b with members := m :: b.members }

/-- The bracket with one more character. -/
def Bracket.addChar (b : Bracket) (c : Char) : Bracket :=
  b.add { set := CharSet.single c }

/-- The set of what has been read, with the operation that waited for it. -/
def Bracket.value (flags : Flags) (b : Bracket) : Member :=
  let s := foldSet flags (.unions (b.members.map Member.set))
  let height := heightOfAll (b.members.map Member.height)
  match b.pending with
  | none => { set := s, height }
  | some (operation, left) =>
    { set := operation.apply left.set s, height := max left.height height + 1 }

/-- The bracket in which an operation waits for its right-hand side. -/
def Bracket.suspend (flags : Flags) (b : Bracket) (operation : SetOperation) : Bracket :=
  { b with pending := some (operation, b.value flags), members := [] }

/-- The set of a bracket that is closed. -/
def Bracket.close? (flags : Flags) (b : Bracket) : Option Member := do
  let m := b.value flags
  let s ← if b.negated then complement? flags m.set else some m.set
  return { set := s, height := m.height + 1 }

/-- Reads hyphens that stand for themselves after an opening bracket, blanks and comments
aside. -/
def readHyphens (flags : Flags) : Nat → Bracket → List Char → Bracket × List Char
  | n + 1, b, '-' :: rest => readHyphens flags n (b.addChar '-') (skip flags rest)
  | _, b, text => (b, text)

/-- Reads what can stand only right after an opening bracket: a circumflex, for the
complement, hyphens, and if there are none a closing bracket that stands for itself. -/
def readOpening (flags : Flags) (text : List Char) : Bracket × List Char :=
  let text := skip flags text
  let (negated, text) := match text with
    | '^' :: rest => (true, skip flags rest)
    | _ => (false, text)
  let (b, text) := readHyphens flags text.length { negated } text
  match text with
  | ']' :: rest => if b.members.isEmpty then (b.addChar ']', skip flags rest) else (b, text)
  | _ => (b, text)

/-- Reads a name of a set of ASCII characters up to the colon and the bracket after it. -/
def readNameOfSet (negated : Bool) (text : List Char) : Option (Bool × CodePoints × List Char) :=
  match text.dropWhile (· ≠ ':') with
  | ':' :: ']' :: left =>
    (ClassName.ascii? (text.takeWhile (· ≠ ':'))).map (negated, ·, left)
  | _ => none

/-- Reads a name of a set of ASCII characters after an opening bracket that is already within
a bracket.  The answer says whether the complement is meant. -/
def readAsciiName : List Char → Option (Bool × CodePoints × List Char)
  | ':' :: '^' :: rest => readNameOfSet true rest
  | ':' :: rest => readNameOfSet false rest
  | _ => none

/-- Reads a single character or an escape within brackets. -/
def readMember (flags : Flags) : List Char → Option (Atom × List Char)
  | [] => none
  | '\\' :: rest => readEscape flags rest
  | c :: rest => some (.char c, rest)

/-- Whether a character may stand in a class under the flags. -/
def admits (flags : Flags) (c : Char) : Bool :=
  flags.unicode || c.toNat < 128

/-- The set for which a single character or an escape stands that is no end of an interval. -/
def single? (flags : Flags) : Atom → Option CodePoints
  | .char c => if admits flags c then some (CharSet.single c) else none
  | .set s => some s
  | .assertion _ => none

/-- The set of the characters from one to another. -/
def interval? (flags : Flags) : Atom → Atom → Option CodePoints
  | .char a, .char b =>
    if a ≤ b && admits flags b then some (CharSet.interval a b) else none
  | _, _ => none

/-- Reads what follows `first` within brackets as far as it is the end of an interval. -/
def readEnd (flags : Flags) (first : Atom) : List Char → Option (CodePoints × List Char)
  | '-' :: rest =>
    if peek? flags rest = some ']' || peek? flags rest = some '-' then
      (single? flags first).map (·, '-' :: rest)
    else do
      let (last, rest) ← readMember flags (skip flags rest)
      (interval? flags first last).map (·, rest)
  | rest => (single? flags first).map (·, rest)

/-- Reads a member of a class: an interval, a single character or an escape that stands for a
set. -/
def readInterval (flags : Flags) (text : List Char) : Option (CodePoints × List Char) := do
  let (first, rest) ← readMember flags text
  readEnd flags first (skip flags rest)

/-- What comes of a part of a class: the class is closed, or the reader is within a bracket and
those around it. -/
inductive ClassPart where
  | closed (m : Member)
  | within (b : Bracket) (around : List Bracket)

/-- Reads the next part of a class from within a bracket and those around it. -/
def readClassPart (flags : Flags) (b : Bracket) (around : List Bracket) :
    List Char → Option (ClassPart × List Char)
  | [] => none
  | '[' :: rest =>
    match readAsciiName rest with
    | some (negated, s, rest) =>
      let s := foldSet flags s
      (if negated then complement? flags s else some s).map fun s =>
        (.within (b.add { set := s }) around, rest)
    | none =>
      let (inner, rest) := readOpening flags rest
      some (.within inner (b :: around), rest)
  | ']' :: rest => do
    let m ← b.close? flags
    match around with
    | [] => some (.closed m, rest)
    | outer :: around => some (.within (outer.add m) around, rest)
  | c :: rest =>
    let member : Option (ClassPart × List Char) :=
      (readInterval flags (c :: rest)).map fun (s, rest) =>
        (.within (b.add { set := s }) around, rest)
    match SetOperation.of? c with
    | some operation =>
      if rest.head? = some c then some (.within (b.suspend flags operation) around, rest.tail)
      else member
    | none => member

/-- Reads a class up to the bracket that closes it, from within a bracket and those around
it. -/
def readClass (flags : Flags) : Nat → Bracket → List Bracket → List Char →
    Option (Member × List Char)
  | 0, _, _, _ => none
  | n + 1, b, around, text => do
    match ← readClassPart flags b around (skip flags text) with
    | (.closed m, rest) => some (m, rest)
    | (.within b around, rest) => readClass flags n b around rest

/-- Reads a class after its opening bracket. -/
def readBracketed (flags : Flags) (text : List Char) : Option (Member × List Char) :=
  let (b, rest) := readOpening flags text
  readClass flags (text.length + 1) b [] rest

/-! ### Repetitions -/

/-- Reads a decimal number of at most 32 bits, between blanks. -/
def readDecimal (flags : Flags) (text : List Char) : Option Nat × List Char :=
  let (digits, rest) := readAll flags Char.isDigit (text.dropWhile isBlank)
  let n := digits.foldl (fun n c => 10 * n + (c.toNat - '0'.toNat)) 0
  let rest := (readAll flags isBlank rest).2
  (if digits.isEmpty || UInt32.size ≤ n then none else some n, rest)

/-- Reads the bounds of a repetition after their opening brace. -/
def readBounds (flags : Flags) (text : List Char) :
    Option ((Nat × Option Nat) × List Char) := do
  let (least, rest) := readDecimal flags (skip flags text)
  let least ← least
  match rest with
  | '}' :: rest => some ((least, some least), rest)
  | ',' :: rest =>
    match skip flags rest with
    | '}' :: rest => some ((least, none), rest)
    | rest =>
      match readDecimal flags rest with
      | (some most, '}' :: rest) =>
        if least ≤ most then some ((least, some most), rest) else none
      | _ => none
  | _ => none

/-- Reads the mark of a repetition that is not greedy. -/
def readLazy : List Char → Bool × List Char
  | '?' :: rest => (true, rest)
  | text => (false, text)

/-! ### Expressions -/

/-- A part of a branch, with its height: an expression, or a place where flags are set. -/
inductive Part where
  | regex (r : Regex) (height : Nat)
  | directive

/-- The height of a part. -/
def Part.height : Part → Nat
  | regex _ height => height
  | directive => 0

/-- The expression that a part stands for, if it stands for one. -/
def Part.regex? : Part → Option Regex
  | regex r _ => some r
  | directive => none

/-- The expression and the height of the parts of a branch, of which the last one comes
first. -/
def ofBranch (parts : List Part) : Regex × Nat :=
  (concatenation (parts.reverse.filterMap Part.regex?), heightOfAll (parts.map Part.height))

/-- A group within which the reader is: its number, if it has one, the flags outside of it,
and the branches and the parts of the last branch that had been read there. -/
structure Level where
  number : Option Nat
  flags : Flags
  branches : List (Regex × Nat)
  parts : List Part

/-- The parts read so far, the last one first, in the group within which the reader is; the
branches before them with their heights; the groups around; the names given to groups; and
the number of the groups that have numbers. -/
structure Progress where
  flags : Flags := {}
  branches : List (Regex × Nat) := []
  parts : List Part := []
  around : List Level := []
  names : List (List Char) := []
  groups : Nat := 0

namespace Progress

/-- One more part. -/
def push (p : Progress) (r : Regex) (height : Nat) : Progress :=
  { p with parts := .regex r height :: p.parts }

/-- The expression of all branches, the first one preferred, and its height. -/
def value (p : Progress) : Regex × Nat :=
  let branches := (ofBranch p.parts :: p.branches).reverse
  (alternation (branches.map Prod.fst), heightOfAll (branches.map Prod.snd))

/-- A new branch. -/
def alternate (p : Progress) : Progress :=
  { p with branches := ofBranch p.parts :: p.branches, parts := [] }

/-- A group with a number, or without one, is opened, in which the flags are `flags`. -/
def openLevel (p : Progress) (number : Option Nat) (flags : Flags) : Progress :=
  { p with
    flags
    branches := []
    parts := []
    around := ⟨number, p.flags, p.branches, p.parts⟩ :: p.around }

/-- A group with the next number is opened. -/
def openGroup (p : Progress) : Progress :=
  { p with groups := p.groups + 1 }.openLevel (some p.groups) p.flags

/-- The group within which the reader is, is closed. -/
def closeGroup? (p : Progress) : Option Progress :=
  match p.around with
  | [] => none
  | level :: around =>
    let (r, height) := p.value
    let r := match level.number with
      | some number => .group number r
      | none => r
    some { p with
      flags := level.flags
      branches := level.branches
      parts := .regex r (height + 1) :: level.parts
      around }

/-- The last part is repeated. -/
def repeat? (p : Progress) (least : Nat) (most : Option Nat) (notGreedy : Bool) :
    Option Progress :=
  match p.parts with
  | .regex r height :: parts =>
    let greedy := notGreedy == p.flags.swapGreed
    some { p with parts := .regex (r.repeated least most greedy) (height + 1) :: parts }
  | _ => none

/-- One more part, a single character or an escape. -/
def pushAtom (p : Progress) : Atom → Progress
  | .char c => p.push (.set (foldChar p.flags c)) 0
  | .set s => p.push (.set s) 0
  | .assertion a => p.push (.assertion a) 0

end Progress

/-- Whether a character is alphabetic. -/
def isAlphabetic (c : Char) : Bool :=
  Unicode.Property.alphabeticMembers.contains c || Unicode.version17Letters.contains c

/-- Whether a character is a number. -/
def isNumeric (c : Char) : Bool :=
  [Unicode.Category.decimalNumber, .letterNumber, .otherNumber].any
      (fun category => category.members.contains c) ||
    Unicode.version17Numbers.contains c

/-- Whether a character may stand in the name of a group, at its start or further on. -/
def isNameChar (first : Bool) (c : Char) : Bool :=
  c = '_' || isAlphabetic c ||
    ! first && (['.', '[', ']'].contains c || isNumeric c)

/-- Reads the name of a group, which no other group may have. -/
def readName (p : Progress) (text : List Char) : Option (Progress × List Char) :=
  let name := text.takeWhile (· ≠ '>')
  match name, text.dropWhile (· ≠ '>') with
  | first :: more, _ :: rest =>
    if isNameChar true first && more.all (isNameChar false) && ! p.names.contains name then
      some ({ p with names := name :: p.names }.openGroup, rest)
    else none
  | _, _ => none

/-- Reads flags in parentheses, which hold from there on if a closing parenthesis ends them,
and within a group that they open if a colon does. -/
def readFlagGroup (p : Progress) (text : List Char) : Option (Progress × List Char) :=
  (readFlags p.flags [] text).map fun ((flags, ended), rest) =>
    (if ended then { p with flags, parts := .directive :: p.parts } else p.openLevel none flags,
      rest)

/-- Reads what follows an opening parenthesis and a question mark. -/
def readMarkedGroup (p : Progress) : List Char → Option (Progress × List Char)
  | '=' :: _ => none
  | '!' :: _ => none
  | '<' :: '=' :: _ => none
  | '<' :: '!' :: _ => none
  | '<' :: rest => readName p rest
  | 'P' :: '<' :: rest => readName p rest
  | rest => readFlagGroup p rest

/-- Reads what follows an opening parenthesis. -/
def readGroup (p : Progress) (text : List Char) : Option (Progress × List Char) :=
  match skip p.flags text with
  | '?' :: rest => readMarkedGroup p rest
  | rest => some (p.openGroup, rest)

/-- Reads the mark that may follow a repetition, and repeats the last part. -/
def readRepetition (p : Progress) (least : Nat) (most : Option Nat) (rest : List Char) :
    Option (Progress × List Char) :=
  let (notGreedy, rest) := readLazy rest
  (p.repeat? least most notGreedy).map (·, rest)

/-- Reads the next part of an expression, which starts with `c`. -/
def readPart (p : Progress) (c : Char) (rest : List Char) : Option (Progress × List Char) :=
  match c with
  | '(' => readGroup p rest
  | ')' => p.closeGroup?.map (·, rest)
  | '|' => some (p.alternate, rest)
  | '[' => (readBracketed p.flags rest).map fun (m, rest) => (p.push (.set m.set) m.height, rest)
  | '?' => readRepetition p 0 (some 1) rest
  | '*' => readRepetition p 0 none rest
  | '+' => readRepetition p 1 none rest
  | '{' => do
    let ((least, most), rest) ← readBounds p.flags rest
    readRepetition p least most (skip p.flags rest)
  | '\\' => (readEscape p.flags rest).map fun (a, rest) => (p.pushAtom a, rest)
  | '.' =>
    let lineEnds : List Char := if p.flags.crlf then ['\n', '\r'] else ['\n']
    if ! p.flags.unicode then none
    else if p.flags.dotMatchesAll then some (p.push (.set CharSet.any) 0, rest)
    else some (p.push (.set (CharSet.complement (CharSet.ofList lineEnds))) 0, rest)
  | '^' =>
    let a := if p.flags.multiLine then .lineStart p.flags.crlf else .textStart
    some (p.push (.assertion a) 0, rest)
  | '$' =>
    let a := if p.flags.multiLine then .lineEnd p.flags.crlf else .textEnd
    some (p.push (.assertion a) 0, rest)
  | c => some (p.pushAtom (.char c), rest)

/-- Reads all parts of an expression. -/
def readParts : Nat → Progress → List Char → Option Progress
  | 0, p, text => if text.isEmpty then some p else none
  | n + 1, p, text =>
    match skip p.flags text with
    | [] => some p
    | c :: rest => do
      let (p, rest) ← readPart p c rest
      readParts n p rest

/-- The expression that a text stands for, with its height, however great they are. -/
def expression? (text : List Char) : Option (Regex × Nat) := do
  let p ← readParts (text.length + 1) {} text
  if p.around.isEmpty then some p.value else none

end ShiftReduce.Regex
