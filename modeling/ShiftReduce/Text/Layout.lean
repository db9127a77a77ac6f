/-!
# Laying out text

Padding, joining and lines, as the printers of this library use them.
-/

namespace ShiftReduce.Text

/-- The decimal numeral of `n`, filled up with `fill` on the left to at least `width`
characters. -/
def padded (width : Nat) (fill : Char) (n : Nat) : String :=
  String.ofList (List.leftpad width fill (Nat.repr n).toList)

/-- The texts with `separator` between any two neighbours. -/
def joined (separator : String) (texts : List String) : String :=
  separator.intercalate texts

/-- The text followed by a line end. -/
def line (text : String) : String :=
  text ++ "\n"

/-- The texts one after the other, each as a line. -/
def lines (texts : List String) : String :=
  String.join (texts.map line)

/-- The texts in brackets, with a comma and a blank between any two neighbours. -/
def bracketed (texts : List String) : String :=
  "[" ++ joined ", " texts ++ "]"

/-- The fields of a record, each as its name, a colon and its text, with a comma and a
blank between any two neighbours. -/
def fields (parts : List (String × String)) : String :=
  joined ", " (parts.map fun (name, text) => s!"{name}: {text}")

/-- A record: its name and, in braces, all its fields. -/
def record (name : String) (parts : List (String × String)) : String :=
  name ++ " \x7b " ++ fields parts ++ " \x7d"

/-- A record of which only some fields are shown. -/
def partialRecord (name : String) (parts : List (String × String)) : String :=
  name ++ " \x7b " ++ String.join (parts.map fun (name, text) => s!"{name}: {text}, ") ++
    ".. \x7d"

/-- The texts in braces, with a comma and a blank between any two neighbours. -/
def braced (texts : List String) : String :=
  "\x7b" ++ joined ", " texts ++ "\x7d"

/-- A text that may be missing. -/
def optional : Option String → String
  | some text => s!"Some({text})"
  | none => "None"

end ShiftReduce.Text
