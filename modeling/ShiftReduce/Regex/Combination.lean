import ShiftReduce.Regex.Basic

/-!
# Combining regular expressions

Regular expressions are put one after the other, tried as branches, and repeated.  What
comes of it is kept simple.  Empty expressions do not appear in a sequence, and sequences
and alternations hang to the right, so that `Regex.parts` and `Regex.branches` list what
they are made of.  Branches that match a character each become one set; and if all branches
begin with the same things, these are matched first, and only what follows them is left to
an alternation.  Characters next to each other are a text, which is one thing in this.
-/

namespace ShiftReduce.Regex

open Unicode (CodePoints)

/-! ### Sequences -/

/-- The expressions that are matched one after the other. -/
def parts : Regex → List Regex
  | empty => []
  | sequence r s => r.parts ++ s.parts
  | r => [r]

/-- The expression with some parts. -/
def ofParts : List Regex → Regex
  | [] => .empty
  | [r] => r
  | r :: rest => .sequence r (ofParts rest)

/-- Matches several expressions one after the other. -/
def concatenation (l : List Regex) : Regex :=
  ofParts (l.flatMap parts)

/-- The set of an expression that matches one character. -/
def set? : Regex → Option CodePoints
  | set s => some s
  | _ => none

/-- The only character that an expression matches, if it matches one character. -/
def character? (r : Regex) : Option Nat :=
  r.set?.bind CodePoints.single?

/-- Whether an expression matches one character, and which one that is, is certain. -/
def isCharacter (r : Regex) : Bool :=
  r.character?.isSome

/-- The parts of an expression, where characters that stand next to each other are kept
together as a text. -/
def elements (r : Regex) : List (List Regex) :=
  r.parts.splitBy fun r s => r.isCharacter && s.isCharacter

/-- The characters of an expression that matches a text and nothing else. -/
def text? (r : Regex) : Option (List Nat) :=
  if r.parts.isEmpty then none else r.parts.mapM character?

/-! ### Alternations -/

/-- The expressions that are tried one after the other. -/
def branches : Regex → List Regex
  | either r s => r.branches ++ s.branches
  | r => [r]

/-- The expression with some branches. -/
def ofBranches : List Regex → Regex
  | [] => .set .empty
  | [r] => r
  | r :: rest => .either r (ofBranches rest)

/-- The set that takes the place of branches that match a character each, if all of them are
certain of it or none is. -/
def mergedSet? (l : List Regex) : Option CodePoints :=
  if l.all isCharacter || l.all (! ·.isCharacter) then
    (l.mapM set?).map CodePoints.unions
  else none

/-- What two lists begin with. -/
def commonStart {α : Type} [DecidableEq α] (l m : List α) : List α :=
  (l.zip m).takeWhile (fun (a, b) => a = b) |>.map Prod.fst

/-- What all branches begin with, where each of them has several elements. -/
def sharedStart (l : List Regex) : List (List Regex) :=
  let sequences := l.map elements
  if sequences.all (1 < ·.length) then
    match sequences with
    | [] => []
    | first :: rest => rest.foldl commonStart first
  else []

/-- Tries several expressions one after the other; the number is at least as great as the
number of places in them. -/
def alternationWithin : (size : Nat) → List Regex → Regex
  | 0, l => ofBranches l
  | n + 1, l =>
    match l.flatMap branches with
    | [r] => r
    | l =>
      match mergedSet? l with
      | some s => .set s
      | none =>
        match sharedStart l with
        | [] => ofBranches l
        | start =>
          let rest (r : Regex) : Regex := ofParts (r.elements.drop start.length).flatten
          concatenation (start.flatten ++ [alternationWithin n (l.map rest)])

/-- Tries several expressions one after the other. -/
def alternation (l : List Regex) : Regex :=
  alternationWithin (l.foldl (fun size r => size + r.width) 1) l

/-! ### Repetitions -/

/-- Matches `r` at least `least` times and, if there is a bound, at most so many times.  It
makes no difference how often `r` is matched, once it has been, if it matches no characters;
and what is matched once need not be repeated. -/
def repeated (r : Regex) (least : Nat) (most : Option Nat) (greedy : Bool) : Regex :=
  let (least, most) :=
    if r.matchesNoCharacters then (min least 1, some (min (most.getD 1) 1))
    else (least, most)
  if most = some 0 then .empty
  else if least = 1 && most = some 1 then r
  else .repetition r least most greedy

end ShiftReduce.Regex
