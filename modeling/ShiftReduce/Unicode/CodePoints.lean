/-!
# Sets of code points

A set of code points is held as an array of intervals in ascending order, of which no two
meet or touch, so that membership is decided by halving and two arrays are the same when
the sets are.  `CodePoints.ofText` reads the notation the Unicode character database uses
for such sets: hexadecimal numbers and intervals `first..last`, separated by blanks.

The surrogates are code points but no characters.  An interval may go across them, but
complements do not end among them.
-/

namespace ShiftReduce.Unicode

/-! ### Reading hexadecimal numbers -/

/-- The value of a hexadecimal digit, and `0` for any other character. -/
def hexValue (c : Char) : Nat :=
  if '0' ≤ c ∧ c ≤ '9' then c.toNat - '0'.toNat
  else if 'A' ≤ c ∧ c ≤ 'F' then c.toNat - 'A'.toNat + 10
  else if 'a' ≤ c ∧ c ≤ 'f' then c.toNat - 'a'.toNat + 10
  else 0

/-- The number a list of hexadecimal digits stands for, the most significant first. -/
def readHex (digits : List Char) : Nat :=
  digits.foldl (fun n c => 16 * n + hexValue c) 0

/-- The parts of `text` between the characters that satisfy `separates`. -/
def partsBetween (separates : Char → Bool) (text : List Char) : List (List Char) :=
  let (part, parts) := text.foldr
    (fun c (part, parts) =>
      if separates c then ([], part :: parts) else (c :: part, parts))
    ([], [])
  part :: parts

/-- The parts of `text` between blanks and line ends, without the empty ones. -/
def words (text : List Char) : List (List Char) :=
  (partsBetween Char.isWhitespace text).filter (! ·.isEmpty)

/-! ### Searching by halving -/

/-- An entry of `entries` that `place` finds equal to what is searched for, from position
`lo` on and before position `hi`, in an array that is ascending with respect to `place`.
So many steps are made at most as the first argument says. -/
def searchBetween {α : Type} (entries : Array α) (place : α → Ordering) :
    (steps lo hi : Nat) → Option α
  | 0, _, _ => none
  | steps + 1, lo, hi =>
    if lo < hi then
      let middle := (lo + hi) / 2
      match entries[middle]? with
      | none => none
      | some entry =>
        match place entry with
        | .lt => searchBetween entries place steps lo middle
        | .eq => some entry
        | .gt => searchBetween entries place steps (middle + 1) hi
    else
      none

/-- An entry of `entries` that `place` finds equal to what is searched for; `place` says
whether that lies before, at or after a given entry, and the array is ascending with
respect to it. -/
def search {α : Type} (entries : Array α) (place : α → Ordering) : Option α :=
  searchBetween entries place (entries.size + 1) 0 entries.size

/-! ### Intervals -/

/-- The code points from `first` to `last`, both included. -/
structure Interval where
  first : Nat
  last : Nat
  deriving DecidableEq

/-- The greatest code point. -/
def lastCodePoint : Nat := 0x10FFFF

/-- The last character before the surrogates. -/
def lastBeforeSurrogates : Nat := 0xD7FF

/-- The first character after the surrogates. -/
def firstAfterSurrogates : Nat := 0xE000

/-- The surrogates. -/
def surrogates : Interval := ⟨lastBeforeSurrogates + 1, firstAfterSurrogates - 1⟩

/-- The character that comes after a character. -/
def characterAfter (n : Nat) : Nat :=
  if n = lastBeforeSurrogates then firstAfterSurrogates else n + 1

/-- The character that comes before a character. -/
def characterBefore (n : Nat) : Nat :=
  if n = firstAfterSurrogates then lastBeforeSurrogates else n - 1

namespace Interval

/-- Where the number `n` lies with respect to an interval. -/
def place (n : Nat) (interval : Interval) : Ordering :=
  if n < interval.first then .lt else if interval.last < n then .gt else .eq

/-- The interval written `first..last`, or the single code point written as its number. -/
def ofWord (word : List Char) : Interval :=
  let first := word.takeWhile (· ≠ '.')
  let last := (word.dropWhile (· ≠ '.')).filter (· ≠ '.')
  ⟨readHex first, readHex (if last.isEmpty then first else last)⟩

/-- An interval and those of an ascending list, where intervals that meet or touch are made
into one. -/
def joinFrom (i : Interval) : List Interval → List Interval
  | [] => [i]
  | j :: rest =>
    if j.first ≤ i.last + 1 then joinFrom ⟨i.first, max i.last j.last⟩ rest
    else i :: joinFrom j rest

/-- The intervals of a list that is ascending by their first members, where those that meet
or touch are made into one. -/
def join : List Interval → List Interval
  | [] => []
  | i :: rest => joinFrom i rest

/-- The intervals between those of an ascending list, from the character `least` on. -/
def gaps (least : Nat) : List Interval → List Interval
  | [] => if least ≤ lastCodePoint then [⟨least, lastCodePoint⟩] else []
  | i :: rest =>
    let later := gaps (characterAfter i.last) rest
    if least < i.first then ⟨least, characterBefore i.first⟩ :: later else later

/-- The intervals of the numbers that belong to intervals of both of two ascending lists. -/
def common : List Interval → List Interval → List Interval
  | i :: rest, j :: more =>
    let first := max i.first j.first
    let last := min i.last j.last
    let later := if i.last < j.last then common rest (j :: more) else common (i :: rest) more
    if first ≤ last then ⟨first, last⟩ :: later else later
  | _, _ => []
termination_by l m => l.length + m.length

end Interval

/-! ### Sets -/

/-- A set of code points, as intervals in ascending order of which no two meet or touch. -/
structure CodePoints where
  intervals : Array Interval
  deriving DecidableEq

namespace CodePoints

/-- The set of the members of intervals that ascend by their first members. -/
def ofAscending (intervals : List Interval) : CodePoints :=
  ⟨(Interval.join intervals).toArray⟩

/-- The set of the members of intervals. -/
def ofIntervals (intervals : List Interval) : CodePoints :=
  ofAscending (intervals.mergeSort fun i j => i.first ≤ j.first)

/-- Reads a set from intervals and single code points separated by blanks. -/
def ofText (text : String) : CodePoints :=
  ofIntervals ((words text.toList).map Interval.ofWord)

/-- Whether a number belongs to a set. -/
def has (s : CodePoints) (n : Nat) : Bool :=
  (search s.intervals (Interval.place n)).isSome

/-- Whether a character belongs to a set. -/
def contains (s : CodePoints) (c : Char) : Bool :=
  s.has c.toNat

/-- The set without members. -/
def empty : CodePoints :=
  ⟨#[]⟩

/-- The code points from `first` to `last`, both included. -/
def interval (first last : Nat) : CodePoints :=
  ofAscending (if first ≤ last then [⟨first, last⟩] else [])

/-- The set with one member. -/
def single (n : Nat) : CodePoints :=
  interval n n

/-- The members of a list. -/
def ofList (l : List Nat) : CodePoints :=
  ofIntervals (l.map fun n => ⟨n, n⟩)

/-- The only member of a set, if it has one member. -/
def single? (s : CodePoints) : Option Nat :=
  match s.intervals.toList with
  | [i] => if i.first = i.last then some i.first else none
  | _ => none

/-- The code points that belong to one of two sets. -/
def union (s t : CodePoints) : CodePoints :=
  ofAscending (s.intervals.toList.merge t.intervals.toList fun i j => i.first ≤ j.first)

/-- The code points that belong to one of several sets. -/
def unions (sets : List CodePoints) : CodePoints :=
  match sets with
  | [s] => s
  | sets => ofIntervals (sets.flatMap fun s => s.intervals.toList)

/-- The characters that do not belong to a set. -/
def complement (s : CodePoints) : CodePoints :=
  ⟨(Interval.gaps 0 s.intervals.toList).toArray⟩

/-- The code points that belong to both of two sets. -/
def intersection (s t : CodePoints) : CodePoints :=
  ⟨(Interval.common s.intervals.toList t.intervals.toList).toArray⟩

/-- The code points that belong to the first of two sets only. -/
def difference (s t : CodePoints) : CodePoints :=
  s.intersection t.complement

/-- The code points that belong to just one of two sets. -/
def symmetricDifference (s t : CodePoints) : CodePoints :=
  (s.union t).difference (s.intersection t)

end CodePoints

end ShiftReduce.Unicode
