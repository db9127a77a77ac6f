import ShiftReduce.Regex.CharSet
import Std.Data.TreeSet

/-!
# Regular expressions

A regular expression describes between which positions of a text it matches (`Regex.Matches`).
Among the ways to do so some are preferred: an alternation prefers its first branch, and a
repetition prefers more rounds to fewer when it is greedy, and fewer to more when it is not.
`Regex.find?` gives the preferred way from the first position from which there is one.

The search goes through the text character by character.  At a position it has stacks of
what is still to be matched from there, in the order of preference.  The stacks that
continue a stack at the same position come in its place, those that are preferred first.
An empty stack is a match, and what is less preferred is given up there; but the stacks
before it go on after the next character if that is the one they need, and a match that
comes of them later is preferred.  While there is no match, one can start at any position,
and is less preferred the later it starts.

Every part of an expression, with its repetitions written out, has a place, which is a
number of its own.  What is on a stack below the part that comes next follows from the place
of that part, so that a stack is known by it.  A stack that has been met before at the same
position has nothing new to offer and is left out.  So a round of a repetition that matches
nothing is not followed by another one.
-/

namespace ShiftReduce

open Unicode (CodePoints)

/-! ### Syntax -/

/-- A condition on the characters around a position. -/
inductive Assertion where
  /-- The text starts here. -/
  | textStart
  /-- The text ends here. -/
  | textEnd
  /-- A line starts here; with `crlf`, a carriage return ends a line as well. -/
  | lineStart (crlf : Bool)
  /-- A line ends here; with `crlf`, a carriage return ends a line as well. -/
  | lineEnd (crlf : Bool)
  /-- A word starts or ends here; the set has the characters of words. -/
  | boundary (word : CodePoints)
  /-- No word starts or ends here. -/
  | notBoundary (word : CodePoints)
  /-- A word starts here. -/
  | wordStart (word : CodePoints)
  /-- A word ends here. -/
  | wordEnd (word : CodePoints)
  /-- No character of a word comes before. -/
  | wordStartHalf (word : CodePoints)
  /-- No character of a word comes after. -/
  | wordEndHalf (word : CodePoints)
  deriving DecidableEq

/-- Whether a condition holds between two characters, of which the first is missing at the
start of the text and the second at its end. -/
def Assertion.holds (before after : Option Char) : Assertion → Bool
  | textStart => before.isNone
  | textEnd => after.isNone
  | lineStart false => before.isNone || before = some '\n'
  | lineStart true =>
    before.isNone || before = some '\n' || before = some '\r' && after ≠ some '\n'
  | lineEnd false => after.isNone || after = some '\n'
  | lineEnd true =>
    after.isNone || after = some '\r' || after = some '\n' && before ≠ some '\r'
  | boundary word => before.any word.contains != after.any word.contains
  | notBoundary word => before.any word.contains == after.any word.contains
  | wordStart word => ! before.any word.contains && after.any word.contains
  | wordEnd word => before.any word.contains && ! after.any word.contains
  | wordStartHalf word => ! before.any word.contains
  | wordEndHalf word => ! after.any word.contains

/-- A regular expression. -/
inductive Regex where
  /-- Matches nothing at all, anywhere. -/
  | empty
  /-- Matches a character of a set. -/
  | set (s : CodePoints)
  /-- Matches nothing, where a condition holds. -/
  | assertion (a : Assertion)
  /-- Matches `r` and then `s`. -/
  | sequence (r s : Regex)
  /-- Matches `r` or else `s`. -/
  | either (r s : Regex)
  /-- Matches `r` at least `least` times and, if there is a bound, at most so many times. -/
  | repetition (r : Regex) (least : Nat) (most : Option Nat) (greedy : Bool)
  /-- Matches `r`, which stands between the parentheses of the group with a number. -/
  | group (number : Nat) (r : Regex)
  deriving DecidableEq

namespace Regex

/-- The least number of characters that a match can have.  There is none if a part matches a
character of a set without members. -/
def minLength? : Regex → Option Nat
  | empty => some 0
  | set s => if s.intervals.isEmpty then none else some 1
  | assertion _ => some 0
  | sequence r s => do return (← r.minLength?) + (← s.minLength?)
  | either r s => do return min (← r.minLength?) (← s.minLength?)
  | repetition r least _ _ => r.minLength?.map (least * ·)
  | group _ r => r.minLength?

/-- Whether it is known that each match has characters. -/
def consumes (r : Regex) : Bool :=
  r.minLength?.any (0 < ·)

/-- Whether no match can have characters. -/
def matchesNoCharacters : Regex → Bool
  | empty => true
  | set _ => false
  | assertion _ => true
  | sequence r s => r.matchesNoCharacters && s.matchesNoCharacters
  | either r s => r.matchesNoCharacters && s.matchesNoCharacters
  | repetition r _ _ _ => r.matchesNoCharacters
  | group _ r => r.matchesNoCharacters

/-- Whether every match starts at the start of the text. -/
def holdsToStart : Regex → Bool
  | empty => false
  | set _ => false
  | assertion a => a = .textStart
  | sequence r s => r.holdsToStart || r.matchesNoCharacters && s.holdsToStart
  | either r s => r.holdsToStart && s.holdsToStart
  | repetition r least _ _ => 0 < least && r.holdsToStart
  | group _ r => r.holdsToStart

/-- Whether every match ends at the end of the text. -/
def holdsToEnd : Regex → Bool
  | empty => false
  | set _ => false
  | assertion a => a = .textEnd
  | sequence r s => s.holdsToEnd || s.matchesNoCharacters && r.holdsToEnd
  | either r s => r.holdsToEnd && s.holdsToEnd
  | repetition r least _ _ => 0 < least && r.holdsToEnd
  | group _ r => r.holdsToEnd

/-! ### What expressions describe -/

/-- The character in front of a position. -/
def charBefore (text : List Char) : Nat → Option Char
  | 0 => none
  | i + 1 => text[i]?

/-- A number of rounds leads from one position to another. -/
inductive Iterates (once : Nat → Nat → Prop) : Nat → Nat → Nat → Prop where
  | none (i : Nat) : Iterates once 0 i i
  | more {n i j k : Nat} (first : once i j) (later : Iterates once n j k) :
      Iterates once (n + 1) i k

/-- An expression matches what is between two positions of a text. -/
def Matches (text : List Char) : Regex → Nat → Nat → Prop
  | empty, i, j => i = j
  | set s, i, j => (∃ c, text[i]? = some c ∧ s.contains c = true) ∧ j = i + 1
  | assertion a, i, j => a.holds (charBefore text i) text[i]? = true ∧ i = j
  | sequence r s, i, j => ∃ k, r.Matches text i k ∧ s.Matches text k j
  | either r s, i, j => r.Matches text i j ∨ s.Matches text i j
  | repetition r least most _, i, j =>
    ∃ n, least ≤ n ∧ (∀ m ∈ most, n ≤ m) ∧ Iterates (r.Matches text) n i j
  | group _ r, i, j => r.Matches text i j

/-! ### Places -/

/-- The number of places in a regular expression in which all repetitions have been written
out as often as their bounds say. -/
def width : Regex → Nat
  | empty => 1
  | set _ => 1
  | assertion _ => 1
  | sequence r s => 1 + r.width + s.width
  | either r s => 1 + r.width + s.width
  | repetition r least most _ =>
    match most with
    | some m => m * (1 + r.width) + 1
    | none => (least - 1) * (1 + r.width) + 2 + r.width
  | group _ r => 1 + r.width

/-- What is to be matched next, with its place. -/
inductive Frame where
  /-- A regular expression, whose parts are at the places after its own. -/
  | regex (place : Nat) (r : Regex)
  /-- Any number of further rounds of a repetition. -/
  | rounds (place : Nat) (r : Regex) (greedy : Bool)

/-- The place of a frame. -/
def Frame.place : Frame → Nat
  | regex place _ => place
  | rounds place _ _ => place

/-! ### Stacks -/

/-- The two ways to go on at a choice between one more round and none, in the order of
preference. -/
def choose {α : Type} (greedy : Bool) (more fewer : α) : List α :=
  if greedy then [more, fewer] else [fewer, more]

/-- The stacks that match a repetition before the frames `rest`, in the order of
preference. -/
def unroll (place : Nat) (r : Regex) (least : Nat) (most : Option Nat) (greedy : Bool)
    (rest : List Frame) : List (List Frame) :=
  let once (least : Nat) (most : Option Nat) : List Frame :=
    .regex (place + 1) r ::
      .regex (place + 1 + r.width) (repetition r least most greedy) :: rest
  let rounds : List Frame := .rounds (place + 1) r greedy :: rest
  match least, most with
  | 0, some 0 => [rest]
  | 0, some (m + 1) => choose greedy (once 0 (some m)) rest
  | 0, none =>
    if r.consumes then [rounds] else choose greedy (.regex (place + 2) r :: rounds) rest
  | 1, none => [.regex (place + 2) r :: rounds]
  | n + 1, most => [once n (most.map (· - 1))]

/-- The set of which a frame needs a character, if that is all it needs. -/
def Frame.set? : Frame → Option CodePoints
  | regex _ (set s) => some s
  | _ => none

/-- The stacks that continue one that has a frame on top of `rest`, between two characters,
in the order of preference.  A frame that needs a character is not continued. -/
def Frame.expand (before after : Option Char) (rest : List Frame) : Frame → List (List Frame)
  | regex _ empty => [rest]
  | regex _ (set _) => []
  | regex _ (assertion a) => if a.holds before after then [rest] else []
  | regex place (sequence r s) => [regex (place + 1) r :: regex (place + 1 + r.width) s :: rest]
  | regex place (either r s) =>
    [regex (place + 1) r :: rest, regex (place + 1 + r.width) s :: rest]
  | regex place (repetition r least most greedy) => unroll place r least most greedy rest
  | regex place (group _ r) => [regex (place + 1) r :: rest]
  | rounds place r greedy =>
    choose greedy (regex (place + 1) r :: rounds place r greedy :: rest) rest

/-- A stack with the position at which its match starts. -/
structure Thread where
  start : Nat
  stack : List Frame

/-- What has come of the threads at a position: those that go on after the next character,
in the order of preference, and, if there is a match, where it starts.  It is less preferred
than what comes of the threads. -/
structure Advance where
  threads : List Thread
  ended : Option Nat

/-- Goes on with the threads that wait at a position between two characters, where `met` has
the places of the stacks met before and `found` has, the last one first, the threads that go
on after the next character.  So many steps are made at most as the first number says. -/
def advance (before after : Option Char) :
    (steps : Nat) → (waiting : List Thread) → (met : Std.TreeSet Nat) →
      (found : List Thread) → Advance
  | 0, _, _, found => ⟨found.reverse, none⟩
  | _ + 1, [], _, found => ⟨found.reverse, none⟩
  | _ + 1, ⟨start, []⟩ :: _, _, found => ⟨found.reverse, some start⟩
  | n + 1, ⟨start, frame :: rest⟩ :: waiting, met, found =>
    if met.contains frame.place then advance before after n waiting met found
    else
      let met := met.insert frame.place
      match frame.set? with
      | some s =>
        advance before after n waiting met
          (if after.any s.contains then ⟨start, rest⟩ :: found else found)
      | none =>
        let more := (frame.expand before after rest).map (Thread.mk start)
        advance before after n (more ++ waiting) met found

/-- The best match after the threads have gone on from a position, where `best` has been the best
one before. -/
def Advance.best (next : Advance) (position : Nat) (best : Option (Nat × Nat)) :
    Option (Nat × Nat) :=
  match next.ended with
  | some start => some (start, position)
  | none => best

/-- The threads at a position, with one that starts there if there is no match yet and a match can
start `everywhere`. -/
def withStart (r : Regex) (everywhere : Bool) (position : Nat) (best : Option (Nat × Nat))
    (threads : List Thread) : List Thread :=
  if everywhere && best.isNone then threads ++ [⟨position, [.regex 1 r]⟩] else threads

/-- The start and the end of the preferred match, if there is one, where `threads` wait at a
position with the character `before` in front of it, and `best` is a match that is less
preferred than what comes of them.  With `everywhere`, a match can start at this position
and at all later ones, where it is less preferred than one that started before.

The places of frames are at most `width`; a stack for each of them is continued at most
once, by at most two others. -/
def searchFrom (r : Regex) (width : Nat) (everywhere : Bool) (position : Nat)
    (before : Option Char) (best : Option (Nat × Nat)) (threads : List Thread)
    (rest : List Char) : Option (Nat × Nat) :=
  let threads := r.withStart everywhere position best threads
  let steps := threads.length + 2 * width + 1
  let next := advance before rest.head? steps threads {} []
  let best := next.best position best
  match rest with
  | [] => best
  | c :: rest =>
    if next.threads.isEmpty && (best.isSome || ! everywhere) then best
    else searchFrom r width everywhere (position + 1) (some c) best next.threads rest

/-- The start and the end of the preferred match from the first position from which there is
one. -/
def find? (r : Regex) (text : List Char) : Option (Nat × Nat) :=
  if r.holdsToStart then searchFrom r r.width false 0 none none [⟨0, [.regex 1 r]⟩] text
  else searchFrom r r.width true 0 none none [] text

end Regex

end ShiftReduce
