import ShiftReduce.Regex.Combination
import ShiftReduce.Unicode.ByteSequence
import Std.Data.TreeMap

/-!
# The size of regular expressions

An expression stands for an automaton that reads the bytes of a text, once forwards and once
backwards, and it is refused if one of the two would take too much memory.  The states of an
automaton are of one size; those from which several ways lead on take more memory for these.
Repetitions are written out, sets of characters are written out as sequences of bytes, and
an alternation of texts is a tree of their bytes.

The states are numbered in the order in which they are made.  While a set is written out, a
table has the states made for it, so that a state which is needed again need not be made
again.  There is one slot in the table for all states with the same hash, of which it has
the last one only; so it depends on the numbers of the states how many there are.

`Regex.tally` makes up the memory for an automaton, and `Regex.fits` says whether both
automata are small enough.
-/

namespace ShiftReduce.Regex

open Unicode (ByteSequence CodePoints Interval)

/-- The direction in which an automaton goes through a text. -/
inductive Direction where
  | forward
  | backward
  deriving DecidableEq

/-! ### Memory -/

/-- The number of the states that have been made, and the memory that they take for the ways
that lead on from them. -/
structure Tally where
  states : Nat := 0
  ways : Nat := 0
  deriving DecidableEq

namespace Tally

/-- So many more states, and more memory for ways that lead on. -/
def add (t : Tally) (states ways : Nat) : Tally :=
  ⟨t.states + states, t.ways + ways⟩

/-- So many more states, from each of which at most one way leads on. -/
def addPlain (t : Tally) (states : Nat) : Tally :=
  t.add states 0

/-- The bytes of memory that the states take. -/
def memory (t : Tally) : Nat :=
  32 * t.states + t.ways

/-- The most memory that an automaton may take. -/
def maxMemory : Nat := 10485760

/-- Whether there is too much memory. -/
def isTooLarge (t : Tally) : Bool :=
  maxMemory < t.memory

/-- What comes of doing the same thing over and over again, until there is too much
memory. -/
def iterate (step : Tally → Tally) : Nat → Tally → Tally
  | 0, t => t
  | n + 1, t => if t.isTooLarge then t else iterate step n (step t)

end Tally

/-- The memory for the ways that lead from a choice to `n` states. -/
def choiceWays (n : Nat) : Nat := 4 * n

/-- The memory for ways that lead on by `n` intervals of bytes, from a state that can have
several of them. -/
def intervalWays (n : Nat) : Nat := 8 * n

/-! ### Tables of states -/

/-- The hash of some numbers, of which each one is mixed in and then spread over all bits by a
multiplication. -/
def hashNumbers (l : List Nat) : Nat :=
  (l.foldl (fun hash n => (hash ^^^ n.toUInt64) * 1099511628211)
    (14695981039346656037 : UInt64)).toNat

/-- A table of states, in which a state is found by the numbers that determine it. -/
structure StateTable where
  slots : Nat
  entries : Std.TreeMap Nat (List Nat × Nat) := {}

/-- The number of the state that some numbers determine, with the table and the tally once
there is one; a new state takes as much memory for its ways as given. -/
def StateTable.find (table : StateTable) (key : List Nat) (ways : Nat) (t : Tally) :
    Nat × StateTable × Tally :=
  let slot := hashNumbers key % table.slots
  let make : Nat × StateTable × Tally :=
    (t.states, { table with entries := table.entries.insert slot (key, t.states) },
      t.add 1 ways)
  match table.entries[slot]? with
  | some (other, state) => if other = key then (state, table, t) else make
  | none => make

/-! ### Sets of characters -/

/-- Goes backwards through a sequence of bytes, of which the first one is read last, to the
state `next`. -/
def tallyBackward (next : Nat) (table : StateTable) (t : Tally) :
    ByteSequence → StateTable × Tally
  | [] => (table, t)
  | i :: rest =>
    let (state, table, t) := table.find [next, i.first, i.last] 0 t
    tallyBackward state table t rest

/-- The state from which sequences of at most `n` intervals of bytes lead to the state
`finish`.  The states that follow are made before it. -/
def tallyForward (finish : Nat) :
    (n : Nat) → List ByteSequence → StateTable → Tally → Nat × StateTable × Tally
  | 0, _, table, t => (finish, table, t)
  | n + 1, sequences, table, t =>
    if sequences.all List.isEmpty then (finish, table, t)
    else
      let groups := sequences.splitBy fun s t => s.head? = t.head?
      let (ways, table, t) := groups.foldl
        (fun (ways, table, t) group =>
          match group with
          | (i :: _) :: _ =>
            let (next, table, t) := tallyForward finish n (group.map List.tail) table t
            (ways ++ [i.first, i.last, next], table, t)
          | _ => (ways, table, t))
        ([], table, t)
      table.find ways (intervalWays groups.length) t

/-- The automaton for a set of characters. -/
def tallySet (direction : Direction) (s : CodePoints) (t : Tally) : Tally :=
  match s.single? with
  | some n => t.addPlain ((Unicode.byteSequences ⟨n, n⟩).flatten.length)
  | none =>
    if s.intervals.all fun i => i.last < 128 then
      t.add 2 (intervalWays s.intervals.size)
    else
      let sequences := s.byteSequences
      match direction with
      | .forward => (tallyForward t.states 4 sequences ⟨10000, {}⟩ (t.addPlain 1)).2.2
      | .backward =>
        let finish := t.states + 1
        (sequences.foldl (fun (table, t) s => tallyBackward finish table t s)
          ((⟨1000, {}⟩ : StateTable), t.add 2 (choiceWays sequences.length))).2

/-! ### Trees of texts -/

/-- The bytes of a text, given by its code points. -/
def bytesOf (text : List Nat) : List Nat :=
  text.flatMap fun n => (Unicode.byteSequences ⟨n, n⟩).flatten.map Interval.first

/-- The words before, between and after the empty ones. -/
def splitAtEnds : List (List Nat) → List (List (List Nat))
  | [] => [[]]
  | [] :: rest => [] :: splitAtEnds rest
  | word :: rest =>
    match splitAtEnds rest with
    | [] => [[word]]
    | first :: others => (word :: first) :: others

/-- The tree for words of at most `n` bytes each, without its end.  Where a word ends, those
that come later are preferred less and have ways of their own; but as long as there are no
longer words, nothing comes of it if a word ends again. -/
def tallyTree : (n : Nat) → (words : List (List Nat)) → Tally → Tally
  | 0, _, t => t
  | n + 1, words, t =>
    if words.all List.isEmpty then t
    else
      let words := match words with
        | [] :: rest => [] :: rest.dropWhile List.isEmpty
        | words => words
      let chunks := splitAtEnds words
      let t := t.add 1 (choiceWays (chunks.length - 1))
      chunks.foldl
        (fun t chunk =>
          let heads := (chunk.filterMap List.head?).eraseDups
          if heads.isEmpty then t
          else
            let ways := if heads.length = 1 then 0 else intervalWays heads.length
            heads.foldl
              (fun t head =>
                tallyTree n ((chunk.filter fun word => word.head? = some head).map List.tail) t)
              (t.add 1 (choiceWays 1 + ways)))
        t

/-- The automaton for an alternation of texts. -/
def tallyTexts (direction : Direction) (texts : List (List Nat)) (t : Tally) : Tally :=
  let words := match direction with
    | .forward => texts.map bytesOf
    | .backward => texts.map fun text => (bytesOf text).reverse
  tallyTree ((words.map List.length).foldl max 0) words (t.addPlain 1)

/-! ### Expressions -/

/-- The automaton for a repetition, where `once` makes up what is repeated and `consumes`
says whether that is known to match characters. -/
def tallyRepetition (once : Tally → Tally) (consumes : Bool) (least : Nat)
    (most : Option Nat) (t : Tally) : Tally :=
  let optional (t : Tally) : Tally := once (t.add 1 (choiceWays 2))
  match least, most with
  | 0, some 1 => (optional t).addPlain 1
  | 0, none => if consumes then optional t else (once t).add 3 (2 * choiceWays 2)
  | n + 1, none => (once (t.iterate once n)).add 1 (choiceWays 2)
  | least, some most =>
    let t := if least = 0 then t.addPlain 1 else t.iterate once least
    if most ≤ least then t else (t.addPlain 1).iterate optional (most - least)

/-- What is made up for an expression is followed by a choice and an end after the second
branch of an alternation; `before` branches come before this one. -/
def afterBranch (before : Nat) (t : Tally) : Tally :=
  if before = 1 then t.addPlain 2 else t

/-- The automaton for an expression, which comes after `before` others as a branch of an
alternation. -/
def tallyBranch (direction : Direction) (before : Nat) : Regex → Tally → Tally
  | empty, t => afterBranch before (t.addPlain 1)
  | set s, t => afterBranch before (tallySet direction s t)
  | assertion _, t => afterBranch before (t.addPlain 1)
  | sequence r s, t =>
    afterBranch before <|
      match direction with
      | .forward => s.tallyBranch direction 0 (r.tallyBranch direction 0 t)
      | .backward => r.tallyBranch direction 0 (s.tallyBranch direction 0 t)
  | either r s, t =>
    if before = 0 then
      let l := (either r s).branches
      match l.mapM text? with
      | some texts => tallyTexts direction texts t
      | none =>
        s.tallyBranch direction 1 (r.tallyBranch direction 0 (t.add 0 (choiceWays l.length)))
    else s.tallyBranch direction (before + 1) (r.tallyBranch direction before t)
  | repetition r least most _, t =>
    afterBranch before
      (tallyRepetition (r.tallyBranch direction 0) r.consumes least most t)
  | group _ r, t =>
    afterBranch before <|
      match direction with
      | .forward => (r.tallyBranch direction 0 (t.addPlain 1)).addPlain 1
      | .backward => r.tallyBranch direction 0 t

/-- The automaton for an expression, with what comes before and after it.  Unless it holds
to where the automaton starts, any bytes may come before it. -/
def tally (r : Regex) (direction : Direction) : Tally :=
  let start (holds : Bool) : Tally :=
    if holds then Tally.addPlain {} 1 else Tally.add {} 3 (choiceWays 2 + intervalWays 1)
  match direction with
  | .forward => (r.tallyBranch direction 0 ((start r.holdsToStart).addPlain 1)).addPlain 2
  | .backward => (r.tallyBranch direction 0 (start r.holdsToEnd)).addPlain 1

/-- Whether the automata for an expression are small enough. -/
def fits (r : Regex) : Bool :=
  ! (r.tally .forward).isTooLarge && ! (r.tally .backward).isTooLarge

end ShiftReduce.Regex
