import ShiftReduce.Unicode.CodePoints

/-!
# Byte sequences

In UTF-8 a character is written as a lead byte and up to three further bytes, each of which
has six bits of its number.  The characters of an interval are those written with a byte of
a first interval, a byte of a second one and so on, for a list of such sequences of
intervals, which `byteSequences` finds.
-/

namespace ShiftReduce.Unicode

/-- A sequence of intervals of bytes. -/
abbrev ByteSequence : Type := List Interval

/-- The sequences for the numbers from `lo` to `hi`, where the byte `base + n` stands for `n`
times `unit`, and `further` finds the sequences for what is left, which is below `unit`. -/
def withLeadByte (base unit : Nat) (further : Nat → Nat → List ByteSequence) (lo hi : Nat) :
    List ByteSequence :=
  let start (first last : Nat) (l : List ByteSequence) : List ByteSequence :=
    l.map (⟨base + first, base + last⟩ :: ·)
  let greatest := unit - 1
  let first := lo / unit
  let last := hi / unit
  if first = last then start first last (further (lo % unit) (hi % unit))
  else
    let (firstFull, head) :=
      if lo % unit = 0 then (first, [])
      else (first + 1, start first first (further (lo % unit) greatest))
    let (endFull, tail) :=
      if hi % unit = greatest then (last + 1, [])
      else (last, start last last (further 0 (hi % unit)))
    let full :=
      if firstFull < endFull then start firstFull (endFull - 1) (further 0 greatest) else []
    head ++ full ++ tail

/-- The sequences of `n` bytes after a lead byte, for the numbers from `lo` to `hi`. -/
def furtherBytes : (n lo hi : Nat) → List ByteSequence
  | 0, _, _ => [[]]
  | n + 1, lo, hi => withLeadByte 0x80 (Nat.pow 64 n) (furtherBytes n) lo hi

/-- The sequences for the characters of an interval, in ascending order. -/
def byteSequences (i : Interval) : List ByteSequence :=
  let part (first last base n : Nat) : List ByteSequence :=
    let lo := max i.first first
    let hi := min i.last last
    if lo ≤ hi then withLeadByte base (Nat.pow 64 n) (furtherBytes n) lo hi else []
  part 0 0x7F 0 0 ++ part 0x80 0x7FF 0xC0 1 ++ part 0x800 0xD7FF 0xE0 2 ++
    part 0xE000 0xFFFF 0xE0 2 ++ part 0x10000 0x10FFFF 0xF0 3

/-- The sequences for the characters of a set, in ascending order. -/
def CodePoints.byteSequences (s : CodePoints) : List ByteSequence :=
  s.intervals.toList.flatMap Unicode.byteSequences

end ShiftReduce.Unicode
