/-! # Code points as bytes

In UTF-8 a character takes one to four bytes. A range of code points is split into sequences of byte
ranges, such that a character is in the range when its bytes lie in the ranges of one sequence, each
byte in the range of its place.
-/

namespace RecordQuery.Text

/-- A range of bytes. -/
abbrev ByteRange := Nat × Nat

/-- How many code points a number of following bytes tell apart. -/
def span64 : Nat → Nat
  | 0 => 1
  | k + 1 => 64 * span64 k

/-- The sequences for the numbers from `first` to `last`, written as a leading byte above `mark` and
a number of following bytes. -/
def sequencesFrom (mark : Nat) : (following : Nat) → (first last : Nat) → List (List ByteRange)
  | 0, first, last => [[(mark + first, mark + last)]]
  | k + 1, first, last =>
      let unit := span64 (k + 1)
      let under (low high first last : Nat) : List (List ByteRange) :=
        (sequencesFrom 0x80 k first last).map ((mark + low, mark + high) :: ·)
      let low := first / unit
      let high := last / unit
      if low = high then under low low (first % unit) (last % unit)
      else
        let fullFrom := if first % unit = 0 then low else low + 1
        let fullTo := if last % unit = unit - 1 then high + 1 else high
        (if first % unit = 0 then [] else under low low (first % unit) (unit - 1)) ++
          (if fullFrom < fullTo then under fullFrom (fullTo - 1) 0 (unit - 1) else []) ++
          (if last % unit = unit - 1 then [] else under high high 0 (last % unit))

/-- The code points that take the same number of bytes: their range, what the leading byte is above,
and the number of following bytes. There are no characters for surrogates. -/
def encodings : List (Nat × Nat × Nat × Nat) :=
  [(0, 0x7F, 0, 0), (0x80, 0x7FF, 0xC0, 1), (0x800, 0xD7FF, 0xE0, 2), (0xE000, 0xFFFF, 0xE0, 2),
   (0x10000, 0x10FFFF, 0xF0, 3)]

/-- The sequences of byte ranges for a range of code points, in ascending order. -/
def byteSequences (range : Nat × Nat) : List (List ByteRange) :=
  encodings.flatMap fun (first, last, mark, following) =>
    let first := max first range.1
    let last := min last range.2
    if first ≤ last then sequencesFrom mark following first last else []

def bytesOf (c : Char) : List Nat :=
  (byteSequences (c.toNat, c.toNat)).flatten.map (·.1)

end RecordQuery.Text
