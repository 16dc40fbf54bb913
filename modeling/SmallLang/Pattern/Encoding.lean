import SmallLang.Pattern.CharSet

/-!
# Sets of characters as sets of byte sequences

A text is stored as bytes, one to four for a character. The codes of a range need not be a range of
byte sequences; `byteRows` cuts them into pieces that are: a row of byte ranges, one for each byte,
such that every choice of bytes is a character of the range. A cut is made only where it has to be,
so a set has as few rows as possible.
-/

set_option autoImplicit false

namespace SmallLang.CharSet

/-- The bytes that may stand in one place. -/
abbrev ByteRange := Nat × Nat

/-- The rows for the numbers from `low` to `high`, written by a byte with the mark `mark` and `more`
bytes after it. Every later byte holds six bits and is marked `0x80`. -/
def markedRows (mark : Nat) : Nat → Nat → Nat → List (List ByteRange)
  | 0, low, high => [[(mark + low, mark + high)]]
  | more + 1, low, high =>
      let unit := 1 <<< (6 * (more + 1))
      let first := low / unit
      let last := high / unit
      let under (head : ByteRange) (a b : Nat) := (markedRows 0x80 more a b).map (head :: ·)
      if first = last then under (mark + first, mark + first) (low % unit) (high % unit)
      else
        -- The first and the last byte stand for themselves, if not all numbers with it are there.
        let startsFull := low % unit = 0
        let endsFull := high % unit = unit - 1
        let below := if startsFull then [] else
          under (mark + first, mark + first) (low % unit) (unit - 1)
        let above := if endsFull then [] else under (mark + last, mark + last) 0 (high % unit)
        let from' := if startsFull then first else first + 1
        let upTo := if endsFull then last + 1 else last
        let middle := if upTo ≤ from' then [] else
          under (mark + from', mark + (upTo - 1)) 0 (unit - 1)
        below ++ middle ++ above

/-- The codes that are written in the same way: the first and the last code, the mark of the first
byte and the number of bytes after it. No character has a code between the two pieces of three
bytes. -/
def encodings : List (ByteRange × Nat × Nat) :=
  [((0x0, 0x7F), 0x0, 0), ((0x80, 0x7FF), 0xC0, 1), ((0x800, 0xD7FF), 0xE0, 2),
    ((0xE000, 0xFFFF), 0xE0, 2), ((0x10000, 0x10FFFF), 0xF0, 3)]

/-- The rows for the codes of a range. -/
def rowsOfRange (r : Nat × Nat) : List (List ByteRange) :=
  encodings.flatMap fun ((first, last), mark, more) =>
    let low := max r.1 first
    let high := min r.2 last
    if low ≤ high then markedRows mark more low high else []

/-- The rows of a set, in increasing order. -/
def byteRows (s : CharSet) : List (List ByteRange) := s.ranges.flatMap rowsOfRange

end SmallLang.CharSet
