/-!
# Sets of characters given by code ranges

Character properties are tables of inclusive ranges of code points, in increasing order and
without overlap. `inRanges` decides membership. Long tables are kept as texts, which `readTable`
reads.
-/

set_option autoImplicit false

namespace SmallLang.Text

/-- Whether a code lies in one of the ranges. The ranges increase, so the search ends at the first
one that starts beyond the code. -/
def inRanges : List (Nat × Nat) → Nat → Bool
  | [], _ => false
  | (first, last) :: rest, n =>
      if n < first then false else if n ≤ last then true else inRanges rest n

/-- The value of a hexadecimal digit, a capital letter from ten on. -/
def hexDigit (c : Char) : Nat :=
  if c ≤ '9' then c.toNat - '0'.toNat else c.toNat - 'A'.toNat + 10

/-- Reads ranges from inside the first one on, whose first code is given if it is complete, together
with the code that is being read. -/
def readRangesFrom (first? : Option Nat) (code : Nat) : List Char → List (Nat × Nat)
  | [] => [(first?.getD code, code)]
  | '-' :: cs => readRangesFrom (some code) 0 cs
  | ' ' :: cs => (first?.getD code, code) :: readRangesFrom none 0 cs
  | c :: cs => readRangesFrom first? (16 * code + hexDigit c) cs

/-- The ranges written in a text such as `41-5A 5F 61-7A`: hexadecimal codes, with a blank between
two ranges. -/
def readRanges (text : String) : List (Nat × Nat) :=
  if text.isEmpty then [] else readRangesFrom none 0 text.toList

/-- The ranges of a table in lines. -/
def readTable (lines : List String) : List (Nat × Nat) := lines.flatMap readRanges

end SmallLang.Text
