/-!
# Integers as text

A decimal integer is an optional sign and at least one ASCII digit; only numbers of 64 bits with
sign are read.
-/

set_option autoImplicit false

namespace SmallLang.Text

/-- The value of one ASCII digit. -/
def digitValue (c : Char) : Nat := c.toNat - '0'.toNat

/-- The number written by a row of digits, most significant first. -/
def digitsValue (cs : List Char) : Nat := cs.foldl (fun n c => 10 * n + digitValue c) 0

/-- A row of ASCII digits, at least one, read as a number. -/
def readNatural? (cs : List Char) : Option Nat :=
  if cs ≠ [] && cs.all Char.isDigit then some (digitsValue cs) else none

/-- A number that fits 64 bits with sign. -/
def fits64 (n : Int) : Bool := Int64.minValue.toInt ≤ n && n ≤ Int64.maxValue.toInt

/-- A decimal integer with optional sign that fits 64 bits. -/
def readInteger? (cs : List Char) : Option Int :=
  let number := match cs with
    | '-' :: digits => (readNatural? digits).map fun n => -(n : Int)
    | '+' :: digits => (readNatural? digits).map fun n => (n : Int)
    | digits => (readNatural? digits).map fun n => (n : Int)
  number.filter fits64

end SmallLang.Text
