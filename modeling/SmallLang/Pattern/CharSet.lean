import SmallLang.Text.Blank
import SmallLang.Text.CaseFold
import SmallLang.Text.Digit
import SmallLang.Text.Word

/-!
# Sets of characters

The sets that patterns speak of, as ranges of codes. The ranges of a set increase and leave a gap
between any two, so that two sets with the same characters are equal.
-/

set_option autoImplicit false

namespace SmallLang

/-- A set of characters, given by ranges of codes, both ends included. -/
structure CharSet where
  ranges : List (Nat × Nat)
  deriving DecidableEq, Repr

namespace CharSet

/-- Adds a range to increasing ranges, and joins it with those that it meets or touches. -/
def insertRange : Nat × Nat → List (Nat × Nat) → List (Nat × Nat)
  | r, [] => [r]
  | (a, b), (c, d) :: rest =>
      if b + 1 < c then (a, b) :: (c, d) :: rest
      else if d + 1 < a then (c, d) :: insertRange (a, b) rest
      else insertRange (min a c, max b d) rest

/-- The set of the characters in some ranges, whatever their order. -/
def ofRanges (rs : List (Nat × Nat)) : CharSet := ⟨rs.foldr insertRange []⟩

/-- The set without characters. -/
def empty : CharSet := ⟨[]⟩

/-- One character. -/
def single (c : Char) : CharSet := ⟨[(c.toNat, c.toNat)]⟩

/-- The largest code of a character. -/
def maxCode : Nat := 0x10FFFF

/-- The code after that of a character. No character has a code between U+D7FF and U+E000. -/
def codeAfter (n : Nat) : Nat := if n = 0xD7FF then 0xE000 else n + 1

/-- The code before that of a character. -/
def codeBefore (n : Nat) : Nat := if n = 0xE000 then 0xD7FF else n - 1

/-- All characters. -/
def all : CharSet := ⟨[(0, maxCode)]⟩

/-- The decimal digits of all scripts. -/
def digit : CharSet := ⟨Text.digitRanges⟩

/-- The blank characters. -/
def blank : CharSet := ⟨Text.blankRanges⟩

/-- The characters of words in all scripts. -/
def word : CharSet := ⟨Text.wordRanges⟩

/-- Whether the character of that code is in the set. -/
def memCode (s : CharSet) (n : Nat) : Bool := Text.inRanges s.ranges n

/-- Whether the character is in the set. -/
def mem (s : CharSet) (c : Char) : Bool := s.memCode c.toNat

/-- The character, if there is exactly one. -/
def only? (s : CharSet) : Option Char :=
  match s.ranges with
  | [(a, b)] => if a = b then some (Char.ofNat a) else none
  | _ => none

/-- Whether all characters are ASCII ones. -/
def isAscii (s : CharSet) : Bool := s.ranges.all fun r => r.2 < 0x80

/-- The characters of either set. -/
def union (s t : CharSet) : CharSet := ⟨s.ranges.foldr insertRange t.ranges⟩

/-- The ranges of the characters from `first` on that no range holds. -/
def gaps (first : Nat) : List (Nat × Nat) → List (Nat × Nat)
  | [] => if first ≤ maxCode then [(first, maxCode)] else []
  | (a, b) :: rest =>
      if first < a then (first, codeBefore a) :: gaps (codeAfter b) rest
      else gaps (codeAfter b) rest

/-- What two rows of ranges have in common. -/
def overlaps : List (Nat × Nat) → List (Nat × Nat) → List (Nat × Nat)
  | [], _ => []
  | _, [] => []
  | (a, b) :: s, (c, d) :: t =>
      let rest := if b < d then overlaps s ((c, d) :: t) else overlaps ((a, b) :: s) t
      if max a c ≤ min b d then (max a c, min b d) :: rest else rest
  termination_by s t => s.length + t.length

/-- The ranges between a range that ends at `last` and those after it. Each is given by the code
after one range and the code before the next. Where no character lies between the two ranges, since
the one ends at U+D7FF and the other begins at U+E000, these are the wrong way round; the ends change
places, and both characters belong to the range. -/
def between (last : Nat) : List (Nat × Nat) → List (Nat × Nat)
  | [] => if last < maxCode then [(codeAfter last, maxCode)] else []
  | (a, b) :: rest =>
      let first := codeAfter last
      let final := codeBefore a
      (min first final, max first final) :: between b rest

/-- The characters outside the set: those before its first range, between its ranges and after the
last one. -/
def complement (s : CharSet) : CharSet :=
  match s.ranges with
  | [] => all
  | (a, b) :: rest => ofRanges ((if a = 0 then [] else [(0, codeBefore a)]) ++ between b rest)

/-- The characters of both sets. -/
def intersection (s t : CharSet) : CharSet := ⟨overlaps s.ranges t.ranges⟩

/-- The characters of the first set that are not in the second one. -/
def difference (s t : CharSet) : CharSet := ⟨overlaps s.ranges (gaps 0 t.ranges)⟩

/-- The characters of exactly one of the sets. -/
def symmetricDifference (s t : CharSet) : CharSet := (s.difference t).union (t.difference s)

/-- All characters that are equal, up to case, to one of the set. -/
def anyCase (s : CharSet) : CharSet :=
  let variants := (Text.casedCodes.filter s.memCode).flatMap Text.caseVariants
  (ofRanges (variants.map fun n => (n, n))).union s

/-- All characters that are equal, up to the case of ASCII letters, to one of the set. -/
def anyAsciiCase (s : CharSet) : CharSet :=
  let upper := (s.intersection ⟨[(0x41, 0x5A)]⟩).ranges.map fun r => (r.1 + 0x20, r.2 + 0x20)
  let lower := (s.intersection ⟨[(0x61, 0x7A)]⟩).ranges.map fun r => (r.1 - 0x20, r.2 - 0x20)
  (ofRanges (upper ++ lower)).union s

end CharSet

/-- How two sets combine. -/
inductive SetOp where
  | intersection
  | difference
  | symmetricDifference
  deriving DecidableEq, Repr

/-- The combination of two sets. -/
def SetOp.apply : SetOp → CharSet → CharSet → CharSet
  | intersection => CharSet.intersection
  | difference => CharSet.difference
  | symmetricDifference => CharSet.symmetricDifference

end SmallLang
