import SmallLang.Text.CodeRanges

/-!
# Blank characters

The characters with the property `White_Space`. They separate tokens, and a pattern's `\s` means
them.
-/

set_option autoImplicit false

namespace SmallLang.Text

/-- The code ranges of the blank characters. -/
def blankRanges : List (Nat × Nat) :=
  [(0x9, 0xD), (0x20, 0x20), (0x85, 0x85), (0xA0, 0xA0), (0x1680, 0x1680), (0x2000, 0x200A),
    (0x2028, 0x2029), (0x202F, 0x202F), (0x205F, 0x205F), (0x3000, 0x3000)]

/-- A blank character of any script. -/
def isBlank (c : Char) : Bool := inRanges blankRanges c.toNat

end SmallLang.Text
