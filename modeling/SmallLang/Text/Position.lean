/-!
# Positions in a text

A position counts what stands before it: bytes, line ends, and the characters since the last line
end. Lines and columns start from one.
-/

set_option autoImplicit false

namespace SmallLang

/-- A place in a text: the byte offset, the line and the column, the last two counted from one. -/
structure Position where
  offset : Nat
  line : Nat
  column : Nat
  deriving DecidableEq, Repr, Inhabited

namespace Position

/-- The place before the first character. -/
def start : Position := ⟨0, 1, 1⟩

/-- The mark of a token that does not come from a text. -/
def outside : Position := ⟨0, 0, 0⟩

/-- The place after one more character. -/
def next (p : Position) (c : Char) : Position :=
  if c = '\n' then ⟨p.offset + c.utf8Size, p.line + 1, 1⟩
  else ⟨p.offset + c.utf8Size, p.line, p.column + 1⟩

/-- The place after some more text. -/
def advance (p : Position) (cs : List Char) : Position := cs.foldl next p

/-- Line and column, as messages show them. -/
def render (p : Position) : String := toString p.line ++ ":" ++ toString p.column

end Position

end SmallLang
