import SmallLang.Pattern.CharSet

/-!
# Conditions on a place in a text

An anchor matches the empty piece where its condition holds: at the ends of the text or of a line,
or at the ends of a word.
-/

set_option autoImplicit false

namespace SmallLang

/-- A place in a text: the character before it and the text after it. -/
structure Place where
  before : Option Char
  rest : List Char

/-- The character after the place. -/
def Place.after (c : Place) : Option Char := c.rest.head?

/-- Which characters classes speak of. -/
inductive Alphabet where
  /-- The characters of all scripts. -/
  | full
  | ascii
  deriving DecidableEq, Repr

namespace Alphabet

/-- The characters of words. -/
def words : Alphabet → CharSet
  | full => .word
  | ascii => ⟨[(0x30, 0x39), (0x41, 0x5A), (0x5F, 0x5F), (0x61, 0x7A)]⟩

/-- The decimal digits. -/
def digits : Alphabet → CharSet
  | full => .digit
  | ascii => ⟨[(0x30, 0x39)]⟩

/-- The blank characters. -/
def blanks : Alphabet → CharSet
  | full => .blank
  | ascii => ⟨[(0x9, 0xD), (0x20, 0x20)]⟩

end Alphabet

/-- What an anchor asks of the characters before and after a place, as far as words go. -/
inductive WordEdge where
  /-- Between a word character and something else. -/
  | boundary
  | noBoundary
  /-- Before a word, with no word character before the place. -/
  | start
  | finish
  /-- With no word character before the place. -/
  | startHalf
  | finishHalf
  deriving DecidableEq, Repr

/-- A condition on a place in a text. -/
inductive Anchor where
  | textStart
  | textEnd
  /-- At the start of a line. Lines end with a line feed. -/
  | lineStart
  | lineEnd
  /-- At the start of a line. Lines end with a carriage return, a line feed or both. -/
  | anyLineStart
  | anyLineEnd
  | word (edge : WordEdge) (alphabet : Alphabet)
  deriving DecidableEq, Repr

/-- Whether words begin or end as the edge asks, if there is a word character before the place and
after it. -/
def WordEdge.holds (before after : Bool) : WordEdge → Bool
  | boundary => before != after
  | noBoundary => before == after
  | start => !before && after
  | finish => before && !after
  | startHalf => !before
  | finishHalf => !after

/-- Whether the place satisfies the condition. -/
def Anchor.holds (c : Place) : Anchor → Bool
  | textStart => c.before.isNone
  | textEnd => c.after.isNone
  | lineStart => c.before.isNone || c.before == some '\n'
  | lineEnd => c.after.isNone || c.after == some '\n'
  | anyLineStart =>
      c.before.isNone || c.before == some '\n' ||
        (c.before == some '\r' && c.after != some '\n')
  | anyLineEnd =>
      c.after.isNone || c.after == some '\r' || (c.after == some '\n' && c.before != some '\r')
  | word edge alphabet =>
      edge.holds (c.before.any alphabet.words.mem) (c.after.any alphabet.words.mem)

end SmallLang
