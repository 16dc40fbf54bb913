import SmallLang.Pattern.Anchor

/-!
# Regular expressions

A pattern describes pieces of a text. Alternatives and repetitions say which pieces are preferred
where several match; `SmallLang.Pattern.Search` follows these preferences. Patterns are built in
their simplest form by the functions of `SmallLang.Pattern.Build`.
-/

set_option autoImplicit false

namespace SmallLang

/-- A regular expression. -/
inductive Pattern where
  /-- The empty piece. -/
  | nothing
  /-- The characters of a text, one after the other. -/
  | text (cs : List Char)
  /-- One character of the set. -/
  | char (s : CharSet)
  /-- The empty piece, where the condition holds. -/
  | anchor (a : Anchor)
  /-- A group with a number. -/
  | group (number : Nat) (p : Pattern)
  | seq (p q : Pattern)
  /-- Either of two patterns, the first one preferred. -/
  | alt (p q : Pattern)
  /-- At least and at most so many rounds, or without a bound: preferably one more, or preferably
  none if not `greedy`. -/
  | repeated (p : Pattern) (least : Nat) (most : Option Nat) (greedy : Bool)
  deriving DecidableEq, Repr

namespace Pattern

/-- Whether the pattern can match the empty piece. -/
def isNullable : Pattern → Bool
  | nothing => true
  | text cs => cs.isEmpty
  | char _ => false
  | anchor _ => true
  | group _ p => p.isNullable
  | seq p q => p.isNullable && q.isNullable
  | alt p q => p.isNullable || q.isNullable
  | repeated p least _ _ => least == 0 || p.isNullable

/-- Whether the pattern asks for no character anywhere. -/
def isWeightless : Pattern → Bool
  | nothing => true
  | text cs => cs.isEmpty
  | char _ => false
  | anchor _ => true
  | group _ p => p.isWeightless
  | seq p q => p.isWeightless && q.isWeightless
  | alt p q => p.isWeightless && q.isWeightless
  | repeated p _ _ _ => p.isWeightless

/-- Whether every match begins at the start of the text. -/
def isAnchored : Pattern → Bool
  | anchor a => a == .textStart
  | group _ p => p.isAnchored
  | seq p q => p.isAnchored || (p.isWeightless && q.isAnchored)
  | alt p q => p.isAnchored && q.isAnchored
  | repeated p least _ _ => least != 0 && p.isAnchored
  | _ => false

/-- Whether every match ends at the end of the text. -/
def isEndAnchored : Pattern → Bool
  | anchor a => a == .textEnd
  | group _ p => p.isEndAnchored
  | seq p q => q.isEndAnchored || (q.isWeightless && p.isEndAnchored)
  | alt p q => p.isEndAnchored && q.isEndAnchored
  | repeated p least _ _ => least != 0 && p.isEndAnchored
  | _ => false

end Pattern

end SmallLang
