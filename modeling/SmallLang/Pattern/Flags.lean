import SmallLang.Pattern.Build
import SmallLang.Text.Blank

/-!
# Settings inside a pattern

A group such as `(?i-s:…)` switches settings on and off for what it encloses, and `(?i)` does so up
to the end of the enclosing group.
-/

set_option autoImplicit false

namespace SmallLang.Pattern

/-- The settings under which a part of a pattern is read. -/
structure Flags where
  /-- Letters match in either case. -/
  ignoreCase : Bool
  /-- `^` and `$` also match at line ends inside the text. -/
  multiLine : Bool
  /-- The dot matches line ends, too. -/
  dotAll : Bool
  /-- Repetitions are reluctant unless marked, instead of the other way round. -/
  swapGreed : Bool
  /-- A carriage return ends a line, too. -/
  anyLineEnd : Bool
  /-- Blanks and comments in the pattern do not count. -/
  spaced : Bool
  /-- The characters that classes speak of. -/
  alphabet : Alphabet
  deriving DecidableEq, Repr

namespace Flags

/-- The settings at the start of a pattern. -/
def default : Flags :=
  { ignoreCase := false, multiLine := false, dotAll := false, swapGreed := false,
    anyLineEnd := false, spaced := false, alphabet := .full }

/-- The settings with the one of that letter switched. -/
def set (f : Flags) (letter : Char) (on : Bool) : Option Flags :=
  match letter with
  | 'i' => some { f with ignoreCase := on }
  | 'm' => some { f with multiLine := on }
  | 's' => some { f with dotAll := on }
  | 'U' => some { f with swapGreed := on }
  | 'R' => some { f with anyLineEnd := on }
  | 'u' => some { f with alphabet := if on then .full else .ascii }
  | 'x' => some { f with spaced := on }
  | _ => none

/-- Reads the letters of a settings group up to the sign that ends them. No letter may be repeated,
at most one minus sign comes between those switched on and those switched off, and a letter has to
follow it. The answer is the new settings, the ending sign, whether anything was read, and the rest
of the pattern. -/
def read (f : Flags) (seen : List Char) (on : Bool) (dangling : Bool) :
    List Char → Option (Flags × Char × Bool × List Char)
  | [] => none
  | c :: cs =>
      if c = ':' || c = ')' then
        if dangling then none else some (f, c, !seen.isEmpty, cs)
      else if c = '-' then
        if on then f.read seen false true cs else none
      else if seen.contains c then none
      else
        match f.set c on with
        | some f' => f'.read (c :: seen) on false cs
        | none => none

/-- The set with all its case variants, when case does not matter. -/
def fold (f : Flags) (s : CharSet) : CharSet :=
  if f.ignoreCase then
    match f.alphabet with
    | .full => s.anyCase
    | .ascii => s.anyAsciiCase
  else s

/-- The characters outside the set, if all scripts count. The complement of an ASCII set is none,
for it would have to hold bytes that are no characters. -/
def complement? (f : Flags) (s : CharSet) : Option CharSet :=
  match f.alphabet with
  | .full => some s.complement
  | .ascii => none

/-- The characters of a class that may be negated. Case is settled first. -/
def foldClass? (f : Flags) (negated : Bool) (s : CharSet) : Option CharSet :=
  if negated then f.complement? (f.fold s) else some (f.fold s)

/-- What a dot matches. -/
def dot? (f : Flags) : Option CharSet :=
  f.complement? (if f.dotAll then .empty
    else if f.anyLineEnd then .ofRanges [(0xA, 0xA), (0xD, 0xD)] else .single '\n')

/-- The condition that a `^` stands for. -/
def lineStart (f : Flags) : Anchor :=
  if !f.multiLine then .textStart else if f.anyLineEnd then .anyLineStart else .lineStart

/-- The condition that a `$` stands for. -/
def lineEnd (f : Flags) : Anchor :=
  if !f.multiLine then .textEnd else if f.anyLineEnd then .anyLineEnd else .lineEnd

/-- Whether a repetition is greedy, with or without the mark of reluctance. -/
def greed (f : Flags) (marked : Bool) : Bool := f.swapGreed == marked

end Flags

/-- Passes over a comment in a pattern, up to the line end. -/
def dropComment (cs : List Char) : List Char := (cs.dropWhile (· != '\n')).drop 1

/-- Passes over blanks and comments, if they do not count. -/
def skipSpace (f : Flags) (cs : List Char) : List Char :=
  if f.spaced then go cs.length cs else cs
where
  /-- Passes over at most the given number of blanks and comments. -/
  go : Nat → List Char → List Char
    | 0, cs => cs
    | _ + 1, [] => []
    | n + 1, c :: cs =>
        if Text.isBlank c then go n cs
        else if c = '#' then go n (dropComment cs)
        else c :: cs

/-- Takes at most `most` characters of a kind. What does not count is passed over after each. -/
def takeSpaced (f : Flags) (kind : Char → Bool) : Nat → List Char → List Char × List Char
  | most + 1, c :: cs =>
      if kind c then
        let (taken, rest) := takeSpaced f kind most (skipSpace f cs)
        (c :: taken, rest)
      else ([], c :: cs)
  | _, cs => ([], cs)

end SmallLang.Pattern
