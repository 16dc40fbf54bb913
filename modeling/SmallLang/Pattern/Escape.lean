import SmallLang.Pattern.Flags
import SmallLang.Pattern.Property

/-!
# Escapes in patterns

A backslash and what follows it stand for a character, for a class of characters or for a condition
on a place. References to groups and look-around are not part of the language of patterns.
-/

set_option autoImplicit false

namespace SmallLang.Pattern

/-- What an escape stands for. -/
inductive Escape where
  | literal (c : Char)
  | charSet (s : CharSet)
  | anchor (a : Anchor)

/-- The value of a hexadecimal digit. -/
def hexValue? (c : Char) : Option Nat :=
  if '0' ≤ c && c ≤ '9' then some (c.toNat - '0'.toNat)
  else if 'a' ≤ c && c ≤ 'f' then some (c.toNat - 'a'.toNat + 10)
  else if 'A' ≤ c && c ≤ 'F' then some (c.toNat - 'A'.toNat + 10)
  else none

/-- The character whose code is written by hexadecimal digits, at least one. -/
def hexChar? (cs : List Char) : Option Char := do
  if cs.isEmpty then none
  let digits ← cs.mapM hexValue?
  let code := digits.foldl (fun n d => 16 * n + d) 0
  if code.isValidChar then some (Char.ofNat code) else none

/-- Reads a character's code: as many digits as given, or any number of them between braces. Without
the characters of all scripts two digits are a byte, which is a character only if it is ASCII. -/
def readHex? (f : Flags) (digits : Nat) (cs : List Char) : Option (Char × List Char) :=
  match skipSpace f cs with
  | '\x7b' :: cs =>
      match takeSpaced f (· != '\x7d') cs.length (skipSpace f cs) with
      | (code, '\x7d' :: rest) => (hexChar? code).map (·, skipSpace f rest)
      | _ => none
  | cs =>
      let (code, rest) := takeSpaced f (fun c => (hexValue? c).isSome) digits cs
      if code.length < digits then none
      else
        match hexChar? code with
        | some c =>
            if digits = 2 ∧ f.alphabet = .ascii ∧ 0x80 ≤ c.toNat then none else some (c, rest)
        | none => none

/-- The special word boundaries by name. -/
def wordEdge? (name : String) : Option WordEdge :=
  match name with
  | "start" => some .start
  | "end" => some .finish
  | "start-half" => some .startHalf
  | "end-half" => some .finishHalf
  | _ => none

/-- Reads the name of a special word boundary between braces. Where no name begins, the brace
belongs to a repetition. -/
def readBoundary? (f : Flags) (cs : List Char) : Option (WordEdge × List Char) :=
  match cs with
  | '\x7b' :: inner =>
      let isNameChar (c : Char) := c.isAlpha || c = '-'
      match takeSpaced f isNameChar inner.length (skipSpace f inner) with
      | ([], _ :: _) => some (.boundary, cs)
      | (name, '\x7d' :: rest) => (wordEdge? (String.ofList name)).map (·, rest)
      | _ => none
  | _ => some (.boundary, cs)

/-- Cuts a text at the first place where another one stands. -/
def cutAt? (sign : List Char) : List Char → Option (List Char × List Char)
  | [] => none
  | c :: cs =>
      if sign.isPrefixOf (c :: cs) then some ([], (c :: cs).drop sign.length)
      else (cutAt? sign cs).map fun (before, after) => (c :: before, after)

/-- The characters with a property, named alone or with a value after a colon, an equals sign or a
sign of inequality, which all mean the same. -/
def property? (name : List Char) : Option CharSet :=
  match (cutAt? ['!', '='] name).or ((cutAt? [':'] name).or (cutAt? ['='] name)) with
  | some (name, value) => CharSet.propertyWithValue? (String.ofList name) (String.ofList value)
  | none => CharSet.property? (String.ofList name)

/-- Reads the name of a property, one letter or a name between braces. -/
def readProperty? (f : Flags) (negated : Bool) (cs : List Char) : Option (CharSet × List Char) := do
  let (name, rest) ← match skipSpace f cs with
    | '\x7b' :: inner =>
        match takeSpaced f (· != '\x7d') inner.length (skipSpace f inner) with
        | (name, '\x7d' :: rest) => some (name, rest)
        | _ => none
    | c :: rest => some ([c], rest)
    | [] => none
  let s ← property? name
  match f.alphabet with
  | .full => (f.foldClass? negated s).map (·, rest)
  | .ascii => none

/-- Reads what follows a backslash. -/
def readEscape? (f : Flags) : List Char → Option (Escape × List Char)
  | [] => none
  | c :: cs =>
      let literal (r : Char × List Char) := (Escape.literal r.1, r.2)
      let charSet (r : CharSet × List Char) := (Escape.charSet r.1, r.2)
      let edge (r : WordEdge × List Char) := (Escape.anchor (.word r.1 f.alphabet), r.2)
      match c with
      | 'd' => some (.charSet f.alphabet.digits, cs)
      | 's' => some (.charSet f.alphabet.blanks, cs)
      | 'w' => some (.charSet f.alphabet.words, cs)
      | 'D' => (f.complement? f.alphabet.digits).map (.charSet ·, cs)
      | 'S' => (f.complement? f.alphabet.blanks).map (.charSet ·, cs)
      | 'W' => (f.complement? f.alphabet.words).map (.charSet ·, cs)
      | 'p' => (readProperty? f false cs).map charSet
      | 'P' => (readProperty? f true cs).map charSet
      | 'x' => (readHex? f 2 cs).map literal
      | 'u' => (readHex? f 4 cs).map literal
      | 'U' => (readHex? f 8 cs).map literal
      | 'a' => some (.literal '\x07', cs)
      | 'f' => some (.literal '\x0c', cs)
      | 't' => some (.literal '\t', cs)
      | 'n' => some (.literal '\n', cs)
      | 'r' => some (.literal '\r', cs)
      | 'v' => some (.literal '\x0b', cs)
      | 'A' => some (.anchor .textStart, cs)
      | 'z' => some (.anchor .textEnd, cs)
      | 'b' => (readBoundary? f cs).map edge
      | 'B' => some (edge (.noBoundary, cs))
      | '<' => some (edge (.start, cs))
      | '>' => some (edge (.finish, cs))
      | c => if c.toNat < 0x80 && !c.isAlphanum then some (.literal c, cs) else none

end SmallLang.Pattern
