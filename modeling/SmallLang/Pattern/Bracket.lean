import SmallLang.Pattern.Escape

/-!
# Classes of characters in brackets

Between brackets stand characters, ranges, escapes, named ASCII classes and further brackets, and
two such rows may be combined by `&&`, `--` and `~~`, from left to right. A leading `^` takes the
characters outside the class; a leading `-` or `]` stands for itself. With a class it is noted how
deep its parts are nested, since patterns may not be nested too deeply.
-/

set_option autoImplicit false

namespace SmallLang.Pattern

/-- The ASCII classes that have a name. -/
def asciiClass? (name : String) : Option CharSet :=
  match name with
  | "alnum" => some ⟨[(0x30, 0x39), (0x41, 0x5A), (0x61, 0x7A)]⟩
  | "alpha" => some ⟨[(0x41, 0x5A), (0x61, 0x7A)]⟩
  | "ascii" => some ⟨[(0x0, 0x7F)]⟩
  | "blank" => some ⟨[(0x9, 0x9), (0x20, 0x20)]⟩
  | "cntrl" => some ⟨[(0x0, 0x1F), (0x7F, 0x7F)]⟩
  | "digit" => some ⟨[(0x30, 0x39)]⟩
  | "graph" => some ⟨[(0x21, 0x7E)]⟩
  | "lower" => some ⟨[(0x61, 0x7A)]⟩
  | "print" => some ⟨[(0x20, 0x7E)]⟩
  | "punct" => some ⟨[(0x21, 0x2F), (0x3A, 0x40), (0x5B, 0x60), (0x7B, 0x7E)]⟩
  | "space" => some ⟨[(0x9, 0xD), (0x20, 0x20)]⟩
  | "upper" => some ⟨[(0x41, 0x5A)]⟩
  | "word" => some Alphabet.ascii.words
  | "xdigit" => some ⟨[(0x30, 0x39), (0x41, 0x46), (0x61, 0x66)]⟩
  | _ => none

/-- Reads a named ASCII class such as `:alpha:]` after its opening bracket: the class and whether it
is negated. What only looks like one is a bracket of its own. -/
def readAsciiClass? : List Char → Option ((CharSet × Bool) × List Char)
  | ':' :: cs =>
      let (negated, cs) := match cs with
        | '^' :: rest => (true, rest)
        | rest => (false, rest)
      let name := cs.takeWhile (· != ':')
      match cs.drop name.length with
      | ':' :: ']' :: rest => (asciiClass? (String.ofList name)).map fun s => ((s, negated), rest)
      | _ => none
  | _ => none

/-- A member of a class: a character, which may begin a range, or a set. -/
inductive Member where
  | char (c : Char)
  | set (s : CharSet)

/-- Reads one member of a class. A condition on a place is none. -/
def readMember? (f : Flags) : List Char → Option (Member × List Char)
  | '\\' :: cs =>
      match readEscape? f cs with
      | some (.literal c, rest) => some (.char c, rest)
      | some (.charSet s, rest) => some (.set s, rest)
      | _ => none
  | c :: cs => some (.char c, cs)
  | [] => none

/-- The characters from one to another, if there are any. Without the characters of all scripts they
have to be ASCII ones. -/
def range? (f : Flags) (a b : Char) : Option CharSet :=
  if a ≤ b && (f.alphabet == .full || b.toNat < 0x80) then some ⟨[(a.toNat, b.toNat)]⟩ else none

/-- The character that a look ahead over blanks finds. It goes over one `#` as well, but takes the
first letter of the comment after it for what comes next. -/
def peekSpaced (f : Flags) (cs : List Char) : Option Char :=
  let next :=
    match cs.dropWhile Text.isBlank with
    | '#' :: rest => (rest.dropWhile Text.isBlank).head?
    | rest => rest.head?
  if f.spaced then next.or cs.head? else cs.head?

/-- Reads a member or a range. A minus sign before the closing bracket or before another one begins
no range. -/
def readRange? (f : Flags) (cs : List Char) : Option (CharSet × List Char) := do
  let (first, rest) ← readMember? f cs
  match skipSpace f rest with
  | '-' :: after =>
      if peekSpaced f after = some ']' ∨ peekSpaced f after = some '-' then
        finish first ('-' :: after)
      else do
        let (last, rest) ← readMember? f (skipSpace f after)
        match first, last with
        | .char a, .char b => (range? f a b).map (·, rest)
        | _, _ => none
  | [] => none
  | rest => finish first rest
where
  /-- A member that begins no range. -/
  finish (m : Member) (rest : List Char) : Option (CharSet × List Char) :=
    match m with
    | .char c => (range? f c c).map (·, rest)
    | .set s => some (s, rest)

/-- Members of a class, how many there are and how deep they are nested. -/
structure Members where
  chars : CharSet
  count : Nat
  depth : Nat

namespace Members

/-- No members. -/
def empty : Members := ⟨.empty, 0, 0⟩

/-- One more member, which has parts of its own if it is a bracket. -/
def add (m : Members) (s : CharSet) (depth : Nat) : Members :=
  ⟨s.union m.chars, m.count + 1, max m.depth depth⟩

/-- How deep the members are nested as a whole. Several of them are a level of their own. -/
def totalDepth (m : Members) : Nat := if m.count < 2 then m.depth else m.depth + 1

end Members

/-- What was read of a class: what stands before the last operator, and the members after it. -/
structure Class where
  before : Option (SetOp × CharSet × Nat)
  current : Members

namespace Class

/-- Adds a member. -/
def add (k : Class) (s : CharSet) (depth : Nat) : Class :=
  { k with current := k.current.add s depth }

/-- All that was read, the last operator applied, and how deep it is nested. Case is settled before
an operator applies. -/
def all (f : Flags) (k : Class) : CharSet × Nat :=
  match k.before with
  | none => (k.current.chars, k.current.totalDepth)
  | some (op, s, depth) =>
      (op.apply (f.fold s) (f.fold k.current.chars), max depth k.current.totalDepth + 1)

/-- Begins a new row of members after an operator. -/
def apply (f : Flags) (k : Class) (op : SetOp) : Class :=
  let (s, depth) := k.all f
  ⟨some (op, s, depth), .empty⟩

end Class

/-- Reads the start of a class: whether it is negated, and the characters that stand for themselves
only there. -/
def openBracket (f : Flags) (cs : List Char) : Bool × Class × List Char :=
  let (negated, cs) := match skipSpace f cs with
    | '^' :: rest => (true, skipSpace f rest)
    | rest => (false, rest)
  let (dashes, cs) := takeSpaced f (· == '-') cs.length cs
  let members := dashes.foldl (fun m c => m.add (.single c) 0) Members.empty
  match dashes, cs with
  | [], ']' :: rest => (negated, ⟨none, members.add (.single ']') 0⟩, rest)
  | _, cs => (negated, ⟨none, members⟩, cs)

/-- Reads the members of a class up to its closing bracket. The answer is the class, how deep it is
nested, and the rest. Every round takes a character, so the length of the text is enough for the
first number. -/
def readMembers? (f : Flags) (negated : Bool) :
    Nat → Class → List Char → Option ((CharSet × Nat) × List Char)
  | 0, _, _ => none
  | n + 1, k, cs =>
      match skipSpace f cs with
      | [] => none
      | ']' :: rest =>
          let (s, depth) := k.all f
          (f.foldClass? negated s).map fun s => ((s, depth + 1), rest)
      | '&' :: '&' :: rest => readMembers? f negated n (k.apply f .intersection) rest
      | '-' :: '-' :: rest => readMembers? f negated n (k.apply f .difference) rest
      | '~' :: '~' :: rest => readMembers? f negated n (k.apply f .symmetricDifference) rest
      | '[' :: rest =>
          match readAsciiClass? rest with
          | some ((s, negatedClass), rest) =>
              match f.foldClass? negatedClass s with
              | some s => readMembers? f negated n (k.add s 0) rest
              | none => none
          | none =>
              let (negatedInner, inner, rest) := openBracket f rest
              match readMembers? f negatedInner n inner rest with
              | some ((s, depth), rest) => readMembers? f negated n (k.add s depth) rest
              | none => none
      | cs =>
          match readRange? f cs with
          | some (s, rest) => readMembers? f negated n (k.add s 0) rest
          | none => none

/-- Reads a class after its opening bracket, and how deep it is nested. -/
def readBracket? (f : Flags) (cs : List Char) : Option ((CharSet × Nat) × List Char) :=
  let (negated, first, rest) := openBracket f cs
  readMembers? f negated (cs.length + 1) first rest

end SmallLang.Pattern
