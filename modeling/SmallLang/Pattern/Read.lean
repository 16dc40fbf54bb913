import SmallLang.Pattern.Bracket
import SmallLang.Pattern.Footprint
import SmallLang.Pattern.Search
import SmallLang.Text.Alphanumeric
import SmallLang.Text.Integer

/-!
# Reading patterns

`Pattern.read?` turns the text of a pattern into a `Pattern`, and has no answer for a text that is
none, or one that is nested too deeply. It goes through the text item by item, and keeps the groups
that are open on a stack. `Pattern.compile?` is what the scanner uses: the text is put into a group
behind the anchor for the start of a text, and the answer gives the end of the first match.
-/

set_option autoImplicit false

namespace SmallLang.Pattern

/-- The deepest nesting that a pattern may have. -/
def maxDepth : Nat := 250

/-- A part of a pattern and how deep its own parts are nested. -/
structure Part where
  pattern : Pattern
  depth : Nat

/-- What was read of a group so far: its finished alternatives and the items of the current one, the
last ones first. A settings group is an item that nothing can repeat. -/
structure Level where
  alternatives : List Part
  items : List (Option Part)

namespace Level

/-- A group of which nothing was read yet. -/
def empty : Level := ⟨[], []⟩

/-- The alternative that is being read. Several items are a row, and nested once more. -/
def current (l : Level) : Part :=
  let parts := l.items.reverse.filterMap id
  let depth := parts.foldl (fun n p => max n p.depth) 0
  ⟨inRow (parts.map (·.pattern)), if l.items.length < 2 then depth else depth + 1⟩

/-- The whole group. Several alternatives are a choice, and nested once more. -/
def whole (l : Level) : Part :=
  match l.alternatives with
  | [] => l.current
  | before =>
      let parts := (l.current :: before).reverse
      ⟨anyOf (parts.map (·.pattern)), parts.foldl (fun n p => max n p.depth) 0 + 1⟩

/-- Adds an item. -/
def push (l : Level) (p : Part) : Level := { l with items := some p :: l.items }

/-- Notes a settings group. -/
def pushSettings (l : Level) : Level := { l with items := none :: l.items }

/-- Begins the next alternative. -/
def bar (l : Level) : Level := ⟨l.current :: l.alternatives, []⟩

/-- Repeats the last item, if there is one to be repeated. -/
def repeatLast? (l : Level) (least : Nat) (most : Option Nat) (greedy : Bool) : Option Level :=
  match l.items with
  | some p :: items =>
      some { l with items := some ⟨rounds p.pattern least most greedy, p.depth + 1⟩ :: items }
  | _ => none

end Level

/-- The largest count that a repetition may have. -/
def maxCount : Nat := 4294967295

/-- Reads a count with blanks around it. -/
def readCount? (f : Flags) (cs : List Char) : Option (Nat × List Char) :=
  let cs := cs.dropWhile Text.isBlank
  let (digits, rest) := takeSpaced f Char.isDigit cs.length cs
  match Text.readNatural? digits with
  | some n => if n ≤ maxCount then some (n, rest.dropWhile Text.isBlank) else none
  | none => none

/-- Reads the bounds of a counted repetition after its opening brace. -/
def readBounds? (f : Flags) (cs : List Char) : Option ((Nat × Option Nat) × List Char) := do
  let (least, rest) ← readCount? f (skipSpace f cs)
  match rest with
  | '\x7d' :: rest => some ((least, some least), rest)
  | ',' :: rest =>
      match skipSpace f rest with
      | '\x7d' :: rest => some ((least, none), rest)
      | rest => do
          let (most, rest) ← readCount? f rest
          match rest with
          | '\x7d' :: rest => if least ≤ most then some ((least, some most), rest) else none
          | _ => none
  | _ => none

/-- Reads the name of a group: letters, digits, underscores, dots and brackets, the first one a
letter or an underscore. -/
def readName? (cs : List Char) : Option (String × List Char) :=
  let name := cs.takeWhile (· != '>')
  match cs.drop name.length, name with
  | _ :: rest, c :: more =>
      let isNameChar (c : Char) :=
        c = '_' || c = '.' || c = '[' || c = ']' || Text.isAlphabetic c || Text.isNumeric c
      if (c = '_' || Text.isAlphabetic c) && more.all isNameChar then
        some (String.ofList name, rest)
      else none
  | _, _ => none

/-- How a group begins. -/
inductive GroupStart where
  /-- The settings change up to the end of the enclosing group. -/
  | settings (f : Flags)
  /-- A group that is read under the settings and has no number. -/
  | plain (f : Flags)
  /-- A group with a number, which may have a name. -/
  | numbered (name : Option String)

/-- Reads the start of a group after its parenthesis. -/
def readGroup? (f : Flags) (cs : List Char) : Option (GroupStart × List Char) :=
  let named (r : String × List Char) := (GroupStart.numbered (some r.1), r.2)
  match skipSpace f cs with
  | '?' :: 'P' :: '<' :: rest => (readName? rest).map named
  | '?' :: '<' :: rest => (readName? rest).map named
  | '?' :: rest =>
      match f.read [] true false rest with
      | some (f', ':', _, rest) => some (.plain f', rest)
      | some (f', _, true, rest) => some (.settings f', rest)
      | _ => none
  | rest => some (.numbered none, rest)

/-- An open group: the settings to go back to, its number, if it has one, and what was read of the
group around it. -/
structure Enclosing where
  flags : Flags
  number : Option Nat
  level : Level

/-- What is known after a part of a pattern: the settings, the names of groups, how many groups have
a number, the group that is being read, and the open ones around it. -/
structure Reader where
  flags : Flags
  names : List String
  numbered : Nat
  level : Level
  outer : List Enclosing

namespace Reader

/-- At the start of a pattern. -/
def start : Reader := ⟨.default, [], 0, .empty, []⟩

/-- Adds an item. -/
def push (r : Reader) (p : Pattern) (depth : Nat) : Reader :=
  { r with level := r.level.push ⟨p, depth⟩ }

/-- Begins a group. A name is used only once. -/
def openGroup? (r : Reader) : GroupStart → Option Reader
  | .settings f => some { r with flags := f, level := r.level.pushSettings }
  | .plain f =>
      some { r with flags := f, level := .empty, outer := ⟨r.flags, none, r.level⟩ :: r.outer }
  | .numbered name =>
      let number := r.numbered + 1
      if name.any r.names.contains then none
      else
        some { r with
          names := name.toList ++ r.names
          numbered := number
          level := .empty
          outer := ⟨r.flags, some number, r.level⟩ :: r.outer }

/-- Ends a group. -/
def closeGroup? (r : Reader) : Option Reader :=
  match r.outer with
  | [] => none
  | e :: outer =>
      let ⟨p, depth⟩ := r.level.whole
      let p := match e.number with
        | some n => group n p
        | none => p
      some { r with flags := e.flags, level := e.level.push ⟨p, depth + 1⟩, outer := outer }

/-- Repeats the last item. A question mark at once makes the repetition reluctant. -/
def repeatLast? (r : Reader) (least : Nat) (most : Option Nat) (cs : List Char) :
    Option (Reader × List Char) :=
  let (marked, rest) := match cs with
    | '?' :: rest => (true, rest)
    | rest => (false, rest)
  (r.level.repeatLast? least most (r.flags.greed marked)).map fun l => ({ r with level := l }, rest)

/-- Adds what an escape stands for. -/
def pushEscape (r : Reader) : Escape → Reader
  | .literal c => r.push (ofSet (r.flags.fold (.single c))) 0
  | .charSet s => r.push (ofSet s) 0
  | .anchor a => r.push (anchor a) 0

/-- Reads the item that begins with a character. The answer is what is known after it, and the rest
of the pattern. -/
def item? (r : Reader) (c : Char) (rest : List Char) : Option (Reader × List Char) :=
  let f := r.flags
  match c with
  | '(' => (readGroup? f rest).bind fun (start, rest) => (r.openGroup? start).map (·, rest)
  | ')' => r.closeGroup?.map (·, rest)
  | '|' => some ({ r with level := r.level.bar }, rest)
  | '*' => r.repeatLast? 0 none rest
  | '+' => r.repeatLast? 1 none rest
  | '?' => r.repeatLast? 0 (some 1) rest
  | '\x7b' =>
      match readBounds? f rest with
      | some ((least, most), rest) => r.repeatLast? least most (skipSpace f rest)
      | none => none
  | '[' => (readBracket? f rest).map fun ((s, depth), rest) => (r.push (ofSet s) depth, rest)
  | '\\' => (readEscape? f rest).map fun (e, rest) => (r.pushEscape e, rest)
  | '.' => f.dot?.map fun s => (r.push (ofSet s) 0, rest)
  | '^' => some (r.push (anchor f.lineStart) 0, rest)
  | '$' => some (r.push (anchor f.lineEnd) 0, rest)
  | c => some (r.pushEscape (.literal c), rest)

/-- Reads the rest of a pattern. Every round takes a character, so one more than the length of the
text is enough for the first number. -/
def run? : Nat → Reader → List Char → Option Part
  | 0, _, _ => none
  | n + 1, r, cs =>
      match skipSpace r.flags cs with
      | [] => if r.outer.isEmpty then some r.level.whole else none
      | c :: rest =>
          match r.item? c rest with
          | some (r, rest) => run? n r rest
          | none => none

end Reader

/-- The pattern that a text describes. -/
def read? (text : List Char) : Option Pattern :=
  match Reader.start.run? (text.length + 1) text with
  | some part => if part.depth ≤ maxDepth then some part.pattern else none
  | none => none

/-- The text of a pattern behind the anchor for the start of a text. -/
def anchoredText (pattern : String) : List Char := "\\A(?:".toList ++ pattern.toList ++ [')']

/-- The matcher that gives the end of the first match of a pattern put behind the anchor. A pattern
that is too large has none. -/
def compile? (pattern : String) : Option (List Char → Option Nat) :=
  match read? (anchoredText pattern) with
  | some p => if p.isSmall then some p.automaton.findEnd? else none
  | none => none

end SmallLang.Pattern
