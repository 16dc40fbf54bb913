import SmallLang.Pattern.Build
import SmallLang.Pattern.Encoding

/-!
# The size of a pattern

A pattern is matched byte by byte, by an automaton whose states have a price. `Pattern.footprint` is
the price of the automaton that reads a text forwards, or of the one that reads it backwards. A
pattern is refused if either of them goes beyond `maxFootprint`.

In the automata a set is a tree of byte ranges. Reading forwards, equal branches of the tree are
kept once; reading backwards, its branches are followed from their ends. A choice between texts is
kept as a tree of their bytes.
-/

set_option autoImplicit false

namespace SmallLang

/-- The largest price that an automaton may have. -/
def maxFootprint : Nat := 10485760

/-- The way in which an automaton reads a text. -/
inductive Direction where
  | forward
  | backward
  deriving DecidableEq, Repr

/-- The price of a state. -/
def statePrice : Nat := 32

/-- The price of a byte range with the state that it leads to, where a state has several. -/
def edgePrice : Nat := 8

/-- The price of a state to go on with, where a state has several without a byte. -/
def branchPrice : Nat := 4

namespace CharSet

/-- The rows that begin with the same byte range, without it, for all byte ranges in order. Rows
with an equal first byte range are neighbours. -/
def groupByHead : List (List ByteRange) → List (ByteRange × List (List ByteRange))
  | [] => []
  | [] :: rows => groupByHead rows
  | (head :: tail) :: rows =>
      match groupByHead rows with
      | (head', tails) :: groups =>
          if head = head' then (head, tail :: tails) :: groups
          else (head, [tail]) :: (head', tails) :: groups
      | [] => [(head, [tail])]

/-- A state of an automaton for a set: its byte ranges and where they lead. State `0` is the end. -/
abbrev Branching := List (ByteRange × Nat)

/-- The number of a state for some rows. Known states are used again, new ones are added. The rows
have at most `depth` bytes. -/
def shareRows : Nat → List Branching → List (List ByteRange) → List Branching × Nat
  | 0, known, _ => (known, 0)
  | depth + 1, known, rows =>
      let (known, state) := (groupByHead rows).foldl
        (fun (known, state) (head, tails) =>
          if tails.all (·.isEmpty) then (known, state ++ [(head, 0)])
          else
            let (known, next) := shareRows depth known tails
            (known, state ++ [(head, next)]))
        (known, [])
      match known.findIdx? (· == state) with
      | some i => (known, i + 1)
      | none => (known ++ [state], known.length + 1)

/-- The number of byte ranges in the tree of some rows. The rows have at most `depth` bytes. -/
def treeSize : Nat → List (List ByteRange) → Nat
  | 0, _ => 0
  | depth + 1, rows =>
      (groupByHead rows).foldl (fun n (_, tails) => n + 1 + treeSize depth tails) 0

/-- The largest number of bytes of a character. -/
def maxBytes : Nat := 4

/-- The price of a set. An ASCII set is one state with a byte range for each range. -/
def footprint (s : CharSet) (d : Direction) : Nat :=
  if s.isAscii then 2 * statePrice + edgePrice * s.ranges.length
  else
    match d with
    | .forward =>
        let (states, _) := shareRows maxBytes [] s.byteRows
        states.foldl (fun n state => n + statePrice + edgePrice * state.length) statePrice
    | .backward =>
        2 * statePrice + branchPrice * s.byteRows.length + statePrice * treeSize maxBytes s.byteRows

end CharSet

namespace Pattern

/-- The bytes of a text in the order in which they are read. -/
def bytesOf (d : Direction) (cs : List Char) : List UInt8 :=
  let bytes := cs.flatMap String.utf8EncodeChar
  match d with
  | .forward => bytes
  | .backward => bytes.reverse

/-- Several texts that end before any other goes on count as one. -/
def mergeEnds : List (List UInt8) → List (List UInt8)
  | [] :: ws => [] :: ws.dropWhile (·.isEmpty)
  | ws => ws

/-- Cuts texts where one of them ends: the texts before the first end, those up to the next one, and
so on. -/
def cutAtEnds : List (List UInt8) → List (List (List UInt8))
  | [] => [[]]
  | w :: ws =>
      match w, cutAtEnds ws with
      | [], cuts => [] :: cuts
      | w, cut :: cuts => (w :: cut) :: cuts
      | w, [] => [[w]]

/-- The texts after each first byte, without it. The first bytes come in the order in which they are
met. -/
def groupByByte (ws : List (List UInt8)) : List (UInt8 × List (List UInt8)) :=
  ws.foldr (fun w groups =>
    match w with
    | [] => groups
    | b :: tail => (b, tail :: (groups.lookup b).getD []) :: groups.filter (·.1 != b)) []

/-- The price of the tree for a choice between texts of at most `depth` bytes, without its end. A
state has the next bytes of the texts up to the first one that ends there, then those of the texts
after it, and so on. -/
def treeFootprint : Nat → List (List UInt8) → Nat
  | 0, _ => 0
  | depth + 1, ws =>
      let cuts := (cutAtEnds (mergeEnds ws)).map groupByByte
      let below := cuts.foldl (fun n cut => cut.foldl (fun n (_, tails) =>
        if tails.all (·.isEmpty) then n else n + treeFootprint depth tails) n) 0
      let here := cuts.foldl (fun n cut =>
        match cut.length with
        | 0 => n
        | 1 => n + statePrice
        | k => n + statePrice + edgePrice * k) 0
      let branches := (cuts.filter (!·.isEmpty)).length + (cuts.length - 1)
      below + here + if branches = 1 then 0 else statePrice + branchPrice * branches

/-- The price of a choice between texts. -/
def textsFootprint (d : Direction) (texts : List (List Char)) : Nat :=
  let words := texts.map (bytesOf d)
  let depth := words.foldl (fun n w => max n w.length) 0
  statePrice + treeFootprint (depth + 1) words

/-- The characters, if the pattern is a text. -/
def text? : Pattern → Option (List Char)
  | text cs => some cs
  | _ => none

/-- The price of a pattern. Inside a choice it is the price of its other alternatives, too, and of a
branch for each. -/
def footprint (d : Direction) : Pattern → Bool → Nat
  | nothing, inChoice => priced statePrice inChoice
  | text cs, inChoice => priced (statePrice * (bytesOf d cs).length) inChoice
  | char s, inChoice => priced (s.footprint d) inChoice
  | anchor _, inChoice => priced statePrice inChoice
  | group _ p, inChoice =>
      let marks := match d with
        | .forward => 2 * statePrice
        | .backward => 0
      priced (p.footprint d false + marks) inChoice
  | seq p q, inChoice => priced (p.footprint d false + q.footprint d false) inChoice
  | alt p q, true => p.footprint d true + q.footprint d true
  | alt p q, false =>
      match (alt p q).alternatives.mapM text? with
      | some texts => textsFootprint d texts
      | none => 2 * statePrice + p.footprint d true + q.footprint d true
  | repeated p least most _, inChoice =>
      let round := p.footprint d false
      let fork := statePrice + 2 * branchPrice
      let price :=
        match least, most with
        | 0, none => if p.isNullable then round + 2 * fork + statePrice else round + fork
        | n, none => n * round + fork
        | 0, some 1 => round + fork + statePrice
        | n, some m =>
            if n = m then n * round
            else (if n = 0 then statePrice else n * round) + statePrice + (m - n) * (round + fork)
      priced price inChoice
where
  /-- Adds the price of a branch inside a choice. -/
  priced (price : Nat) (inChoice : Bool) : Nat :=
    if inChoice then price + branchPrice else price

/-- The price of the whole automaton: the pattern, its end, and the way to its start. Reading
forwards, the piece found is a group of its own. -/
def totalFootprint (d : Direction) (p : Pattern) : Nat :=
  let fixedStart := match d with
    | .forward => p.isAnchored
    | .backward => p.isEndAnchored
  -- A pattern that may begin anywhere comes after any number of bytes.
  let lead := if fixedStart then statePrice
    else statePrice + 2 * branchPrice + 2 * statePrice + edgePrice
  let marks := match d with
    | .forward => 2 * statePrice
    | .backward => 0
  lead + marks + p.footprint d false + statePrice

/-- Whether the automata for the pattern are small enough. -/
def isSmall (p : Pattern) : Bool :=
  p.totalFootprint .forward ≤ maxFootprint && p.totalFootprint .backward ≤ maxFootprint

end Pattern

end SmallLang
