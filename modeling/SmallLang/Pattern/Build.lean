import SmallLang.Pattern

/-!
# Patterns in their simplest form

Rows and choices are flat, texts that follow each other are one text, and single characters to
choose from are one set. What all alternatives of a choice begin with stands in front of the choice.
This also decides what is preferred: in `\w+a|\w+b` the longest word comes first, whichever
character follows it.
-/

set_option autoImplicit false

namespace SmallLang.Pattern

/-- One character of a set. -/
def ofSet (s : CharSet) : Pattern :=
  match s.only? with
  | some c => text [c]
  | none => char s

/-- The parts of a row. -/
def items : Pattern → List Pattern
  | seq p q => p.items ++ q.items
  | p => [p]

/-- The parts of a choice. -/
def alternatives : Pattern → List Pattern
  | alt p q => p.alternatives ++ q.alternatives
  | p => [p]

/-- Puts a pattern in front of a row. -/
def glue : Pattern → List Pattern → List Pattern
  | nothing, ps => ps
  | text cs, text ds :: ps => text (cs ++ ds) :: ps
  | p, ps => p :: ps

/-- A row of parts, one after the other. -/
def ofItems : List Pattern → Pattern
  | [] => nothing
  | [p] => p
  | p :: ps => seq p (ofItems ps)

/-- Patterns one after the other. -/
def inRow (ps : List Pattern) : Pattern := ofItems ((ps.flatMap items).foldr glue [])

/-- A choice of alternatives, the first one preferred. -/
def ofAlternatives : List Pattern → Pattern
  | [] => char .empty
  | [p] => p
  | p :: ps => alt p (ofAlternatives ps)

/-- The character, if the pattern is a text of one. -/
def letter? : Pattern → Option Char
  | text [c] => some c
  | _ => none

/-- The set, if the pattern is one. -/
def set? : Pattern → Option CharSet
  | char s => some s
  | _ => none

/-- A choice between patterns that begin in different ways. -/
def choice (ps : List Pattern) : Pattern :=
  let ps := ps.flatMap alternatives
  match ps.mapM letter?, ps.mapM set? with
  | some cs, _ => ofSet (.ofRanges (cs.map fun c => (c.toNat, c.toNat)))
  | none, some sets => ofSet (sets.foldr CharSet.union .empty)
  | none, none => ofAlternatives ps

/-- What two rows begin with. -/
def sharedStart : List Pattern → List Pattern → List Pattern
  | p :: ps, q :: qs => if p = q then p :: sharedStart ps qs else []
  | _, _ => []

/-- A choice between patterns, the first one preferred. -/
def anyOf (ps : List Pattern) : Pattern :=
  let ps := ps.flatMap alternatives
  match ps.map items with
  | [] => choice ps
  | [_] => choice ps
  | row :: rows =>
      let shared := rows.foldl sharedStart row
      if shared.isEmpty || (row :: rows).any (·.length < 2) then choice ps
      else inRow (shared ++ [choice ((row :: rows).map fun r => inRow (r.drop shared.length))])

/-- Rounds of a pattern. If no round asks for a character, more than one is like one. -/
def rounds (p : Pattern) (least : Nat) (most : Option Nat) (greedy : Bool) : Pattern :=
  let (least, most) :=
    if p.isWeightless then (min least 1, some (min (most.getD 1) 1)) else (least, most)
  if most = some 0 then nothing
  else if least = 1 ∧ most = some 1 then p
  else repeated p least most greedy

end SmallLang.Pattern
