import SmallLang.Operator.Use

/-!
# Operator levels

A non-terminal `E` with operators cannot be parsed predictively as it is declared, since its
operators begin with `E` again. It is replaced by a ladder of levels, one for each priority, loosest
first:

```text
E        -> E#p2 E#p1'            (the first level is E itself)
E#p1'    -> op1 operand E#p1' | (empty)
E#p2     -> E#atom E#p2'
E#p2'    -> op2 operand E#p2' | (empty)
E#atom   -> every atom of E
```

The operand after an operator that groups to the left, or not at all, is the next tighter level; the
operand after one that groups to the right is the level of the operator itself, so this operand has
already taken the rest of the chain and the tail does not go on. An operator that groups not at all
ends its tail as well. Ending a tail has the lowest priority: an operator is taken where it can
continue.

A type that declares an operator keeps its own non-terminal, so a body can still ask for it. The
production `Add -> E "+" E` becomes `Add -> operand Add#op0`, where `Add#op0` is the production of
the tail that begins with this operator.
-/

set_option autoImplicit false

namespace SmallLang

/-- Inserts a number into an increasing list that holds each number once. -/
def insertIncreasing (p : Int32) : List Int32 → List Int32
  | [] => [p]
  | q :: qs => if p < q then p :: q :: qs else if p = q then q :: qs else q :: insertIncreasing p qs

/-- The numbers of the list in increasing order, each once. -/
def increasing (ps : List Int32) : List Int32 := ps.foldr insertIncreasing []

/-- The list with another last element. -/
def replaceLast {α : Type} (xs : List α) (x : α) : List α := xs.dropLast ++ [x]

/-- The levels of a non-terminal. The new non-terminals have the numbers from `first` on: the tail
of the loosest level, then the head and the tail of each tighter one, then the atoms, then one for
each operator that another type declares. -/
structure Ladder where
  /-- The non-terminal with the operators. It stays as the head of the loosest level. -/
  base : Nat
  first : Nat
  /-- The priorities in increasing order. -/
  levels : List Int32

namespace Ladder

/-- The number of levels. -/
def height (l : Ladder) : Nat := l.levels.length

/-- The non-terminal of a level. -/
def head (l : Ladder) (k : Nat) : Nat := if k = 0 then l.base else l.first + 2 * k - 1

/-- The non-terminal for the operators of a level after an operand. -/
def tail (l : Ladder) (k : Nat) : Nat := l.first + 2 * k

/-- The non-terminal of the atoms. -/
def atom (l : Ladder) : Nat := l.first + 2 * l.height - 1

/-- The non-terminal that begins with the `j`-th operator that another type declares. -/
def forced (l : Ladder) (j : Nat) : Nat := l.first + 2 * l.height + j

/-- The operand of a level: the next tighter level, or the atoms after the tightest one. -/
def operand (l : Ladder) (k : Nat) : Nat := if k + 1 < l.height then l.head (k + 1) else l.atom

/-- The level of a priority. -/
def levelOf (l : Ladder) (p : Int32) : Nat := l.levels.findIdx (· == p)

/-- Whether an operator has an operand on both sides. -/
def isInfix (l : Ladder) (op : OperatorUse) : Bool :=
  op.rest.getLast? == some (.nonTerminal l.base)

/-- Whether the tail goes on after an operator. A right operand of the operator's own level has
taken the rest of the chain. -/
def loops (l : Ladder) (op : OperatorUse) : Bool :=
  match op.prec.assoc with
  | .left => true
  | .none => false
  | .right => !l.isInfix op

/-- The right operand of an operator. -/
def rightOperand (l : Ladder) (op : OperatorUse) : Nat :=
  let k := l.levelOf op.prec.priority
  if op.prec.assoc = .right then l.head k else l.operand k

/-- An operator as a production of its tail. -/
def tailProduction (l : Ladder) (op : OperatorUse) : Production :=
  let symbols :=
    if l.isInfix op then replaceLast op.rest (.nonTerminal (l.rightOperand op)) else op.rest
  { symbols :=
      if l.loops op then symbols ++ [.nonTerminal (l.tail (l.levelOf op.prec.priority))]
      else symbols
    construction := .operator op.construction (l.loops op)
    prec := op.prec }

/-- The end of a tail. -/
def endProduction : Production := ⟨[], .endOfTail, Prec.lowest⟩

/-- An operand of the level, then what follows it. -/
def climbProduction (l : Ladder) (k next : Nat) : Production :=
  ⟨[.nonTerminal (l.operand k), .nonTerminal next], .climb, Prec.default⟩

/-- The operand of an atom that ends in one: the loosest level that binds tighter than the atom, or
as tight when the atom groups to the right. -/
def prefixOperand (l : Ladder) (prec : Prec) : Nat :=
  let level := l.levels.findIdx? fun p =>
    if prec.assoc = .right then prec.priority ≤ p else prec.priority < p
  (level.map l.head).getD l.atom

/-- An atom as a production of the ladder. One that ends in an operand is a prefix operator. -/
def atomProduction (l : Ladder) (p : Production) : Production :=
  if 2 ≤ p.symbols.length && p.symbols.getLast? == some (.nonTerminal l.base) then
    { p with symbols := replaceLast p.symbols (.nonTerminal (l.prefixOperand p.prec)) }
  else p

end Ladder

namespace Grammar

/-- The ladder of a non-terminal with the given operators. -/
def ladderOf (g : Grammar) (e : Nat) (ops : List OperatorUse) : Ladder :=
  ⟨e, g.size, increasing (ops.map (·.prec.priority))⟩

/-- The head and the tail of one level. The head of the loosest level is there already. -/
def levelNonTerminals (g : Grammar) (l : Ladder) (ops : List OperatorUse) (k : Nat) (p : Int32) :
    List NonTerminal :=
  let name := g.nameOf l.base ++ "#" ++ toString p.toInt
  let tail : NonTerminal :=
    ⟨name ++ "'", (ops.filter (·.prec.priority == p)).map l.tailProduction ++
      [Ladder.endProduction]⟩
  if k = 0 then [tail] else [⟨name, [l.climbProduction k (l.tail k)]⟩, tail]

/-- The non-terminal that begins with an operator that the production `origin` declares. -/
def forcedNonTerminal (g : Grammar) (l : Ladder) (op : OperatorUse) (origin : Nat × Nat) :
    NonTerminal :=
  ⟨g.nameOf origin.1 ++ "#op" ++ toString origin.2, [l.tailProduction op]⟩

/-- The non-terminals that the ladder adds, in the order of their numbers. -/
def ladderNonTerminals (g : Grammar) (l : Ladder) (ops : List OperatorUse)
    (atoms : List Production) : List NonTerminal :=
  (l.levels.zipIdx.flatMap fun (p, k) => g.levelNonTerminals l ops k p) ++
    [⟨g.nameOf l.base ++ "#atom", atoms.map l.atomProduction⟩] ++
    ops.filterMap fun op => op.origin.map (g.forcedNonTerminal l op)

/-- A production of a non-terminal that was there before: one that declares an operator asks for an
operand and then for its operator, all others stay. -/
def keptProduction (l : Ladder) (ops : List OperatorUse) (nt i : Nat) (p : Production) :
    Production :=
  let declared := ops.filter (·.origin.isSome)
  match declared.zipIdx.find? (·.1.origin == some (nt, i)) with
  | some (op, j) => l.climbProduction (l.levelOf op.prec.priority) (l.forced j)
  | none => p

/-- A non-terminal that was there before. -/
def keptNonTerminal (l : Ladder) (ops : List OperatorUse) (i : Nat) (nt : NonTerminal) :
    NonTerminal :=
  if i = l.base then ⟨nt.name, [l.climbProduction 0 (l.tail 0)]⟩
  else ⟨nt.name, nt.productions.zipIdx.map fun (p, k) => keptProduction l ops i k p⟩

/-- Replaces a non-terminal with operators by a ladder. Without operators nothing changes. -/
def stratifyAt (g : Grammar) (e : Nat) : Grammar :=
  match g.operatorsOn e with
  | [] => g
  | op :: ops =>
      let l := g.ladderOf e (op :: ops)
      { g with
        nonTerminals :=
          (g.nonTerminals.zipIdx.map fun (nt, i) => keptNonTerminal l (op :: ops) i nt) ++
            g.ladderNonTerminals l (op :: ops) (g.atomsOf e) }

/-- Arranges the operators of all non-terminals in levels, one non-terminal after the other. Those
that are added on the way are not looked at again. -/
def stratify (g : Grammar) : Grammar := (List.range g.size).foldl stratifyAt g

end Grammar

end SmallLang
