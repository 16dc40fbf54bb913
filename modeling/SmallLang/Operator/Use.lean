import SmallLang.Grammar
import SmallLang.Reach

/-!
# Operators and atoms of a non-terminal

A production that only hands on one non-terminal makes its alternatives alternatives of the head.
All non-terminals so reached from `e` form its unit closure. Among the productions of the closure,
those that begin with `e` itself and go on are operators on `e`; the others, except for the
productions within the closure, are its atoms.
-/

set_option autoImplicit false

namespace SmallLang

/-- The non-terminal that a production only hands on. -/
def Production.unitTarget? (p : Production) : Option Nat :=
  match p.symbols, p.construction with
  | [.nonTerminal target], .child 0 => some target
  | _, _ => none

/-- Whether the production begins with `e` and goes on after it. -/
def Production.isOperatorOn (e : Nat) (p : Production) : Bool :=
  match p.symbols with
  | .nonTerminal f :: _ :: _ => f == e
  | _ => false

/-- An operator on a non-terminal: what follows the left operand, what the production builds, and
the production of another non-terminal that declares it, if another one does. -/
structure OperatorUse where
  rest : List Symbol
  construction : Construction
  prec : Prec
  origin : Option (Nat × Nat)
  deriving DecidableEq

namespace Grammar

/-- The non-terminal and all those whose alternatives are also its own. -/
def unitClosure (g : Grammar) (e : Nat) : List Nat :=
  Reach.reachable g.size (fun nt => (g.productionsOf nt).filterMap Production.unitTarget?) e

/-- The operators on `e`, in the order of the closure and of the productions. -/
def operatorsOn (g : Grammar) (e : Nat) : List OperatorUse :=
  (g.unitClosure e).flatMap fun m =>
    (g.productionsOf m).zipIdx.filterMap fun (p, i) =>
      if p.isOperatorOn e then
        some ⟨p.symbols.tail, p.construction, p.prec, if m = e then none else some (m, i)⟩
      else none

/-- The productions of the closure that are neither operators nor lead back into the closure. -/
def atomsOf (g : Grammar) (e : Nat) : List Production :=
  let closure := g.unitClosure e
  closure.flatMap fun m =>
    (g.productionsOf m).filter fun p =>
      !p.isOperatorOn e && !p.unitTarget?.any closure.contains

end Grammar

end SmallLang
