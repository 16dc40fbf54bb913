/-!
# Precedence

A production has a priority and an associativity. Higher priorities bind tighter, and decide between
productions that apply to one lookahead.
-/

set_option autoImplicit false

namespace SmallLang

/-- How operators of one priority group in a chain. -/
inductive Assoc where
  | none
  | left
  | right
  deriving DecidableEq, Repr

/-- The priority and associativity of a production. -/
structure Prec where
  assoc : Assoc
  priority : Int32
  deriving DecidableEq, Repr

namespace Prec

/-- The precedence of a production that is declared without one. -/
def default : Prec := ⟨.none, 100⟩

/-- The precedence that loses against every other priority. -/
def lowest : Prec := ⟨.none, Int32.minValue⟩

/-- The precedence as grammars show it. -/
def render (p : Prec) : String :=
  (if p.priority = Int32.minValue then "lowest" else "priority " ++ toString p.priority.toInt) ++
    match p.assoc with
    | .none => ""
    | .left => ", left"
    | .right => ", right"

end Prec

end SmallLang
