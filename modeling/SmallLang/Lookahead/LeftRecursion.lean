import SmallLang.Assembly.Error
import SmallLang.Lookahead.First
import SmallLang.Reach

/-!
# Left recursion

A non-terminal is left recursive if it derives a form that begins with itself. Such a form is found
by walking from a non-terminal to those that can come first in its productions, where leading parts
that can be empty are passed over. The walk is a depth-first search from every non-terminal in
order, and left recursion shows as a step back to a non-terminal that the walk has not left yet.
-/

set_option autoImplicit false

namespace SmallLang

/-- The non-terminals that can come first in a row of symbols, by the nullable ones among them. -/
def leftCorners {n : Nat} (first : FirstTable n) : List Symbol → List Nat
  | .nonTerminal i :: rest => i :: if first.nullable i then leftCorners first rest else []
  | _ => []

/-- The non-terminals that can come first in a production of a non-terminal. -/
def Grammar.leftCornersOf {n : Nat} (g : Grammar) (first : FirstTable n) (nt : Nat) : List Nat :=
  (g.productionsOf nt).flatMap fun p => leftCorners first p.symbols

/-- Visits the vertices of a list and all that can be reached from them. The walk has entered and
not left the vertices in `active`, and has left those in `done`; a step to one of the former is an
error that names it. Otherwise the answer is the vertices left so far, the last one first. -/
def depthFirst (n : Nat) (next : Nat → List Nat) (active done : List Nat) :
    List Nat → Except Nat (List Nat)
  | [] => .ok done
  | v :: vs =>
      if v ∈ active then .error v
      else if v ∈ done ∨ n ≤ v then depthFirst n next active done vs
      else
        -- All that can be reached from the vertex comes before its siblings.
        match depthFirst n next (v :: active) done (next v) with
        | .error w => .error w
        | .ok done' => depthFirst n next active (v :: done') vs
termination_by vs => (Reach.unmet n active, vs.length)
decreasing_by
  · exact Prod.Lex.right _ (Nat.lt_succ_self _)
  · rename_i hactive hdone
    exact Prod.Lex.left _ _ (Reach.unmet_cons_lt (by omega) hactive)
  · exact Prod.Lex.right _ (Nat.lt_succ_self _)

/-- The first left recursive non-terminal that the walk finds, if there is one. -/
def Grammar.leftRecursive? (g : Grammar) (first : FirstTable g.arena.size) : Option Nat :=
  match depthFirst g.size (g.leftCornersOf first) [] [] (List.range g.size) with
  | .error v => some v
  | .ok _ => none

/-- Refuses a grammar with a left recursive non-terminal. -/
def Grammar.checkLeftRecursion (g : Grammar) (first : FirstTable g.arena.size) :
    Except AssemblyError Unit :=
  match g.leftRecursive? first with
  | none => .ok ()
  | some v => .error (.leftRecursion (g.nameOf v))

end SmallLang
