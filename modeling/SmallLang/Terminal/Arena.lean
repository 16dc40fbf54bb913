import SmallLang.Assembly.Error
import SmallLang.Terminal

/-!
# The terminals of a grammar

A grammar refers to its terminals by number. An `Arena` numbers terminals in the order in which they
are first used; a literal is known by its text and a class by its name, and a class cannot be used
with two definitions.
-/

set_option autoImplicit false

namespace SmallLang

/-- The terminals used so far, in order of first use. -/
structure Arena where
  terminals : List Terminal
  deriving DecidableEq, Repr

namespace Arena

/-- No terminal used yet. -/
def empty : Arena := ⟨[]⟩

/-- The number of terminals. -/
def size (a : Arena) : Nat := a.terminals.length

/-- The terminal of that number. -/
def get? (a : Arena) (i : Nat) : Option Terminal := a.terminals[i]?

/-- The number of the terminal that has the same literal text or class name. -/
def indexOf? (a : Arena) (t : Terminal) : Option Nat := a.terminals.findIdx? t.sameKey

/-- The number of a terminal, which is added on its first use. A class of the same name but with
another definition is refused. -/
def intern (a : Arena) (t : Terminal) : Except AssemblyError (Nat × Arena) :=
  match a.indexOf? t with
  | none => .ok (a.size, ⟨a.terminals ++ [t]⟩)
  | some i => if a.get? i = some t then .ok (i, a) else .error (.conflictingTerminal t.name)

/-- The number of the class of that name, or else of the literal of that text. -/
def find? (a : Arena) (name : String) : Option Nat :=
  (a.terminals.findIdx? (·.isClassNamed name)).or
    (a.terminals.findIdx? (· = Terminal.literal name))

/-- The terminal of that number as grammars show it. -/
def render (a : Arena) (i : Nat) : String := ((a.get? i).map Terminal.render).getD ""

end Arena

end SmallLang
