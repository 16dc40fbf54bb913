import SmallLang.Construction
import SmallLang.Precedence
import SmallLang.Terminal.Arena

/-!
# Grammars

A grammar numbers its non-terminals, the productions of each and its terminals. Symbols refer to
them by number, so looking one up may fail; `Grammar.WellFormed` says that no symbol of the grammar
does.
-/

set_option autoImplicit false

namespace SmallLang

/-- A symbol of a production, by number. -/
inductive Symbol where
  | nonTerminal (i : Nat)
  | terminal (i : Nat)
  deriving DecidableEq, Repr

/-- A production: its symbols, what it builds and its precedence. -/
structure Production where
  symbols : List Symbol
  construction : Construction
  prec : Prec
  deriving DecidableEq

/-- A non-terminal: its name and its productions. -/
structure NonTerminal where
  name : String
  productions : List Production
  deriving DecidableEq

/-- The name of the node type that a non-terminal belongs to: what stands before the first mark of a
level or of a list's rest. -/
def typeNameOf (name : String) : String :=
  String.ofList (name.toList.takeWhile fun c => c != '#' && c != '@')

/-- The name of the node type that the non-terminal belongs to. -/
def NonTerminal.typeName (nt : NonTerminal) : String := typeNameOf nt.name

/-- Non-terminals, terminals, and the number of the non-terminal where parsing starts. -/
structure Grammar where
  nonTerminals : List NonTerminal
  arena : Arena
  start : Nat
  deriving DecidableEq

namespace Grammar

/-- The number of non-terminals. -/
def size (g : Grammar) : Nat := g.nonTerminals.length

/-- The productions of a non-terminal, none when there is no such non-terminal. -/
def productionsOf (g : Grammar) (nt : Nat) : List Production :=
  ((g.nonTerminals[nt]?).map NonTerminal.productions).getD []

/-- A production by the number of its non-terminal and its own number. -/
def production? (g : Grammar) (nt p : Nat) : Option Production := (g.productionsOf nt)[p]?

/-- The first non-terminal of that name. -/
def find? (g : Grammar) (name : String) : Option Nat :=
  g.nonTerminals.findIdx? (·.name == name)

/-- The name of a non-terminal. -/
def nameOf (g : Grammar) (nt : Nat) : String :=
  ((g.nonTerminals[nt]?).map NonTerminal.name).getD ""

/-- All productions with the numbers of their non-terminals and their own numbers, in order. -/
def numberedProductions (g : Grammar) : List (Nat × Nat × Production) :=
  g.nonTerminals.zipIdx.flatMap fun (nt, i) =>
    nt.productions.zipIdx.map fun (production, p) => (i, p, production)

/-- A symbol that refers to something in the grammar. -/
def HasSymbol (g : Grammar) : Symbol → Prop
  | .nonTerminal i => i < g.size
  | .terminal i => i < g.arena.size

/-- The start and every symbol of every production refer to something in the grammar. -/
def WellFormed (g : Grammar) : Prop :=
  g.start < g.size ∧
    ∀ nt ∈ g.nonTerminals, ∀ p ∈ nt.productions, ∀ s ∈ p.symbols, g.HasSymbol s

instance (g : Grammar) : (s : Symbol) → Decidable (g.HasSymbol s)
  | .nonTerminal i => inferInstanceAs (Decidable (i < g.size))
  | .terminal i => inferInstanceAs (Decidable (i < g.arena.size))

instance (g : Grammar) : Decidable g.WellFormed := inferInstanceAs (Decidable (_ ∧ _))

end Grammar

end SmallLang
