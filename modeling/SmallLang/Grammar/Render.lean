import SmallLang.Grammar

/-!
# The text of a grammar

Each non-terminal is shown with its number, its name and its numbered productions. A precedence is
shown only where it is not the default.
-/

set_option autoImplicit false

namespace SmallLang

/-- Lines as one text, a line end after each. -/
def unlines (lines : List String) : String := String.join (lines.map (· ++ "\n"))

namespace Grammar

/-- A symbol as messages show it: the name of a non-terminal, a quoted literal or the name of a
class. -/
def symbolName (g : Grammar) : Symbol → String
  | .nonTerminal i => g.nameOf i
  | .terminal i => g.arena.render i

/-- A production: its symbols, and its precedence in braces. -/
def renderProduction (g : Grammar) (p : Production) : String :=
  (if p.symbols = [] then "(empty)" else " ".intercalate (p.symbols.map g.symbolName)) ++
    (if p.prec = Prec.default then "" else "  \x7b" ++ p.prec.render ++ "\x7d")

/-- The lines of one non-terminal. -/
def renderNonTerminal (g : Grammar) (i : Nat) (nt : NonTerminal) : List String :=
  [toString i ++ ": " ++ (if i = g.start then "start " else "") ++ nt.name ++ " = \x7b"] ++
    (nt.productions.zipIdx.map fun (p, k) =>
      "  " ++ toString k ++ ": " ++ g.renderProduction p) ++
    ["\x7d"]

/-- The whole grammar. -/
def render (g : Grammar) : String :=
  unlines (g.nonTerminals.zipIdx.flatMap fun (nt, i) => g.renderNonTerminal i nt)

end Grammar

end SmallLang
