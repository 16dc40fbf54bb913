import SmallLang.Assembly.Error
import SmallLang.Lookahead.Follow

/-!
# The parse table

The cell of a non-terminal and a lookahead holds the production to parse the non-terminal with when
the lookahead comes next. A production is a candidate for the cell if it can begin with the
lookahead, or can be empty where the lookahead can follow. Of several candidates the one with the
highest priority is chosen; if two share it, the grammar is ambiguous.
-/

set_option autoImplicit false

namespace SmallLang

/-- What comes next: a terminal, or the end of the input. -/
inductive Lookahead where
  | endOfInput
  | terminal (i : Nat)
  deriving DecidableEq, Repr

namespace Lookahead

/-- All lookaheads over the given number of terminals, the end of the input first. -/
def all (terminals : Nat) : List Lookahead :=
  .endOfInput :: (List.range terminals).map .terminal

/-- The place of the lookahead among all. -/
def column : Lookahead → Nat
  | endOfInput => 0
  | terminal i => i + 1

/-- The lookahead as messages show it. -/
def render (arena : Arena) : Lookahead → String
  | endOfInput => "end of input"
  | terminal i => arena.render i

/-- Whether a production with the given FIRST set applies, where its non-terminal has the given
FOLLOW set. -/
def admits {n : Nat} (first : FirstSet n) (follow : FollowSet n) : Lookahead → Bool
  | endOfInput => first.empty && follow.atEnd
  | terminal i =>
      first.terminals.contains i || first.empty && follow.terminals.contains i

end Lookahead

/-- The state of a cell. Productions are given by their numbers. -/
inductive Cell where
  | empty
  /-- Exactly one candidate. -/
  | only (production : Nat)
  /-- One candidate has the highest priority. -/
  | resolved (chosen : Nat) (rejected : List Nat)
  /-- Several candidates share the highest priority. -/
  | tied (productions : List Nat)
  deriving DecidableEq, Repr

namespace Cell

/-- The highest of some priorities. -/
def highest (priorities : List Int32) : Int32 :=
  priorities.foldl (fun a b => if a < b then b else a) Int32.minValue

/-- The cell with the given candidates, each with its priority, in the order of the productions. -/
def ofCandidates (candidates : List (Nat × Int32)) : Cell :=
  match candidates with
  | [] => empty
  | [c] => only c.1
  | cs =>
      -- Several candidates: only the highest priority counts.
      let top := highest (cs.map Prod.snd)
      match cs.filter (·.2 == top) with
      | [winner] => resolved winner.1 ((cs.filter (·.2 != top)).map Prod.fst)
      | winners => tied (winners.map Prod.fst)

/-- The production that the cell gives. -/
def production? : Cell → Option Nat
  | only p => some p
  | resolved p _ => some p
  | _ => none

end Cell

/-- A cell that priorities have decided. -/
structure Resolution where
  nonTerminal : Nat
  lookahead : Lookahead
  chosen : Nat
  rejected : List Nat
  deriving DecidableEq, Repr

/-- The cells by non-terminal, each row in the order of the lookaheads. -/
structure ParseTable where
  rows : List (List Cell)
  deriving DecidableEq, Repr

namespace ParseTable

/-- The production for a non-terminal and a lookahead. -/
def get? (t : ParseTable) (nt : Nat) (la : Lookahead) : Option Nat :=
  (t.rows[nt]?.bind (·[la.column]?)).bind Cell.production?

/-- All cells with their non-terminals and lookaheads, in order. -/
def cells (t : ParseTable) : List (Nat × Lookahead × Cell) :=
  t.rows.zipIdx.flatMap fun (row, nt) =>
    row.zipIdx.map fun (c, column) =>
      (nt, if column = 0 then .endOfInput else .terminal (column - 1), c)

/-- The cells that priorities have decided, in order. -/
def resolutions (t : ParseTable) : List Resolution :=
  t.cells.filterMap fun (nt, la, c) =>
    match c with
    | .resolved chosen rejected => some ⟨nt, la, chosen, rejected⟩
    | _ => none

/-- The first cell whose candidates share the highest priority. -/
def firstTie? (t : ParseTable) : Option (Nat × Lookahead × List Nat) :=
  t.cells.findSome? fun (nt, la, c) =>
    match c with
    | .tied productions => some (nt, la, productions)
    | _ => none

end ParseTable

namespace Grammar

/-- The productions of a non-terminal that apply, with their priorities. -/
def candidates (g : Grammar) (first : FirstTable g.arena.size) (follow : FollowTable g.arena.size)
    (nt : Nat) (la : Lookahead) : List (Nat × Int32) :=
  (g.productionsOf nt).zipIdx.filterMap fun (p, i) =>
    if la.admits (first.ofSymbols p.symbols) (follow.get nt) then some (i, p.prec.priority)
    else none

/-- All cells, decided or tied. -/
def allCells (g : Grammar) (first : FirstTable g.arena.size) (follow : FollowTable g.arena.size) :
    ParseTable :=
  ⟨(List.range g.size).map fun nt =>
    (Lookahead.all g.arena.size).map fun la => Cell.ofCandidates (g.candidates first follow nt la)⟩

/-- A production of a non-terminal as grammars show it. -/
def renderNumbered (g : Grammar) (nt p : Nat) : String :=
  ((g.production? nt p).map g.renderProduction).getD ""

/-- The parse table, or the first ambiguity. -/
def parseTable (g : Grammar) (first : FirstTable g.arena.size)
    (follow : FollowTable g.arena.size) : Except AssemblyError ParseTable :=
  let t := g.allCells first follow
  match t.firstTie? with
  | none => .ok t
  | some (nt, la, ps) =>
      .error (.ambiguous (g.nameOf nt) (la.render g.arena) (ps.map (g.renderNumbered nt)))

/-- A decided cell as tables show it. -/
def renderCell (g : Grammar) (nt : Nat) (la : Lookahead) (p : Nat) : String :=
  g.nameOf nt ++ ", " ++ la.render g.arena ++ " -> " ++ g.renderNumbered nt p

/-- A decision by priority as tables show it. -/
def renderResolution (g : Grammar) (r : Resolution) : String :=
  "resolved: " ++ g.nameOf r.nonTerminal ++ ", " ++ r.lookahead.render g.arena ++ ": chose " ++
    toString r.chosen ++ ", rejected" ++ String.join (r.rejected.map fun p => " " ++ toString p)

/-- The table: its filled cells, then the decisions by priority. -/
def renderTable (g : Grammar) (t : ParseTable) : String :=
  unlines
    (t.cells.filterMap (fun (nt, la, c) => c.production?.map (g.renderCell nt la)) ++
      t.resolutions.map g.renderResolution)

end Grammar

end SmallLang
