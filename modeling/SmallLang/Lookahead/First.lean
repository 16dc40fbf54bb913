import SmallLang.Grammar.Render
import SmallLang.Lookahead.IndexSet
import SmallLang.Lookahead.Saturation

/-!
# FIRST sets

The FIRST set of a symbol holds the terminals that a text derived from the symbol can begin with,
and tells whether the empty text can be derived. The table of all non-terminals is the least one in
which the set of a non-terminal includes the sets of its productions
(`Grammar.firstStep_firstTable`).
-/

set_option autoImplicit false

namespace SmallLang

/-- The terminals that can come first, and whether nothing at all can be derived. -/
structure FirstSet (terminals : Nat) where
  empty : Bool
  terminals : IndexSet terminals
  deriving DecidableEq

namespace FirstSet

variable {n : Nat}

/-- Neither a terminal nor the empty text. -/
def none : FirstSet n := ⟨false, IndexSet.empty⟩

/-- Only the empty text. -/
def onlyEmpty : FirstSet n := ⟨true, IndexSet.empty⟩

/-- Only one terminal. -/
def single (t : Nat) : FirstSet n := ⟨false, IndexSet.empty.insert t⟩

/-- What is in one of two sets. -/
def union (a b : FirstSet n) : FirstSet n :=
  ⟨a.empty || b.empty, a.terminals.union b.terminals⟩

/-- The set of one part followed by another: the second part counts if the first can be empty. -/
def followedBy (a b : FirstSet n) : FirstSet n :=
  if a.empty then ⟨b.empty, a.terminals.union b.terminals⟩ else a

/-- The room for further elements. -/
def room (a : FirstSet n) : Nat := (if a.empty then 0 else 1) + a.terminals.room

theorem room_union_lt {a b : FirstSet n} (h : a.union b ≠ a) : (a.union b).room < a.room := by
  obtain ⟨ea, ta⟩ := a
  obtain ⟨eb, tb⟩ := b
  simp only [union, room] at h ⊢
  by_cases ht : ta.union tb = ta
  · rw [ht] at h ⊢
    cases ea <;> cases eb <;> simp_all
  · have := IndexSet.room_union_lt ht
    cases ea <;> cases eb <;> simp <;> omega

/-- The set as grammars show it, in the order of the terminals. -/
def render (a : FirstSet n) (arena : Arena) : String :=
  "\x7b" ++ ", ".intercalate (a.terminals.toList.map arena.render) ++ "\x7d" ++
    if a.empty then " (+ empty)" else ""

end FirstSet

/-- The FIRST sets of the non-terminals, by number. -/
abbrev FirstTable (terminals : Nat) := List (FirstSet terminals)

namespace FirstTable

variable {n : Nat}

/-- The FIRST set of a non-terminal. -/
def get (t : FirstTable n) (nt : Nat) : FirstSet n := t[nt]?.getD .none

/-- The FIRST set of a symbol. -/
def ofSymbol (t : FirstTable n) : Symbol → FirstSet n
  | .nonTerminal nt => t.get nt
  | .terminal i => .single i

/-- The FIRST set of a row of symbols. An empty row derives the empty text only. -/
def ofSymbols (t : FirstTable n) : List Symbol → FirstSet n
  | [] => .onlyEmpty
  | s :: rest => (t.ofSymbol s).followedBy (t.ofSymbols rest)

/-- Whether the non-terminal derives the empty text. -/
def nullable (t : FirstTable n) (nt : Nat) : Bool := (t.get nt).empty

end FirstTable

namespace Grammar

/-- The FIRST set of all productions of a non-terminal, by the table. -/
def firstOfProductions (g : Grammar) (t : FirstTable g.arena.size) (nt : Nat) :
    FirstSet g.arena.size :=
  (g.productionsOf nt).foldl (fun a p => a.union (t.ofSymbols p.symbols)) .none

/-- Adds to every set what its productions have by the table. -/
def firstStep (g : Grammar) (t : FirstTable g.arena.size) : FirstTable g.arena.size :=
  growAll (fun nt a => a.union (g.firstOfProductions t nt)) t

theorem room_firstStep_lt (g : Grammar) (t : FirstTable g.arena.size) (h : g.firstStep t ≠ t) :
    totalRoom FirstSet.room (g.firstStep t) < totalRoom FirstSet.room t :=
  totalRoom_growAll_lt (fun _ _ => FirstSet.room_union_lt) h

/-- The FIRST sets of all non-terminals. -/
def firstTable (g : Grammar) : FirstTable g.arena.size :=
  saturate g.firstStep (totalRoom FirstSet.room) g.room_firstStep_lt
    (List.replicate g.size .none)

/-- Every set of the table includes the sets of its productions. -/
theorem firstStep_firstTable (g : Grammar) : g.firstStep g.firstTable = g.firstTable :=
  saturate_fixed _

end Grammar

end SmallLang
