import SmallLang.Lookahead.First
import SmallLang.Reach

/-!
# FOLLOW sets

The FOLLOW set of a non-terminal holds the terminals that can come right after it in a form derived
from the start, and tells whether it can stand at the end of one. Only productions that can be
reached from the start count. The table is the least one in which the end follows the start, the
rest of a production follows each of its non-terminals, and what follows a non-terminal follows the
last one of its productions (`Grammar.followStep_followTable`).
-/

set_option autoImplicit false

namespace SmallLang

/-- The terminals that can come next, and whether the input can end. -/
structure FollowSet (terminals : Nat) where
  atEnd : Bool
  terminals : IndexSet terminals
  deriving DecidableEq

namespace FollowSet

variable {n : Nat}

/-- Nothing can follow. -/
def none : FollowSet n := ⟨false, IndexSet.empty⟩

/-- What is in one of two sets. -/
def union (a b : FollowSet n) : FollowSet n :=
  ⟨a.atEnd || b.atEnd, a.terminals.union b.terminals⟩

/-- The room for further elements. -/
def room (a : FollowSet n) : Nat := (if a.atEnd then 0 else 1) + a.terminals.room

theorem room_union_lt {a b : FollowSet n} (h : a.union b ≠ a) : (a.union b).room < a.room := by
  obtain ⟨ea, ta⟩ := a
  obtain ⟨eb, tb⟩ := b
  simp only [union, room] at h ⊢
  by_cases ht : ta.union tb = ta
  · rw [ht] at h ⊢
    cases ea <;> cases eb <;> simp_all
  · have := IndexSet.room_union_lt ht
    cases ea <;> cases eb <;> simp <;> omega

/-- The set as grammars show it: the terminals in their order, then a sign for the end. -/
def render (a : FollowSet n) (arena : Arena) : String :=
  "\x7b" ++
    ", ".intercalate (a.terminals.toList.map arena.render ++ if a.atEnd then ["$"] else []) ++
    "\x7d"

end FollowSet

/-- The FOLLOW sets of the non-terminals, by number. -/
abbrev FollowTable (terminals : Nat) := List (FollowSet terminals)

/-- The FOLLOW set of a non-terminal. -/
def FollowTable.get {n : Nat} (t : FollowTable n) (nt : Nat) : FollowSet n := t[nt]?.getD .none

/-- A non-terminal inside a production of `head`, with the FIRST set of what comes after it. -/
structure Occurrence (terminals : Nat) where
  target : Nat
  head : Nat
  rest : FirstSet terminals

/-- What an occurrence says about its target, given what follows its head. -/
def Occurrence.follow {n : Nat} (o : Occurrence n) (t : FollowTable n) : FollowSet n :=
  let rest : FollowSet n := ⟨false, o.rest.terminals⟩
  if o.rest.empty then rest.union (t.get o.head) else rest

namespace Grammar

/-- The non-terminals in the productions of a non-terminal. -/
def mentioned (g : Grammar) (nt : Nat) : List Nat :=
  (g.productionsOf nt).flatMap fun p =>
    p.symbols.filterMap fun s =>
      match s with
      | .nonTerminal i => some i
      | .terminal _ => none

/-- The non-terminals that can be reached from the start. -/
def reachable (g : Grammar) : List Nat :=
  if g.start < g.size then Reach.reachable g.size g.mentioned g.start else []

/-- The non-terminals in a row of symbols, which belongs to a production of `head`. -/
def occurrencesIn {n : Nat} (first : FirstTable n) (head : Nat) : List Symbol → List (Occurrence n)
  | [] => []
  | .nonTerminal i :: rest => ⟨i, head, first.ofSymbols rest⟩ :: occurrencesIn first head rest
  | .terminal _ :: rest => occurrencesIn first head rest

/-- The non-terminals in all productions that can be reached from the start. -/
def occurrences (g : Grammar) (first : FirstTable g.arena.size) :
    List (Occurrence g.arena.size) :=
  g.reachable.flatMap fun head =>
    (g.productionsOf head).flatMap fun p => occurrencesIn first head p.symbols

/-- Adds to every set what the occurrences of its non-terminal say. -/
def followStep {n : Nat} (os : List (Occurrence n)) (t : FollowTable n) : FollowTable n :=
  growAll
    (fun nt a =>
      a.union ((os.filter (·.target == nt)).foldl (fun b o => b.union (o.follow t)) .none))
    t

theorem room_followStep_lt {n : Nat} (os : List (Occurrence n)) (t : FollowTable n)
    (h : followStep os t ≠ t) :
    totalRoom FollowSet.room (followStep os t) < totalRoom FollowSet.room t :=
  totalRoom_growAll_lt (fun _ _ => FollowSet.room_union_lt) h

/-- The table that says only that the end follows the start. -/
def followStart (g : Grammar) : FollowTable g.arena.size :=
  (List.range g.size).map fun nt => ⟨nt == g.start, IndexSet.empty⟩

/-- The FOLLOW sets of all non-terminals. -/
def followTable (g : Grammar) (first : FirstTable g.arena.size) : FollowTable g.arena.size :=
  saturate (followStep (g.occurrences first)) (totalRoom FollowSet.room)
    (room_followStep_lt (g.occurrences first)) g.followStart

/-- Every set of the table includes what the occurrences of its non-terminal say. -/
theorem followStep_followTable (g : Grammar) (first : FirstTable g.arena.size) :
    followStep (g.occurrences first) (g.followTable first) = g.followTable first :=
  saturate_fixed _

end Grammar

end SmallLang
