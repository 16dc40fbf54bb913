import SmallLang.Proofs.Operator.Limit
import SmallLang.Proofs.Operator.Stage

/-!
# Where the productions of a stratified grammar come from

Where a declared body asks for a symbol, the stratified grammar asks for this symbol, for a level of its
ladder or for the atoms of its ladder (`Grammar.ParsedFor`). Read in this way, its productions are
the declared ones. What can be parsed for a symbol has the symbols of a declared production, or climbs
from an operand of a ladder into a tail of the same ladder (`Staged.origin_of_parsedFor`). A tail ends at
once, or is a declared production without its first symbol, which is the non-terminal of the ladder, and
perhaps with a tail of the same ladder after its last (`Staged.origin_of_tailOf`).
-/

set_option autoImplicit false

namespace SmallLang

open List (Forall₂)

namespace Grammar

/-- The second symbol is parsed in the stratified grammar where a declared body has the first one. -/
inductive ParsedFor (g : Grammar) : Symbol → Symbol → Prop
  | self {s : Symbol} (hs : g.HasSymbol s) : ParsedFor g s s
  | head {x k : Nat} (hx : x < g.size) (hladder : g.HasLadder x) (hk : k < (g.ladder x).height) :
      ParsedFor g (.nonTerminal x) (.nonTerminal ((g.ladder x).head k))
  | atom {x : Nat} (hx : x < g.size) (hladder : g.HasLadder x) :
      ParsedFor g (.nonTerminal x) (.nonTerminal (g.ladder x).atom)

/-- The symbol goes on after an operand of the ladder of `x`: it is the tail of a level, or the tail that
begins with an operator which another type declares. -/
inductive TailOf (g : Grammar) (x : Nat) : Symbol → Prop
  | level {k : Nat} (hx : x < g.size) (hladder : g.HasLadder x) (hk : k < (g.ladder x).height) :
      TailOf g x (.nonTerminal ((g.ladder x).tail k))
  | forced {m i j : Nat} {op : OperatorUse} (hx : x < g.size) (hfinds : g.Finds x m i j op) :
      TailOf g x (.nonTerminal ((g.ladder x).forced j))

namespace TailOf

theorem hasLadder {g : Grammar} {x : Nat} {s : Symbol} (h : g.TailOf x s) :
    x < g.size ∧ g.HasLadder x := by
  cases h with
  | level hx hladder hk => exact ⟨hx, hladder⟩
  | forced hx hfinds => exact ⟨hx, List.ne_nil_of_mem hfinds.mem_usesAt⟩

end TailOf

namespace ParsedFor

theorem hasSymbol {g : Grammar} {s s' : Symbol} (h : g.ParsedFor s s') : g.HasSymbol s := by
  cases h <;> assumption

variable {g : Grammar} {x : Nat} (hx : x < g.size) (hladder : g.HasLadder x)
include hx hladder

theorem operand (k : Nat) :
    g.ParsedFor (.nonTerminal x) (.nonTerminal ((g.ladder x).operand k)) := by
  rcases (g.ladder x).operand_eq k with ⟨hk, heq⟩ | ⟨-, heq⟩
  · rw [heq]
    exact .head hx hladder hk
  · rw [heq]
    exact .atom hx hladder

theorem limitedSymbol (prec : Prec) {s : Symbol} (hs : g.HasSymbol s) :
    g.ParsedFor s ((g.ladder x).limitedSymbol prec s) := by
  rw [Ladder.limitedSymbol]
  split
  · rename_i hbase
    rw [hbase, ladder_base]
    rcases prefixOperand_cases (g.stage x) x prec with ⟨k, hk, heq⟩ | heq
    · rw [ladder, heq]
      exact .head hx hladder hk
    · rw [ladder, heq]
      exact .atom hx hladder
  · exact .self hs

omit hx hladder in
theorem row {ss : List Symbol} (hss : ∀ s ∈ ss, g.HasSymbol s) : Forall₂ g.ParsedFor ss ss :=
  List.forall₂_same.2 fun s hs => .self (hss s hs)

/-- Limiting the end of a row keeps what its symbols are parsed for. -/
theorem limited (prec : Prec) {ss : List Symbol} (hss : ∀ s ∈ ss, g.HasSymbol s) :
    Forall₂ g.ParsedFor ss ((g.ladder x).limited prec ss) := by
  rcases List.eq_nil_or_concat' ss with rfl | ⟨init, last, rfl⟩
  · exact .nil
  · rw [Ladder.limited_concat]
    refine List.rel_append (row fun s hs => hss s (List.mem_append_left _ hs)) (.cons ?_ .nil)
    exact limitedSymbol hx hladder prec (hss last (by simp))

theorem atomProduction {q : Production} (hq : ∀ s ∈ q.symbols, g.HasSymbol s) :
    Forall₂ g.ParsedFor q.symbols ((g.ladder x).atomProduction q).symbols := by
  rw [Ladder.atomProduction_symbols]
  split
  · exact limited hx hladder q.prec hq
  · exact row hq

end ParsedFor

/-- The production builds what a declared one builds, from children that are parsed for its symbols. -/
def FromDeclared (g : Grammar) (p : Production) : Prop :=
  ∃ m, ∃ q ∈ g.productionsOf m, p.construction = q.construction ∧
    Forall₂ g.ParsedFor q.symbols p.symbols

/-- The production is an operand of a ladder and then a tail of the same ladder. -/
def ClimbsLadder (g : Grammar) (p : Production) : Prop :=
  ∃ x operand next, p.symbols = [operand, next] ∧ p.construction = .climb ∧
    g.ParsedFor (.nonTerminal x) operand ∧ g.TailOf x next

/-- The production is a declared one without its first symbol, the non-terminal of a ladder. Where the
tail goes on, a tail of the ladder comes last. -/
def OperatesOn (g : Grammar) (x : Nat) (p : Production) : Prop :=
  ∃ m, ∃ q ∈ g.productionsOf m, ∃ rest symbols, q.symbols = .nonTerminal x :: rest ∧
    Forall₂ g.ParsedFor rest symbols ∧
    (p.symbols = symbols ∧ p.construction = .operator q.construction false ∨
      ∃ next, g.TailOf x next ∧ p.symbols = symbols ++ [next] ∧
        p.construction = .operator q.construction true)

namespace Staged

variable {types : Nat} {g : Grammar} (h : g.Staged types g.size)
include h

theorem lt_types_of_hasLadder {x : Nat} (hx : x < g.size) (hladder : g.HasLadder x) : x < types :=
  (h.stage (Nat.le_of_lt hx)).lt_types_of_operatorsOn_ne_nil hx hladder

/-! ## Tails -/

theorem operatesOn_tailProduction {x : Nat} (hx : x < g.size) {op : OperatorUse}
    (hop : op ∈ g.usesAt x) : g.OperatesOn x ((g.ladder x).tailProduction op) := by
  have hladder : g.HasLadder x := List.ne_nil_of_mem hop
  have hlevel : op.prec.priority ∈ (g.ladder x).levels := mem_levels_ladder_iff.2 ⟨op, hop, rfl⟩
  obtain ⟨m, i, q, -, -, hq, hisop, huse⟩ := (h.mem_usesAt_iff hx).1 hop
  have hmem := mem_productionsOf_iff.2 ⟨i, hq⟩
  obtain ⟨s, rest, hsymbols⟩ := Production.isOperatorOn_iff.1 hisop
  have hrest : op.rest = s :: rest := by rw [huse, operatorUse, hsymbols, List.tail_cons]
  have hhas : ∀ y ∈ op.rest, g.HasSymbol y := by
    rw [hrest]
    exact fun y hy => h.hasSymbol m q hmem y (hsymbols ▸ List.mem_cons_of_mem _ hy)
  have hconstruction : op.construction = q.construction := by rw [huse, operatorUse]
  refine ⟨m, q, hmem, op.rest, _, by rw [hsymbols, hrest],
    ParsedFor.limited hx hladder op.prec hhas, ?_⟩
  rw [Ladder.tailProduction_symbols, (sorted_ladder g x).operatorSymbols_eq hlevel]
  have hbuilds : ((g.ladder x).tailProduction op).construction =
      .operator q.construction ((g.ladder x).loops op) := by
    rw [← hconstruction]
    rfl
  rw [hbuilds]
  cases (g.ladder x).loops op with
  | false => exact Or.inl ⟨List.append_nil _, rfl⟩
  | true =>
      exact Or.inr ⟨_, .level hx hladder (Ladder.levelOf_lt hlevel), rfl, rfl⟩

/-- What goes on after an operand of a ladder is an operator on the ladder, or the end. -/
theorem origin_of_tailOf {x nt : Nat} (hnt : g.TailOf x (.nonTerminal nt)) {p : Production}
    (hp : p ∈ g.stratify.productionsOf nt) : p = Ladder.endProduction ∨ g.OperatesOn x p := by
  cases hnt with
  | @level k hx hladder hk =>
      rw [h.productionsOf_tail_stratify hladder hx (List.getElem?_eq_getElem hk)] at hp
      rcases List.mem_append.1 hp with hp | hp
      · obtain ⟨op, hop, rfl⟩ := List.mem_map.1 hp
        exact Or.inr (h.operatesOn_tailProduction hx (List.mem_filter.1 hop).1)
      · exact Or.inl (List.mem_singleton.1 hp)
  | forced hx hfinds =>
      rw [h.productionsOf_forced_stratify hx hfinds] at hp
      rw [List.mem_singleton.1 hp]
      exact Or.inr (h.operatesOn_tailProduction hx hfinds.mem_usesAt)

/-! ## What is parsed for a symbol -/

omit h in
theorem climbsLadder_climbProduction {x k : Nat} (hx : x < g.size) (hladder : g.HasLadder x)
    {next : Nat} (hnext : g.TailOf x (.nonTerminal next)) :
    g.ClimbsLadder ((g.ladder x).climbProduction k next) :=
  ⟨x, _, _, rfl, rfl, .operand hx hladder k, hnext⟩

omit h in
theorem climbsLadder_forcedProduction {x m i j : Nat} {op : OperatorUse} (hx : x < g.size)
    (hfinds : g.Finds x m i j op) : g.ClimbsLadder (g.forcedProduction x j op) :=
  climbsLadder_climbProduction hx (List.ne_nil_of_mem hfinds.mem_usesAt) (.forced hx hfinds)

omit h in
theorem climbsLadder_level {x k : Nat} (hx : x < g.size) (hladder : g.HasLadder x)
    (hk : k < (g.ladder x).height) :
    g.ClimbsLadder ((g.ladder x).climbProduction k ((g.ladder x).tail k)) :=
  climbsLadder_climbProduction hx hladder (.level hx hladder hk)

/-- The atoms of a ladder are declared productions, or climb other ladders. -/
theorem origin_of_atom {x : Nat} (hx : x < g.size) (hladder : g.HasLadder x) {p : Production}
    (hp : p ∈ g.stratify.productionsOf (g.ladder x).atom) : g.FromDeclared p ∨ g.ClimbsLadder p := by
  rw [h.productionsOf_atom_stratify hladder hx] at hp
  obtain ⟨a, ha, rfl⟩ := List.mem_map.1 hp
  rcases (h.mem_atomsAt_iff hx).1 ha with
    ⟨m, -, hmladder, hmx, rfl⟩ | ⟨m, -, -, i, q, hq, -, -, rfl⟩
  · have hms : m < g.size := Nat.lt_trans hmx hx
    have htail : g.size ≤ (g.ladder m).tail 0 :=
      Nat.le_trans (h.size_le_stage (Nat.le_of_lt hms))
        (tail_bounds (g := g.stage m) hmladder hmladder.height_pos).1
    rw [atomProduction_climb hx htail]
    exact Or.inr (climbsLadder_level hms hmladder hmladder.height_pos)
  · rcases g.arranged_cases x m i q with ⟨heq, -⟩ | ⟨y, hyx, j, op, hfinds, heq⟩
    · have hmem := mem_productionsOf_iff.2 ⟨i, hq⟩
      rw [heq]
      exact Or.inl ⟨m, q, hmem, Ladder.atomProduction_construction ..,
        ParsedFor.atomProduction hx hladder
        fun s hs => h.hasSymbol m q hmem s hs⟩
    · have hys : y < g.size := Nat.lt_trans hyx hx
      rw [heq, h.atomProduction_forcedProduction hx hys hfinds]
      exact Or.inr (climbsLadder_forcedProduction hys hfinds)

/-- A declared non-terminal keeps its productions, or climbs. -/
theorem origin_of_lt {nt : Nat} (hnt : nt < g.size) {p : Production}
    (hp : p ∈ g.stratify.productionsOf nt) : g.FromDeclared p ∨ g.ClimbsLadder p := by
  by_cases hladder : g.HasLadder nt
  · have hhead := h.productionsOf_head_stratify hladder hnt hladder.height_pos
    rw [Ladder.head_zero, ladder_base] at hhead
    rw [hhead] at hp
    rw [List.mem_singleton.1 hp]
    exact Or.inr (climbsLadder_level hnt hladder hladder.height_pos)
  · obtain ⟨i, hi⟩ := mem_productionsOf_iff.1 hp
    rw [h.production?_stratify hnt hladder] at hi
    obtain ⟨q, hq, rfl⟩ := Option.map_eq_some_iff.1 hi
    rcases g.arranged_cases g.size nt i q with ⟨heq, -⟩ | ⟨x, hx, j, op, hfinds, heq⟩
    · have hmem := mem_productionsOf_iff.2 ⟨i, hq⟩
      rw [heq]
      exact Or.inl ⟨nt, q, hmem, rfl, ParsedFor.row fun s hs => h.hasSymbol nt q hmem s hs⟩
    · rw [heq]
      exact Or.inr (climbsLadder_forcedProduction hx hfinds)

/-- What is parsed for a declared symbol comes from a declared production, or climbs a ladder. -/
theorem origin_of_parsedFor {s : Symbol} {nt : Nat} (hnt : g.ParsedFor s (.nonTerminal nt))
    {p : Production} (hp : p ∈ g.stratify.productionsOf nt) :
    g.FromDeclared p ∨ g.ClimbsLadder p := by
  cases hnt with
  | self hs => exact h.origin_of_lt hs hp
  | head hx hladder hk =>
      rw [h.productionsOf_head_stratify hladder hx hk] at hp
      rw [List.mem_singleton.1 hp]
      exact Or.inr (climbsLadder_level hx hladder hk)
  | atom hx hladder => exact h.origin_of_atom hx hladder hp

/-- The rest of a list is parsed as it is. -/
theorem eq_of_parsedFor_rest {n : Nat} (hn : types ≤ n) {s : Symbol}
    (hs : g.ParsedFor (.nonTerminal n) s) : s = .nonTerminal n := by
  cases hs with
  | self hs => rfl
  | head hx hladder _ | atom hx hladder =>
      exact absurd (h.lt_types_of_hasLadder hx hladder) (Nat.not_lt.2 hn)

end Staged

end Grammar

end SmallLang
