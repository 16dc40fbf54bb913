import SmallLang.Proofs.Extension.Grammar
import SmallLang.Proofs.Operator.Limit

/-!
# Operands of an old and a new ladder

A ladder that has grown has all levels that it had, and perhaps levels between them, so an operand that
was limited by a precedence is limited at an earlier level now, or at the same one
(`Extension.exists_level_of_prefixOperand`). `Extension.Maps` lists what stands in the new ladders for a
symbol of the old ones; the rows of operators and of atoms map place by place.
-/

set_option autoImplicit false

namespace SmallLang

open List (Forall₂)

namespace Grammar

namespace Extension

variable {n n' : Nat} {g g' : Grammar}

/-- What stands for a symbol of the old stratified grammar in the new one: an old symbol under its new
number; for a limited operand the operand with the same limit, or the whole ladder; and a limited
operand for a non-terminal that was no ladder before. -/
inductive Maps (n n' : Nat) (g g' : Grammar) : Symbol → Symbol → Prop
  | old {s : Symbol} (hs : g.HasSymbol s) : Maps n n' g g' s (s.renumber n n')
  | operand {x : Nat} (hx : x < n) (hladder : g.HasLadder x) (prec : Prec) :
      Maps n n' g g' (.nonTerminal ((g.ladder x).prefixOperand prec))
        (.nonTerminal ((g'.ladder x).prefixOperand prec))
  | whole {x : Nat} (hx : x < n) (hladder : g.HasLadder x) (prec : Prec) :
      Maps n n' g g' (.nonTerminal ((g.ladder x).prefixOperand prec)) (.nonTerminal x)
  | limited {x : Nat} (hx : x < n) (hno : ¬ g.HasLadder x) (hladder : g'.HasLadder x)
      (prec : Prec) :
      Maps n n' g g' (.nonTerminal x) (.nonTerminal ((g'.ladder x).prefixOperand prec))

variable (h : Extension n n' g g')
include h

/-! ## Levels -/

theorem exists_level {x k : Nat} {p : Int32} (hx : x < n)
    (hp : (g.ladder x).levels[k]? = some p) :
    (g'.ladder x).levels[(g'.ladder x).levelOf p]? = some p :=
  Ladder.getElem?_levelOf (h.mem_levels hx (List.mem_of_getElem? hp))

/-- Where an operand was a level, it is a level of the same or a lower priority now. -/
theorem exists_level_of_prefixOperand {x k : Nat} {p : Int32} (hx : x < n) {prec : Prec}
    (hp : (g.ladder x).levels[k]? = some p) (hadmits : prec.Admits p) :
    ∃ j q, (g'.ladder x).levels[j]? = some q ∧ q ≤ p ∧
      (g'.ladder x).prefixOperand prec = (g'.ladder x).head j := by
  have hnew := h.exists_level hx hp
  rcases (g'.ladder x).prefixOperand_spec prec with ⟨j, q, hq, -, hfirst, heq⟩ | ⟨hnone, -⟩
  · have hle : j ≤ (g'.ladder x).levelOf p := by
      by_contra hlt
      exact hfirst _ (Nat.lt_of_not_le hlt) p hnew hadmits
    exact ⟨j, q, hq, (sorted_ladder g' x).le_of_getElem? hq hnew hle, heq⟩
  · exact absurd hadmits (hnone p (List.mem_of_getElem? hnew))

/-- The loosest level of the new ladder is as loose as any of the old one. -/
theorem exists_level_zero {x k : Nat} {p : Int32} (hx : x < n)
    (hp : (g.ladder x).levels[k]? = some p) :
    ∃ q, (g'.ladder x).levels[0]? = some q ∧ q ≤ p := by
  have hnew := h.exists_level hx hp
  obtain ⟨hlt, -⟩ := List.getElem?_eq_some_iff.1 hnew
  have hzero : (g'.ladder x).levels[0]? = some ((g'.ladder x).levels[0]) :=
    List.getElem?_eq_getElem (Nat.lt_of_le_of_lt (Nat.zero_le _) hlt)
  exact ⟨_, hzero, (sorted_ladder g' x).le_of_getElem? hzero hnew (Nat.zero_le _)⟩

/-! ## Operators -/

theorem isInfix_renumber {x : Nat} (hx : x < n) (op : OperatorUse) :
    (g'.ladder x).isInfix (op.renumber n n') = (g.ladder x).isInfix op := by
  rw [Bool.eq_iff_iff, Ladder.isInfix, Ladder.isInfix, beq_iff_eq, beq_iff_eq]
  simp only [OperatorUse.renumber, ladder_base]
  rcases List.eq_nil_or_concat' op.rest with hnil | ⟨init, last, hconcat⟩
  · simp [hnil]
  · rw [hconcat, List.map_append, List.map_singleton, List.getLast?_concat, List.getLast?_concat,
      Option.some.injEq, Option.some.injEq]
    exact Symbol.renumber_eq_iff h.grows.le hx

theorem loops_renumber {x : Nat} (hx : x < n) (op : OperatorUse) :
    (g'.ladder x).loops (op.renumber n n') = (g.ladder x).loops op := by
  simp only [Ladder.loops, h.isInfix_renumber hx]
  rfl

omit h in
theorem operatorSymbols_ladder {x : Nat} {op : OperatorUse} (hop : op ∈ g.usesAt x) :
    (g.ladder x).operatorSymbols op = (g.ladder x).limited op.prec op.rest :=
  (sorted_ladder g x).operatorSymbols_eq (mem_levels_ladder_iff.2 ⟨op, hop, rfl⟩)

/-! ## Rows -/

omit h in
theorem maps_old {ss : List Symbol} (hss : ∀ s ∈ ss, g.HasSymbol s) :
    Forall₂ (Maps n n' g g') ss (ss.map (Symbol.renumber n n')) := by
  rw [List.forall₂_map_right_iff, List.forall₂_same]
  intro s hs
  exact .old (hss s hs)

omit h in
/-- Rows map place by place if their ends do. -/
theorem maps_concat {init : List Symbol} (hinit : ∀ s ∈ init, g.HasSymbol s) {last last' : Symbol}
    (hlast : Maps n n' g g' last last') :
    Forall₂ (Maps n n' g g') (init ++ [last]) (init.map (Symbol.renumber n n') ++ [last']) :=
  List.rel_append (maps_old hinit) (.cons hlast .nil)

theorem maps_limitedSymbol {x z : Nat} (hx : x < n) (hz : z < n) (hladder : g'.HasLadder x)
    (hzladder : g.HasLadder z) (hzx : z = x ∨ ¬ g.HasLadder x) (prec : Prec) {s : Symbol}
    (hs : g.HasSymbol s) :
    Maps n n' g g' ((g.ladder z).limitedSymbol prec s)
      ((g'.ladder x).limitedSymbol prec (s.renumber n n')) := by
  rw [Ladder.limitedSymbol, Ladder.limitedSymbol, ladder_base, ladder_base]
  simp only [Symbol.renumber_eq_iff h.grows.le hx]
  by_cases hsz : s = .nonTerminal z
  · rw [if_pos hsz]
    by_cases hsx : s = .nonTerminal x
    · rw [if_pos hsx]
      rw [hsz] at hsx
      obtain rfl := Symbol.nonTerminal.inj hsx
      exact .operand hx hzladder prec
    · rw [if_neg hsx, hsz, Symbol.renumber, renumber_of_lt hz]
      exact .whole hz hzladder prec
  · rw [if_neg hsz]
    by_cases hsx : s = .nonTerminal x
    · rw [if_pos hsx, hsx]
      have hno : ¬ g.HasLadder x := by
        rcases hzx with rfl | hno
        · exact absurd hsx hsz
        · exact hno
      exact .limited hx hno hladder prec
    · rw [if_neg hsx]
      exact .old hs

theorem maps_limitedSymbol_right {x : Nat} (hx : x < n) (hladder : g'.HasLadder x)
    (hno : ¬ g.HasLadder x) (prec : Prec) {s : Symbol} (hs : g.HasSymbol s) :
    Maps n n' g g' s ((g'.ladder x).limitedSymbol prec (s.renumber n n')) := by
  rw [Ladder.limitedSymbol, ladder_base]
  simp only [Symbol.renumber_eq_iff h.grows.le hx]
  by_cases hsx : s = .nonTerminal x
  · rw [if_pos hsx, hsx]
    exact .limited hx hno hladder prec
  · rw [if_neg hsx]
    exact .old hs

/-- A limited row maps to one limited by a ladder that was none before, or by the same ladder. -/
theorem maps_limited {x z : Nat} (hx : x < n) (hz : z < n) (hladder : g'.HasLadder x)
    (hzladder : g.HasLadder z) (hzx : z = x ∨ ¬ g.HasLadder x) (prec : Prec) {ss : List Symbol}
    (hss : ∀ s ∈ ss, g.HasSymbol s) :
    Forall₂ (Maps n n' g g') ((g.ladder z).limited prec ss)
      ((g'.ladder x).limited prec (ss.map (Symbol.renumber n n'))) := by
  rcases List.eq_nil_or_concat' ss with rfl | ⟨init, last, rfl⟩
  · exact .nil
  · rw [List.map_append, List.map_singleton, Ladder.limited_concat, Ladder.limited_concat]
    apply maps_concat
    · intro s hs
      exact hss s (List.mem_append_left _ hs)
    · exact h.maps_limitedSymbol hx hz hladder hzladder hzx prec (hss last (by simp))

/-- A declared row maps to one limited by a ladder that was none before. -/
theorem maps_limited_right {x : Nat} (hx : x < n) (hladder : g'.HasLadder x)
    (hno : ¬ g.HasLadder x) (prec : Prec) {ss : List Symbol} (hss : ∀ s ∈ ss, g.HasSymbol s) :
    Forall₂ (Maps n n' g g') ss ((g'.ladder x).limited prec (ss.map (Symbol.renumber n n'))) := by
  rcases List.eq_nil_or_concat' ss with rfl | ⟨init, last, rfl⟩
  · exact .nil
  · rw [List.map_append, List.map_singleton, Ladder.limited_concat]
    apply maps_concat
    · intro s hs
      exact hss s (List.mem_append_left _ hs)
    · exact h.maps_limitedSymbol_right hx hladder hno prec (hss last (by simp))

/-- The row of an atom maps to that of the atom in a ladder that was none before, or in the same
ladder. -/
theorem maps_atomProduction {x z : Nat} (hx : x < n) (hz : z < n) (hladder : g'.HasLadder x)
    (hzladder : g.HasLadder z) (hzx : z = x ∨ ¬ g.HasLadder x) {q : Production}
    (hq : ∀ s ∈ q.symbols, g.HasSymbol s) :
    Forall₂ (Maps n n' g g') ((g.ladder z).atomProduction q).symbols
      ((g'.ladder x).atomProduction (q.renumber n n')).symbols := by
  rw [Ladder.atomProduction_symbols, Ladder.atomProduction_symbols]
  simp only [Production.renumber, List.length_map]
  split
  · exact h.maps_limited hx hz hladder hzladder hzx q.prec hq
  · exact maps_old hq

theorem maps_atomProduction_right {x : Nat} (hx : x < n) (hladder : g'.HasLadder x)
    (hno : ¬ g.HasLadder x) {q : Production} (hq : ∀ s ∈ q.symbols, g.HasSymbol s) :
    Forall₂ (Maps n n' g g') q.symbols
      ((g'.ladder x).atomProduction (q.renumber n n')).symbols := by
  rw [Ladder.atomProduction_symbols]
  simp only [Production.renumber, List.length_map]
  split
  · exact h.maps_limited_right hx hladder hno q.prec hq
  · exact maps_old hq

end Extension

end Grammar

end SmallLang
