import SmallLang.Proofs.Operator.Ladder

/-!
# Limited operands

An operand at the end of an operator or an atom is limited: it is the loosest level whose priority the
precedence there lets through, or the atoms if it lets none through (`Ladder.prefixOperand_spec`). Also
the operand of a level and the right operand of an operator are limited in this way
(`Ladder.Sorted.operand_eq_prefixOperand`, `Ladder.Sorted.rightOperand_eq_prefixOperand`), and so the
symbols of operators and of atoms are declared ones with a limited end (`Ladder.limited`).
-/

set_option autoImplicit false

namespace SmallLang

/-- Whether an operand after a production of this precedence may have operators of the priority: they
bind tighter, or as tight and the production groups to the right. -/
def Prec.Admits (prec : Prec) (p : Int32) : Prop :=
  if prec.assoc = .right then prec.priority ≤ p else prec.priority < p

instance (prec : Prec) (p : Int32) : Decidable (prec.Admits p) :=
  inferInstanceAs (Decidable (if prec.assoc = .right then prec.priority ≤ p else prec.priority < p))

theorem Prec.Admits.of_le {prec : Prec} {p q : Int32} (h : prec.Admits p) (hpq : p ≤ q) :
    prec.Admits q := by
  rw [Admits] at h ⊢
  split at h
  · rw [if_pos ‹_›]
    exact Int32.le_trans h hpq
  · rw [if_neg ‹_›]
    exact Int32.lt_of_lt_of_le h hpq

namespace Ladder

variable {l : Ladder}

/-! ## The operand that a precedence lets through -/

theorem prefixOperand_eq (l : Ladder) (prec : Prec) :
    l.prefixOperand prec =
      ((l.levels.findIdx? fun p => decide (prec.Admits p)).map l.head).getD l.atom := by
  have hadmits : (fun p => decide (prec.Admits p)) =
      fun p => if prec.assoc = .right then decide (prec.priority ≤ p)
        else decide (prec.priority < p) := by
    funext p
    simp only [Prec.Admits]
    split <;> rfl
  rw [hadmits]
  rfl

/-- The operand is the first level that the precedence lets through. -/
theorem prefixOperand_of_first {prec : Prec} {k : Nat} {p : Int32} (hp : l.levels[k]? = some p)
    (hadmits : prec.Admits p) (hfirst : ∀ j < k, ∀ q, l.levels[j]? = some q → ¬ prec.Admits q) :
    l.prefixOperand prec = l.head k := by
  obtain ⟨hk, hget⟩ := List.getElem?_eq_some_iff.1 hp
  have hfind : l.levels.findIdx? (fun p => decide (prec.Admits p)) = some k := by
    refine List.findIdx?_eq_some_iff_getElem.2 ⟨hk, ?_, ?_⟩
    · rw [hget]
      exact decide_eq_true hadmits
    · intro j hj
      have hnot := hfirst j hj _ (List.getElem?_eq_getElem (Nat.lt_trans hj hk))
      simpa using hnot
  rw [prefixOperand_eq, hfind]
  rfl

theorem prefixOperand_of_none {prec : Prec} (h : ∀ p ∈ l.levels, ¬ prec.Admits p) :
    l.prefixOperand prec = l.atom := by
  have hfind : l.levels.findIdx? (fun p => decide (prec.Admits p)) = none := by
    refine List.findIdx?_eq_none_iff.2 ?_
    intro p hp
    exact decide_eq_false (h p hp)
  rw [prefixOperand_eq, hfind]
  rfl

/-- The operand is the first level that the precedence lets through, or the atoms if there is no such
level. -/
theorem prefixOperand_spec (l : Ladder) (prec : Prec) :
    (∃ k p, l.levels[k]? = some p ∧ prec.Admits p ∧
        (∀ j < k, ∀ q, l.levels[j]? = some q → ¬ prec.Admits q) ∧
        l.prefixOperand prec = l.head k) ∨
      (∀ p ∈ l.levels, ¬ prec.Admits p) ∧ l.prefixOperand prec = l.atom := by
  cases hfind : l.levels.findIdx? fun p => decide (prec.Admits p) with
  | none =>
      have hnone : ∀ p ∈ l.levels, ¬ prec.Admits p := by
        intro p hp
        exact of_decide_eq_false (List.findIdx?_eq_none_iff.1 hfind p hp)
      exact Or.inr ⟨hnone, prefixOperand_of_none hnone⟩
  | some k =>
      obtain ⟨hk, hadmits, hbefore⟩ := List.findIdx?_eq_some_iff_getElem.1 hfind
      have hget := List.getElem?_eq_getElem hk
      have hfirst : ∀ j < k, ∀ q, l.levels[j]? = some q → ¬ prec.Admits q := by
        intro j hj q hq
        obtain ⟨hjlt, rfl⟩ := List.getElem?_eq_some_iff.1 hq
        have hnot := hbefore j hj
        simpa using hnot
      refine Or.inl ⟨k, _, hget, of_decide_eq_true hadmits, hfirst, ?_⟩
      exact prefixOperand_of_first hget (of_decide_eq_true hadmits) hfirst

theorem Sorted.le_of_getElem? (h : l.Sorted) {j k : Nat} {p q : Int32} (hp : l.levels[j]? = some p)
    (hq : l.levels[k]? = some q) (hjk : j ≤ k) : p ≤ q := by
  rcases Nat.lt_or_eq_of_le hjk with hlt | rfl
  · exact Int32.le_of_lt ((h.lt_iff hp hq).1 hlt)
  · rw [hp] at hq
    rw [Option.some.inj hq]
    exact Int32.le_refl _

/-- The operand of a level has tighter operators only. -/
theorem Sorted.operand_eq_prefixOperand (h : l.Sorted) {k : Nat} {p : Int32}
    (hp : l.levels[k]? = some p) (assoc : Assoc) (hassoc : assoc ≠ .right) :
    l.operand k = l.prefixOperand ⟨assoc, p⟩ := by
  have hadmits : ∀ q, (⟨assoc, p⟩ : Prec).Admits q ↔ p < q := by
    intro q
    rw [Prec.Admits, if_neg hassoc]
  rcases l.operand_eq k with ⟨hlt, heq⟩ | ⟨hle, heq⟩
  · have hnext := List.getElem?_eq_getElem hlt
    rw [heq]
    symm
    apply prefixOperand_of_first hnext
    · rw [hadmits]
      exact (h.lt_iff hp hnext).1 (Nat.lt_succ_self k)
    · intro j hj q hq
      rw [hadmits, Int32.not_lt]
      exact h.le_of_getElem? hq hp (Nat.le_of_lt_succ hj)
  · rw [heq]
    symm
    apply prefixOperand_of_none
    intro q hq
    obtain ⟨j, hj⟩ := List.mem_iff_getElem?.1 hq
    obtain ⟨hjlt, -⟩ := List.getElem?_eq_some_iff.1 hj
    rw [hadmits, Int32.not_lt]
    exact h.le_of_getElem? hj hp (Nat.le_of_lt_succ (Nat.lt_of_lt_of_le hjlt hle))

/-- The right operand of an operator is what the operator's precedence lets through. -/
theorem Sorted.rightOperand_eq_prefixOperand (h : l.Sorted) {op : OperatorUse}
    (hop : op.prec.priority ∈ l.levels) : l.rightOperand op = l.prefixOperand op.prec := by
  have hlevel := getElem?_levelOf hop
  simp only [rightOperand]
  by_cases hright : op.prec.assoc = .right
  · rw [if_pos hright]
    symm
    apply prefixOperand_of_first hlevel
    · rw [Prec.Admits, if_pos hright]
      exact Int32.le_refl _
    · intro j hj q hq
      rw [Prec.Admits, if_pos hright, Int32.not_le]
      exact (h.lt_iff hq hlevel).1 hj
  · rw [if_neg hright]
    exact h.operand_eq_prefixOperand hlevel op.prec.assoc hright

/-! ## Limited ends -/

/-- A symbol at the end: the non-terminal of the ladder is limited, all others stay. -/
def limitedSymbol (l : Ladder) (prec : Prec) (s : Symbol) : Symbol :=
  if s = .nonTerminal l.base then .nonTerminal (l.prefixOperand prec) else s

/-- A row of symbols with a limited end. -/
def limited (l : Ladder) (prec : Prec) (ss : List Symbol) : List Symbol :=
  match ss.getLast? with
  | some s => replaceLast ss (l.limitedSymbol prec s)
  | none => []

@[simp] theorem limited_concat (l : Ladder) (prec : Prec) (ss : List Symbol) (s : Symbol) :
    l.limited prec (ss ++ [s]) = ss ++ [l.limitedSymbol prec s] := by
  simp [limited, replaceLast]

theorem limited_cons (l : Ladder) (prec : Prec) (s : Symbol) {ss : List Symbol} (h : ss ≠ []) :
    l.limited prec (s :: ss) = s :: l.limited prec ss := by
  rcases List.eq_nil_or_concat' ss with rfl | ⟨init, last, rfl⟩
  · exact absurd rfl h
  · rw [← List.cons_append, limited_concat, limited_concat, List.cons_append]

theorem ite_replaceLast (l : Ladder) (prec : Prec) (ss : List Symbol) :
    (if ss.getLast? = some (.nonTerminal l.base) then
      replaceLast ss (.nonTerminal (l.prefixOperand prec)) else ss) = l.limited prec ss := by
  rcases List.eq_nil_or_concat' ss with rfl | ⟨init, last, rfl⟩
  · rfl
  · rw [limited_concat, limitedSymbol]
    simp only [List.getLast?_concat, Option.some.injEq]
    split
    · simp [replaceLast]
    · rfl

/-- The symbols of an operator are the declared ones with a limited end. -/
theorem Sorted.operatorSymbols_eq (h : l.Sorted) {op : OperatorUse}
    (hop : op.prec.priority ∈ l.levels) : l.operatorSymbols op = l.limited op.prec op.rest := by
  rw [operatorSymbols, h.rightOperand_eq_prefixOperand hop, ← ite_replaceLast]
  simp only [isInfix, beq_iff_eq]

/-- The symbols of an atom of two or more are the declared ones with a limited end. -/
theorem atomProduction_symbols (l : Ladder) (p : Production) :
    (l.atomProduction p).symbols =
      if 2 ≤ p.symbols.length then l.limited p.prec p.symbols else p.symbols := by
  rw [atomProduction]
  by_cases hlen : 2 ≤ p.symbols.length
  · rw [if_pos hlen, ← ite_replaceLast]
    by_cases hlast : p.symbols.getLast? = some (.nonTerminal l.base)
    · simp [hlen, hlast]
    · simp [hlast]
  · rw [if_neg hlen]
    simp [hlen]

end Ladder

end SmallLang
