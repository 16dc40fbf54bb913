import SmallLang.Proofs.Infix.Language

/-!
# The ladder of a language of infix operators

Only the base type has operators, so stratification is one step (`IsLowered.stratify_eq`). The
operators on the base type are those of the language, its atoms are numbers and parentheses, and
`InfixLanguage.Laddered` lists what the grammar can do after the step.
-/

set_option autoImplicit false

namespace SmallLang

theorem eq_singleton_of_nodup {α : Type} {xs : List α} {x : α} (hnodup : xs.Nodup)
    (h : ∀ y, y ∈ xs ↔ y = x) : xs = [x] := by
  rw [← List.perm_singleton, List.perm_ext_iff_of_nodup hnodup (List.nodup_singleton x)]
  intro y
  rw [h, List.mem_singleton]

namespace InfixLanguage

variable {l : InfixLanguage} {num : Numbering} {g : Grammar}

/-- The operator on the base type that the type of an operator declares. -/
def use (l : InfixLanguage) (num : Numbering) (o : InfixOperator) : OperatorUse :=
  Grammar.operatorUse (num.type l.base) (num.type o.name) 0 (l.operatorProduction num o)

@[simp] theorem use_prec (o : InfixOperator) : (l.use num o).prec = o.prec := rfl

@[simp] theorem use_rest (o : InfixOperator) :
    (l.use num o).rest =
      [.terminal (num.terminal (.literal o.sign)), .nonTerminal (num.type l.base)] := rfl

/-- The ladder of the base type. -/
abbrev ladder (l : InfixLanguage) (num : Numbering) (g : Grammar) : Ladder :=
  g.ladderAt (num.type l.base)

/-- The level of an operator. -/
def level (l : InfixLanguage) (num : Numbering) (g : Grammar) (o : InfixOperator) : Nat :=
  (l.ladder num g).levelOf o.prec.priority

namespace IsLowered

/-! ## Operators and atoms -/

theorem type_injective (hg : l.IsLowered num g) {s t : String} (hs : s ∈ l.names) (ht : t ∈ l.names) :
    num.type s = num.type t ↔ s = t :=
  ⟨hg.type_injOn s hs t ht, congrArg num.type⟩

theorem terminal_injective (hg : l.IsLowered num g) {s t : Terminal} (hs : s ∈ l.terminals)
    (ht : t ∈ l.terminals) : num.terminal s = num.terminal t ↔ s = t := by
  constructor
  · intro h
    have hget := (hg.terminal_iff s hs (num.terminal t)).2 h.symm
    rw [(hg.terminal_iff t ht (num.terminal t)).2 rfl] at hget
    exact (Option.some.inj hget).symm
  · rintro rfl
    rfl

theorem productionsOf_number (hg : l.IsLowered num g) :
    g.productionsOf (num.type l.number) = [l.numberProduction num] := by
  refine eq_singleton_of_nodup (hg.nodup _) fun p => ?_
  rw [hg.mem_iff]
  constructor
  · generalize hi : num.type l.number = i
    intro hp
    cases hp with
    | parens => exact absurd ((hg.type_injective number_mem_names base_mem_names).1 hi) number_ne_base
    | number => rfl
    | numberUnit =>
        exact absurd ((hg.type_injective number_mem_names base_mem_names).1 hi) number_ne_base
    | operator o ho =>
        have heq := (hg.type_injective number_mem_names (name_mem_names ho)).1 hi
        exact absurd heq.symm (name_ne_number ho)
    | operatorUnit o ho =>
        exact absurd ((hg.type_injective number_mem_names base_mem_names).1 hi) number_ne_base
  · rintro rfl
    exact .number

theorem productionsOf_name (hg : l.IsLowered num g) {o : InfixOperator} (ho : o ∈ l.operators) :
    g.productionsOf (num.type o.name) = [l.operatorProduction num o] := by
  refine eq_singleton_of_nodup (hg.nodup _) fun p => ?_
  rw [hg.mem_iff]
  constructor
  · generalize hi : num.type o.name = i
    intro hp
    have hbase : i ≠ num.type l.base := by
      rw [← hi, Ne, hg.type_injective (name_mem_names ho) base_mem_names]
      exact name_ne_base ho
    cases hp with
    | parens => exact absurd rfl hbase
    | number =>
        have heq := (hg.type_injective (name_mem_names ho) number_mem_names).1 hi
        exact absurd heq (name_ne_number ho)
    | numberUnit => exact absurd rfl hbase
    | operator p hp =>
        have heq := (hg.type_injective (name_mem_names ho) (name_mem_names hp)).1 hi
        rw [eq_of_name_eq ho hp heq]
    | operatorUnit p hp => exact absurd rfl hbase
  · rintro rfl
    exact .operator o ho

/-- Only the production of an operator begins with a non-terminal and goes on. -/
theorem isOperatorOn_iff (hg : l.IsLowered num g) {nt e : Nat} {p : Production}
    (hp : p ∈ g.productionsOf nt) :
    p.isOperatorOn e = true ↔
      e = num.type l.base ∧
        ∃ o ∈ l.operators, nt = num.type o.name ∧ p = l.operatorProduction num o := by
  have hp := (hg.mem_iff nt p).1 hp
  constructor
  · intro hop
    cases hp with
    | parens => exact absurd hop Bool.false_ne_true
    | number => exact absurd hop Bool.false_ne_true
    | numberUnit => exact absurd hop Bool.false_ne_true
    | operator o ho => exact ⟨(eq_of_beq hop).symm, o, ho, rfl, rfl⟩
    | operatorUnit o ho => exact absurd hop Bool.false_ne_true
  · rintro ⟨rfl, o, ho, rfl, rfl⟩
    exact beq_self_eq_true _

theorem unitStep (hg : l.IsLowered num g) {name : String} (hname : name ∈ l.names)
    (hp : l.Produces num (num.type l.base) (unitProduction num name)) :
    num.type name ∈ g.unitClosure (num.type l.base) :=
  Grammar.mem_unitClosure_iff.2
    (.single ⟨_, (hg.mem_iff _ _).2 hp, rfl, hg.type_lt name hname⟩)

/-- The operators on the base type are those of the language. -/
theorem mem_operatorsOn_iff (hg : l.IsLowered num g) {op : OperatorUse} :
    op ∈ g.operatorsOn (num.type l.base) ↔ ∃ o ∈ l.operators, l.use num o = op := by
  rw [Grammar.mem_operatorsOn_iff]
  constructor
  · rintro ⟨m, i, p, -, hp, hop, rfl⟩
    have hmem := Grammar.mem_productionsOf_iff.2 ⟨i, hp⟩
    obtain ⟨-, o, ho, rfl, rfl⟩ := (hg.isOperatorOn_iff hmem).1 hop
    -- The type has this production only.
    have hi : i = 0 := by
      rw [Grammar.production?, hg.productionsOf_name ho] at hp
      have := (List.getElem?_eq_some_iff.1 hp).1
      simpa using this
    rw [hi]
    exact ⟨o, ho, rfl⟩
  · rintro ⟨o, ho, rfl⟩
    refine ⟨num.type o.name, 0, l.operatorProduction num o,
      hg.unitStep (name_mem_names ho) (.operatorUnit o ho), ?_, beq_self_eq_true _, rfl⟩
    rw [Grammar.production?, hg.productionsOf_name ho]
    rfl

theorem operatorsOn_ne_nil (hg : l.IsLowered num g) : g.operatorsOn (num.type l.base) ≠ [] := by
  obtain ⟨o, ho⟩ := List.exists_mem_of_ne_nil _ l.operators_ne_nil
  exact List.ne_nil_of_mem (hg.mem_operatorsOn_iff.2 ⟨o, ho, rfl⟩)

theorem nodup_operatorsOn (hg : l.IsLowered num g) : (g.operatorsOn (num.type l.base)).Nodup := by
  refine Grammar.nodup_operatorsOn fun p hp => ?_
  rw [Bool.eq_false_iff]
  intro hop
  obtain ⟨-, o, ho, heq, -⟩ := (hg.isOperatorOn_iff hp).1 hop
  exact name_ne_base ho ((hg.type_injective (name_mem_names ho) base_mem_names).1 heq.symm)

/-- The atoms are parentheses and numbers. -/
theorem mem_atomsOf_iff (hg : l.IsLowered num g) {p : Production} :
    p ∈ g.atomsOf (num.type l.base) ↔ p = l.parensProduction num ∨ p = l.numberProduction num := by
  rw [Grammar.mem_atomsOf_iff]
  constructor
  · rintro ⟨m, -, hp, hop, hunit⟩
    cases (hg.mem_iff m p).1 hp with
    | parens => exact Or.inl rfl
    | number => exact Or.inr rfl
    | numberUnit => exact absurd (hg.unitStep number_mem_names .numberUnit) (hunit _ rfl)
    | operator o ho =>
        rw [(hg.isOperatorOn_iff hp).2 ⟨rfl, o, ho, rfl, rfl⟩] at hop
        exact absurd hop.symm Bool.false_ne_true
    | operatorUnit o ho =>
        exact absurd (hg.unitStep (name_mem_names ho) (.operatorUnit o ho)) (hunit _ rfl)
  · rintro (rfl | rfl)
    · refine ⟨_, Grammar.self_mem_unitClosure g _, (hg.mem_iff _ _).2 .parens, rfl, ?_⟩
      intro target htarget
      exact absurd htarget (by simp [Production.unitTarget?, parensProduction])
    · refine ⟨_, hg.unitStep number_mem_names .numberUnit, (hg.mem_iff _ _).2 .number, rfl, ?_⟩
      intro target htarget
      exact absurd htarget (by simp [Production.unitTarget?, numberProduction])

/-- Each atom is found once. -/
theorem nodup_atomsOf (hg : l.IsLowered num g) : (g.atomsOf (num.type l.base)).Nodup := by
  rw [Grammar.atomsOf]
  refine List.nodup_flatMap.2 ⟨fun m _ => (hg.nodup m).filter _, ?_⟩
  have hclosure : (g.unitClosure (num.type l.base)).Nodup := Reach.nodup_reachable _ _ _
  refine (List.nodup_iff_pairwise_ne.1 hclosure).imp_of_mem ?_
  intro m n hm hn hne p hp hq
  -- What an atom is tells where it is from.
  obtain ⟨hp, hkind⟩ := List.mem_filter.1 hp
  have hq := (List.mem_filter.1 hq).1
  have hatom : p = l.parensProduction num ∨ p = l.numberProduction num := by
    rw [← hg.mem_atomsOf_iff, Grammar.atomsOf]
    exact List.mem_flatMap.2 ⟨m, hm, List.mem_filter.2 ⟨hp, hkind⟩⟩
  have hhome : ∀ i, l.Produces num i p →
      i = if p = l.parensProduction num then num.type l.base else num.type l.number := by
    intro i hi
    rcases hatom with rfl | rfl
    · rw [if_pos rfl]
      generalize hr : l.parensProduction num = r at hi
      cases hi <;> simp_all [parensProduction, numberProduction, unitProduction, operatorProduction,
        InfixOperator.construction]
    · rw [if_neg (by simp [numberProduction, parensProduction])]
      generalize hr : l.numberProduction num = r at hi
      cases hi <;> simp_all [parensProduction, numberProduction, unitProduction, operatorProduction,
        InfixOperator.construction]
  exact hne ((hhome m ((hg.mem_iff m p).1 hp)).trans (hhome n ((hg.mem_iff n p).1 hq)).symm)

end IsLowered

/-! ## After stratification -/

/-- An operator as a production of a tail: its sign, its right operand, and the rest of the tail where
the operator groups to the left. -/
def signProduction (l : InfixLanguage) (num : Numbering) (g : Grammar) (o : InfixOperator) :
    Production :=
  { symbols :=
      [.terminal (num.terminal (.literal o.sign)),
        .nonTerminal ((l.ladder num g).rightOperand (l.use num o))] ++
      if o.prec.assoc = .left then [.nonTerminal ((l.ladder num g).tail (l.level num g o))] else []
    construction := .operator o.construction (o.prec.assoc == .left)
    prec := o.prec }

theorem tailProduction_use (o : InfixOperator) :
    (l.ladder num g).tailProduction (l.use num o) = l.signProduction num g o := by
  have hinfix : (l.ladder num g).isInfix (l.use num o) = true := by
    rw [Ladder.isInfix, use_rest]
    exact beq_self_eq_true _
  have hloops : (l.ladder num g).loops (l.use num o) = (o.prec.assoc == .left) := by
    rw [Ladder.loops, use_prec, hinfix]
    cases o.prec.assoc <;> rfl
  rw [Ladder.tailProduction, signProduction, hinfix, hloops]
  cases o.prec.assoc <;> rfl

/-- The productions after stratification, each with the number of its non-terminal. -/
inductive Laddered (l : InfixLanguage) (num : Numbering) (g : Grammar) : Nat → Production → Prop
  | number : Laddered l num g (num.type l.number) (l.numberProduction num)
  | declared (o : InfixOperator) (ho : o ∈ l.operators) (j : Nat) :
      Laddered l num g (num.type o.name)
        ((l.ladder num g).climbProduction (l.level num g o) ((l.ladder num g).forced j))
  | head (k : Nat) (hk : k < (l.ladder num g).height) :
      Laddered l num g ((l.ladder num g).head k)
        ((l.ladder num g).climbProduction k ((l.ladder num g).tail k))
  | operator (o : InfixOperator) (ho : o ∈ l.operators) :
      Laddered l num g ((l.ladder num g).tail (l.level num g o)) (l.signProduction num g o)
  | ending (k : Nat) (hk : k < (l.ladder num g).height) :
      Laddered l num g ((l.ladder num g).tail k) Ladder.endProduction
  | parens : Laddered l num g (l.ladder num g).atom (l.parensProduction num)
  | numberAtom : Laddered l num g (l.ladder num g).atom (l.numberProduction num)
  | forced (o : InfixOperator) (ho : o ∈ l.operators) (j : Nat) :
      Laddered l num g ((l.ladder num g).forced j) (l.signProduction num g o)

namespace IsLowered

theorem base_lt (hg : l.IsLowered num g) : num.type l.base < g.size :=
  hg.type_lt l.base base_mem_names

/-- Neither atom ends in an operand. -/
theorem atomProduction_eq (hg : l.IsLowered num g) {p : Production}
    (hp : p ∈ g.atomsOf (num.type l.base)) : (l.ladder num g).atomProduction p = p := by
  rcases hg.mem_atomsOf_iff.1 hp with rfl | rfl
  · rfl
  · rfl

/-- An operator that another type declares is one of the language. -/
theorem exists_of_declaredOperators (hg : l.IsLowered num g) {j : Nat} {op : OperatorUse}
    (hop : (g.declaredOperators (num.type l.base))[j]? = some op) :
    ∃ o ∈ l.operators, l.use num o = op :=
  hg.mem_operatorsOn_iff.1 (List.mem_filter.1 (List.mem_of_getElem? hop)).1

theorem type_eq_of_origin_use {o : InfixOperator} {m i : Nat}
    (h : (l.use num o).origin = some (m, i)) : num.type o.name = m := by
  simp only [use, Grammar.operatorUse, Option.ite_none_left_eq_some, Option.some.injEq,
    Prod.mk.injEq] at h
  exact h.2.1

/-- The production of the numbers stays as it is. -/
theorem keptProduction_number (hg : l.IsLowered num g) (k : Nat) :
    Grammar.keptProduction (g.ladderAt (num.type l.base)) (g.operatorsOn (num.type l.base))
      (num.type l.number) k (l.numberProduction num) = l.numberProduction num := by
  rcases Grammar.keptProduction_cases g (num.type l.base) (num.type l.number) k
    (l.numberProduction num) with heq | ⟨j, op, hop, horigin, -⟩
  · exact heq
  · obtain ⟨o, ho, rfl⟩ := hg.exists_of_declaredOperators hop
    have heq := (hg.type_injective (name_mem_names ho) number_mem_names).1 (type_eq_of_origin_use horigin)
    exact absurd heq (name_ne_number ho)

/-- The production of an operator climbs to what is forced to begin with the operator. -/
theorem exists_keptProduction_operator (hg : l.IsLowered num g) {o : InfixOperator}
    (ho : o ∈ l.operators) {k : Nat} (hi : num.type o.name ≠ num.type l.base)
    (hq : g.production? (num.type o.name) k = some (l.operatorProduction num o)) :
    ∃ j, Grammar.keptProduction (g.ladderAt (num.type l.base)) (g.operatorsOn (num.type l.base))
        (num.type o.name) k (l.operatorProduction num o) =
      (l.ladder num g).climbProduction (l.level num g o) ((l.ladder num g).forced j) := by
  obtain rfl : k = 0 := by
    rw [Grammar.production?, hg.productionsOf_name ho] at hq
    simpa using (List.getElem?_eq_some_iff.1 hq).1
  have horigin : (l.use num o).origin = some (num.type o.name, 0) := by
    simp only [use, Grammar.operatorUse]
    rw [if_neg hi]
  obtain ⟨j, op, hop, horigin', heq⟩ := Grammar.keptProduction_of_origin
    (hg.mem_operatorsOn_iff.2 ⟨o, ho, rfl⟩) horigin (l.operatorProduction num o)
  obtain ⟨o', ho', rfl⟩ := hg.exists_of_declaredOperators hop
  have hname := (hg.type_injective (name_mem_names ho') (name_mem_names ho)).1
    (type_eq_of_origin_use horigin')
  obtain rfl := eq_of_name_eq ho' ho hname
  exact ⟨j, heq⟩

theorem laddered_of_mem (hg : l.IsLowered num g) {nt : Nat} {p : Production}
    (hp : p ∈ (g.stratifyAt (num.type l.base)).productionsOf nt) : l.Laddered num g nt p := by
  rw [Grammar.mem_productionsOf_stratifyAt_iff hg.operatorsOn_ne_nil hg.base_lt] at hp
  cases hp with
  | @kept _ k q hi hq =>
      have hproduces := (hg.mem_iff nt q).1 (Grammar.mem_productionsOf_iff.2 ⟨k, hq⟩)
      cases hproduces with
      | parens => exact absurd rfl hi
      | numberUnit => exact absurd rfl hi
      | operatorUnit o ho => exact absurd rfl hi
      | number =>
          rw [hg.keptProduction_number k]
          exact .number
      | operator o ho =>
          obtain ⟨j, heq⟩ := hg.exists_keptProduction_operator ho hi hq
          rw [heq]
          exact .declared o ho j
  | head hk => exact .head _ hk
  | operator hop =>
      obtain ⟨o, ho, rfl⟩ := hg.mem_operatorsOn_iff.1 hop
      rw [tailProduction_use]
      exact .operator o ho
  | ending hk => exact .ending _ hk
  | atom hq =>
      rw [hg.atomProduction_eq hq]
      rcases hg.mem_atomsOf_iff.1 hq with rfl | rfl
      · exact .parens
      · exact .numberAtom
  | @forced j op hop =>
      obtain ⟨o, ho, rfl⟩ := hg.exists_of_declaredOperators hop
      rw [tailProduction_use]
      exact .forced o ho j

/-- After the step nothing begins with an old non-terminal and goes on. -/
theorem isOperatorOn_stratifyAt (hg : l.IsLowered num g) {nt k : Nat} (hk : k < g.size)
    {p : Production} (hp : p ∈ (g.stratifyAt (num.type l.base)).productionsOf nt) :
    p.isOperatorOn k = false := by
  have hclimb : ∀ j next, ((l.ladder num g).climbProduction j next).isOperatorOn k = false := by
    intro j next
    have hge := (Grammar.operand_bounds hg.operatorsOn_ne_nil (k := j)).1
    simp only [Ladder.climbProduction, Production.isOperatorOn, beq_eq_false_iff_ne]
    exact Nat.ne_of_gt (Nat.lt_of_lt_of_le hk hge)
  cases hg.laddered_of_mem hp with
  | number => rfl
  | declared o ho j => exact hclimb _ _
  | head k hk => exact hclimb _ _
  | operator o ho => rfl
  | ending k hk => rfl
  | parens => rfl
  | numberAtom => rfl
  | forced o ho j => rfl

/-- Stratification arranges the operators of the base type and nothing else. -/
theorem stratify_eq (hg : l.IsLowered num g) : g.stratify = g.stratifyAt (num.type l.base) := by
  have hbefore : ∀ k ≤ num.type l.base, g.stage k = g := by
    intro k hk
    induction k with
    | zero => rfl
    | succ k ih =>
        rw [Grammar.stage_succ, ih (Nat.le_of_succ_le hk)]
        refine Grammar.stratifyAt_of_eq_nil (Grammar.operatorsOn_eq_nil fun nt p hp => ?_)
        rw [Bool.eq_false_iff]
        intro hop
        have := ((hg.isOperatorOn_iff hp).1 hop).1
        omega
  have hafter : ∀ k, num.type l.base < k → k ≤ g.size →
      g.stage k = g.stratifyAt (num.type l.base) := by
    intro k hlt hk
    induction k with
    | zero => exact absurd hlt (Nat.not_lt_zero _)
    | succ k ih =>
        rw [Grammar.stage_succ]
        rcases Nat.eq_or_lt_of_le (Nat.le_of_lt_succ hlt) with rfl | hlt
        · rw [hbefore _ (Nat.le_refl _)]
        · rw [ih hlt (Nat.le_of_succ_le hk)]
          refine Grammar.stratifyAt_of_eq_nil (Grammar.operatorsOn_eq_nil fun nt p hp => ?_)
          exact hg.isOperatorOn_stratifyAt hk hp
  rw [Grammar.stratify_eq_stage]
  exact hafter g.size hg.base_lt (Nat.le_refl _)

end IsLowered

end InfixLanguage

end SmallLang
