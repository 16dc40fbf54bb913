import SmallLang.Proofs.Inlining.Added

/-!
# The ladder of one infix operator

Where `e` has no operators, an infix operator on it makes a ladder of one level (`Grammar.inlineAt`):

```text
E        -> E#atom E#p'
E#p'     -> op operand E#p' | (empty)
E#atom   -> every atom of E
Op       -> E#atom Op#op0
Op#op0   -> op operand E#p'
```

All other productions stay, and the atoms are those that `e` had before, in some order
(`Grammar.Operatorless.productionsOf_inlineAt_atom`). The productions that handed on other non-terminals are no
longer there: the atoms are the productions of these.
-/

set_option autoImplicit false

namespace SmallLang

namespace Grammar

variable {g : Grammar} {e types size : Nat} {o : AddedInfix}

/-- The grammar with the operator on `e`, after the step of `e`. -/
def inlineAt (g : Grammar) (e : Nat) (o : AddedInfix) : Grammar := (g.addInfix e o).stratifyAt e

/-- The ladder of the operator. -/
def inlineLadder (g : Grammar) (e : Nat) (o : AddedInfix) : Ladder := (g.addInfix e o).ladderAt e

/-- The operator as the step of `e` finds it. -/
def inlineUse (g : Grammar) (e : Nat) (o : AddedInfix) : OperatorUse :=
  ⟨[.terminal g.arena.size, .nonTerminal e], o.construction, o.prec, some (g.size, 0)⟩

/-- The productions of the grammar after the step, by what they come from. -/
inductive Inlined (g : Grammar) (e : Nat) (o : AddedInfix) : Nat → Production → Prop
  | old {i : Nat} {p : Production} (hi : i < g.size) (hie : i ≠ e) (hp : p ∈ g.productionsOf i) :
      Inlined g e o i p
  | self : Inlined g e o e ⟨[.nonTerminal (g.size + 2), .nonTerminal (g.size + 1)], .climb, .default⟩
  | type :
      Inlined g e o g.size ⟨[.nonTerminal (g.size + 2), .nonTerminal (g.size + 3)], .climb, .default⟩
  | operator {i : Nat} (hi : i = g.size + 1 ∨ i = g.size + 3) :
      Inlined g e o i ((g.inlineLadder e o).tailProduction (g.inlineUse e o))
  | ending : Inlined g e o (g.size + 1) Ladder.endProduction
  | atom {p : Production} (hp : p ∈ g.atomsOf e) :
      Inlined g e o (g.size + 2) ((g.inlineLadder e o).atomProduction p)

/-- A non-terminal without operators, between two steps. -/
structure Operatorless (types size : Nat) (g : Grammar) (e : Nat) : Prop where
  staged : g.Staged types size
  lt_size : e < size
  noOperator : g.operatorsOn e = []

namespace Operatorless

variable (h : g.Operatorless types size e)
include h

theorem lt : e < g.size := Nat.lt_of_lt_of_le h.lt_size h.staged.size_le

/-- The atoms of an alternative are atoms of `e`. -/
theorem mem_atomsOf {a : Nat} (ha : a ∈ g.unitClosure e) {p : Production} (hp : p ∈ g.atomsOf a) :
    p ∈ g.atomsOf e := by
  obtain ⟨m, hm, hpm, -, hunit⟩ := mem_atomsOf_iff.1 hp
  obtain ⟨i, hi⟩ := mem_productionsOf_iff.1 hpm
  rcases operator_or_atom_or_unit (mem_unitClosure_trans ha hm) hi with hop | hatom | ⟨target, -, ht⟩
  · rw [h.noOperator] at hop
    exact absurd hop List.not_mem_nil
  · exact hatom
  · -- A unit leads to another alternative of the alternative.
    refine absurd (mem_unitClosure_iff.2 ((mem_unitClosure_iff.1 hm).tail ⟨p, hpm, ht, ?_⟩)) (hunit target ht)
    refine h.staged.hasSymbol m p hpm (.nonTerminal target) ?_
    rw [(Production.unitTarget?_eq_some_iff.1 ht).1]
    exact List.mem_cons_self

theorem mem_unitClosure_addInfix_iff {m : Nat} :
    m ∈ (g.addInfix e o).unitClosure e ↔ m ∈ g.unitClosure e ∨ m = g.size := by
  have heg := h.lt
  refine ⟨h.staged.mem_unitClosure_addInfix h.lt_size, ?_⟩
  rintro (hm | rfl)
  · have hpath := mem_unitClosure_iff.1 hm
    refine mem_unitClosure_iff.2 (Relation.ReflTransGen.mono ?_ _ _ hpath)
    rintro a b ⟨p, hp, ht, hb⟩
    refine ⟨p, ?_, ht, by rw [size_addInfix]; omega⟩
    have ha : a < g.size := by
      by_contra hge
      rw [productionsOf_of_size_le (Nat.not_lt.1 hge)] at hp
      exact List.not_mem_nil hp
    by_cases hae : a = e
    · subst hae
      rw [productionsOf_addInfix_self ha]
      exact List.mem_append_left _ hp
    · rwa [productionsOf_addInfix_of_ne hae (Nat.ne_of_lt ha)]
  · refine mem_unitClosure_iff.2 (Relation.ReflTransGen.single ⟨g.infixUnit o, ?_, rfl, ?_⟩)
    · rw [productionsOf_addInfix_self heg]
      exact List.mem_append_right _ List.mem_cons_self
    · rw [size_addInfix]
      omega

theorem unitClosure_addInfix_perm :
    ((g.addInfix e o).unitClosure e).Perm (g.unitClosure e ++ [g.size]) := by
  have hnew : g.size ∉ g.unitClosure e := fun hm =>
    absurd (h.staged.lt_size_of_mem_unitClosure h.lt_size hm) (Nat.not_lt.2 h.staged.size_le)
  have hnodup : (g.unitClosure e ++ [g.size]).Nodup :=
    List.nodup_append.2 ⟨Reach.nodup_reachable _ _ _, by simp, fun a ha b hb hab => by
      obtain rfl := List.mem_singleton.1 hb
      exact hnew (hab ▸ ha)⟩
  refine (List.perm_ext_iff_of_nodup (Reach.nodup_reachable _ _ _) hnodup).2 fun m => ?_
  rw [List.mem_append, List.mem_singleton]
  exact h.mem_unitClosure_addInfix_iff

/-- The atoms are those from before: what hands on the type of the operator is none, and the operator
is none either. -/
theorem atomsOf_addInfix_perm : ((g.addInfix e o).atomsOf e).Perm (g.atomsOf e) := by
  have heg := h.lt
  have hmem : ∀ t, ((g.addInfix e o).unitClosure e).contains t =
      ((g.unitClosure e).contains t || t == g.size) := fun t => by
    rw [Bool.eq_iff_iff, List.contains_iff_mem, Bool.or_eq_true, List.contains_iff_mem, beq_iff_eq]
    exact h.mem_unitClosure_addInfix_iff
  -- A production that was there is an atom as before.
  have hsame : ∀ m, ∀ p ∈ g.productionsOf m,
      (!p.isOperatorOn e && !p.unitTarget?.any ((g.addInfix e o).unitClosure e).contains) =
        (!p.isOperatorOn e && !p.unitTarget?.any (g.unitClosure e).contains) := by
    intro m p hp
    cases ht : p.unitTarget? with
    | none => rfl
    | some t =>
        have hlt : t < g.size := by
          have hs := (Production.unitTarget?_eq_some_iff.1 ht).1
          exact h.staged.hasSymbol m p hp (.nonTerminal t) (by rw [hs]; exact List.mem_cons_self)
        rw [Option.any_some, Option.any_some, hmem, beq_false_of_ne (Nat.ne_of_lt hlt), Bool.or_false]
  rw [atomsOf]
  refine ((h.unitClosure_addInfix_perm).flatMap_right _).trans (List.Perm.of_eq ?_)
  rw [List.flatMap_append, List.flatMap_singleton, productionsOf_addInfix_new,
    List.filter_cons_of_neg (by simp [infixProduction, Production.isOperatorOn]), List.filter_nil,
    List.append_nil, atomsOf]
  refine List.flatMap_congr fun m hm => ?_
  have hm' : m ≠ g.size := Nat.ne_of_lt
    (Nat.lt_of_lt_of_le (h.staged.lt_size_of_mem_unitClosure h.lt_size hm) h.staged.size_le)
  by_cases hme : m = e
  · subst hme
    have hunit : (g.infixUnit o).unitTarget?.any ((g.addInfix m o).unitClosure m).contains = true := by
      show ((g.addInfix m o).unitClosure m).contains g.size = true
      rw [hmem, beq_self_eq_true, Bool.or_true]
    rw [productionsOf_addInfix_self heg, List.filter_append,
      List.filter_cons_of_neg (by simp [hunit]), List.filter_nil, List.append_nil]
    exact List.filter_congr (hsame m)
  · rw [productionsOf_addInfix_of_ne hme hm']
    exact List.filter_congr (hsame m)

/-- The added operator is the only one on `e`. -/
theorem operatorsOn_addInfix_self : (g.addInfix e o).operatorsOn e = [g.inlineUse e o] := by
  have heg := h.lt
  have hold : ∀ m ∈ g.unitClosure e, ∀ p ∈ g.productionsOf m, p.isOperatorOn e = false := by
    intro m hm p hp
    obtain ⟨i, hi⟩ := mem_productionsOf_iff.1 hp
    by_contra hop
    have hmem := mem_operatorsOn_iff.2 ⟨m, i, p, hm, hi, by simpa using hop, rfl⟩
    rw [h.noOperator] at hmem
    exact List.not_mem_nil hmem
  refine List.perm_singleton.1 ((List.perm_ext_iff_of_nodup (nodup_operatorsOn fun p hp => ?_)
    (List.nodup_singleton _)).2 fun op => ⟨fun hop => ?_, fun hop => ?_⟩)
  · rw [productionsOf_addInfix_self heg] at hp
    rcases List.mem_append.1 hp with hp | hp
    · exact hold e (self_mem_unitClosure g e) p hp
    · obtain rfl := List.mem_singleton.1 hp
      rfl
  · obtain ⟨m, i, p, hm, hp, hisop, rfl⟩ := mem_operatorsOn_iff.1 hop
    rcases mem_productionsOf_addInfix (mem_productionsOf_iff.2 ⟨i, hp⟩) with hq | ⟨-, rfl⟩ | ⟨rfl, rfl⟩
    · rcases (h.mem_unitClosure_addInfix_iff).1 hm with hm | rfl
      · rw [hold m hm p hq] at hisop
        exact absurd hisop Bool.false_ne_true
      · rw [productionsOf_of_size_le (Nat.le_refl _)] at hq
        exact absurd hq List.not_mem_nil
    · exact absurd hisop Bool.false_ne_true
    · have hi : i = 0 := by
        have hlt := (List.getElem?_eq_some_iff.1 hp).1
        rw [productionsOf_addInfix_new] at hlt
        exact Nat.lt_one_iff.1 hlt
      rw [operatorUse, if_neg (Nat.ne_of_gt heg), hi]
      exact List.mem_cons_self
  · obtain rfl := List.mem_singleton.1 hop
    refine mem_operatorsOn_iff.2 ⟨g.size, 0, g.infixProduction e o,
      (h.mem_unitClosure_addInfix_iff).2 (Or.inr rfl), ?_, beq_self_eq_true e, ?_⟩
    · rw [production?, productionsOf_addInfix_new]
      rfl
    · rw [operatorUse, if_neg (Nat.ne_of_gt heg)]
      rfl

theorem operatorsOn_addInfix_self_ne_nil : (g.addInfix e o).operatorsOn e ≠ [] := by
  rw [h.operatorsOn_addInfix_self]
  exact List.cons_ne_nil _ _

/-! ## The numbers of the ladder -/

theorem levels_inlineLadder : (g.inlineLadder e o).levels = [o.prec.priority] := by
  show increasing (((g.addInfix e o).operatorsOn e).map (·.prec.priority)) = _
  rw [h.operatorsOn_addInfix_self]
  rfl

theorem height_inlineLadder : (g.inlineLadder e o).height = 1 := by
  rw [Ladder.height, h.levels_inlineLadder]
  rfl

theorem declaredOperators_inline : (g.addInfix e o).declaredOperators e = [g.inlineUse e o] := by
  rw [declaredOperators, h.operatorsOn_addInfix_self]
  rfl

omit h in
theorem first_inlineLadder : (g.inlineLadder e o).first = g.size + 1 := size_addInfix g e o

omit h in
theorem tail_inlineLadder : (g.inlineLadder e o).tail 0 = g.size + 1 :=
  size_addInfix g e o

theorem atom_inlineLadder : (g.inlineLadder e o).atom = g.size + 2 := by
  rw [Ladder.atom, h.height_inlineLadder, first_inlineLadder]
  omega

theorem forced_inlineLadder : (g.inlineLadder e o).forced 0 = g.size + 3 := by
  rw [Ladder.forced, h.height_inlineLadder, first_inlineLadder]

theorem operand_inlineLadder (k : Nat) : (g.inlineLadder e o).operand k = g.size + 2 := by
  rw [Ladder.operand, h.height_inlineLadder, if_neg (by omega), h.atom_inlineLadder]

theorem levelOf_inlineLadder : (g.inlineLadder e o).levelOf o.prec.priority = 0 := by
  rw [Ladder.levelOf, h.levels_inlineLadder]
  simp

theorem size_inlineAt : (g.inlineAt e o).size = g.size + 4 := by
  have hheight : ((g.addInfix e o).ladderAt e).height = 1 := h.height_inlineLadder
  rw [inlineAt, size_stratifyAt (h.operatorsOn_addInfix_self_ne_nil), size_addInfix, hheight,
    h.declaredOperators_inline]
  rfl

omit h in
theorem arena_inlineAt : (g.inlineAt e o).arena = (g.addInfix e o).arena := stratifyAt_arena _ e

omit h in
theorem start_inlineAt : (g.inlineAt e o).start = g.start := stratifyAt_start _ e

theorem rightOperand_inlineLadder :
    (g.inlineLadder e o).rightOperand (g.inlineUse e o) = e ∨
      (g.inlineLadder e o).rightOperand (g.inlineUse e o) = g.size + 2 := by
  have hlevel : (g.inlineLadder e o).levelOf (g.inlineUse e o).prec.priority = 0 :=
    h.levelOf_inlineLadder
  simp only [Ladder.rightOperand, hlevel]
  split
  · exact Or.inl rfl
  · exact Or.inr (h.operand_inlineLadder 0)

theorem prefixOperand_inlineLadder (prec : Prec) :
    (g.inlineLadder e o).prefixOperand prec = e ∨
      (g.inlineLadder e o).prefixOperand prec = g.size + 2 := by
  rcases prefixOperand_cases (g.addInfix e o) e prec with ⟨k, hk, heq⟩ | heq
  · have hheight : ((g.addInfix e o).ladderAt e).height = 1 := h.height_inlineLadder
    obtain rfl : k = 0 := by omega
    exact Or.inl heq
  · exact Or.inr (heq.trans (h.atom_inlineLadder))

/-- An atom changes at most in its last symbol. -/
theorem symbols_atomProduction (p : Production) :
    ((g.inlineLadder e o).atomProduction p).symbols = p.symbols ∨
      ∃ before x, p.symbols = before ++ [.nonTerminal e] ∧ (x = e ∨ x = g.size + 2) ∧
        ((g.inlineLadder e o).atomProduction p).symbols = before ++ [.nonTerminal x] := by
  rw [Ladder.atomProduction]
  split
  · rename_i hlast
    obtain ⟨-, hlast⟩ := Bool.and_eq_true_iff.1 hlast
    have hdrop := List.dropLast_append_getLast? (Symbol.nonTerminal e) (beq_iff_eq.1 hlast)
    exact Or.inr ⟨p.symbols.dropLast, _, hdrop.symm, h.prefixOperand_inlineLadder p.prec, rfl⟩
  · exact Or.inl rfl

/-! ## The productions -/

/-- Other non-terminals keep their productions. -/
theorem productionsOf_inlineAt_old {i : Nat} (hi : i < g.size) (hie : i ≠ e) :
    (g.inlineAt e o).productionsOf i = g.productionsOf i := by
  rw [inlineAt, productionsOf_stratifyAt_of_not (by rw [size_addInfix]; omega) (Or.inl hie),
    productionsOf_addInfix_of_ne hie (Nat.ne_of_lt hi)]
  rintro k ⟨op, hop, ho⟩
  rw [h.operatorsOn_addInfix_self] at hop
  obtain rfl := List.mem_singleton.1 hop
  have hnumber : g.size = i := congrArg Prod.fst (Option.some.inj ho)
  omega

theorem productionsOf_inlineAt_self :
    (g.inlineAt e o).productionsOf e =
      [⟨[.nonTerminal (g.size + 2), .nonTerminal (g.size + 1)], .climb, .default⟩] := by
  have heg := h.lt
  have hoperand : ((g.addInfix e o).ladderAt e).operand 0 = g.size + 2 :=
    h.operand_inlineLadder 0
  have htail : ((g.addInfix e o).ladderAt e).tail 0 = g.size + 1 := tail_inlineLadder
  rw [inlineAt, productionsOf_base (h.operatorsOn_addInfix_self_ne_nil)
    (by rw [size_addInfix]; omega), Ladder.climbProduction, hoperand, htail]

/-- The type of the operator asks for an operand and then for the operator. -/
theorem productionsOf_inlineAt_type :
    (g.inlineAt e o).productionsOf g.size =
      [⟨[.nonTerminal (g.size + 2), .nonTerminal (g.size + 3)], .climb, .default⟩] := by
  have heg := h.lt
  have hdeclared : ((g.addInfix e o).declaredOperators e)[0]? = some (g.inlineUse e o) := by
    rw [h.declaredOperators_inline]
    rfl
  have hoperand : ((g.addInfix e o).ladderAt e).operand
      (((g.addInfix e o).ladderAt e).levelOf (g.inlineUse e o).prec.priority) = g.size + 2 :=
    h.operand_inlineLadder _
  have hforced : ((g.addInfix e o).ladderAt e).forced 0 = g.size + 3 :=
    h.forced_inlineLadder
  rw [inlineAt, productionsOf_kept (h.operatorsOn_addInfix_self_ne_nil)
    (by rw [size_addInfix]; omega) (Nat.ne_of_gt heg), productionsOf_addInfix_new]
  show [keptProduction _ _ g.size 0 _] = _
  rw [keptProduction_of_declared hdeclared rfl, Ladder.climbProduction, hoperand, hforced]

theorem productionsOf_inlineAt_tail :
    (g.inlineAt e o).productionsOf (g.size + 1) =
      [(g.inlineLadder e o).tailProduction (g.inlineUse e o), Ladder.endProduction] := by
  have hlevel : ((g.addInfix e o).ladderAt e).levels[0]? = some o.prec.priority := by
    have hlevels : ((g.addInfix e o).ladderAt e).levels = _ := h.levels_inlineLadder
    rw [hlevels]
    rfl
  have hfilter : [g.inlineUse e o].filter (·.prec.priority == o.prec.priority) = [g.inlineUse e o] :=
    List.filter_cons_of_pos (beq_self_eq_true o.prec.priority)
  rw [← tail_inlineLadder (g := g) (e := e) (o := o), inlineAt, inlineLadder,
    productionsOf_tail (h.operatorsOn_addInfix_self_ne_nil) hlevel,
    h.operatorsOn_addInfix_self, hfilter]
  rfl

theorem productionsOf_inlineAt_forced :
    (g.inlineAt e o).productionsOf (g.size + 3) =
      [(g.inlineLadder e o).tailProduction (g.inlineUse e o)] := by
  have hdeclared : ((g.addInfix e o).declaredOperators e)[0]? = some (g.inlineUse e o) := by
    rw [h.declaredOperators_inline]
    rfl
  rw [← h.forced_inlineLadder (o := o), inlineAt, inlineLadder,
    productionsOf_forced (h.operatorsOn_addInfix_self_ne_nil) hdeclared]

/-- The atoms are those from before, in some order. -/
theorem productionsOf_inlineAt_atom :
    ((g.inlineAt e o).productionsOf (g.size + 2)).Perm
      ((g.atomsOf e).map (g.inlineLadder e o).atomProduction) := by
  rw [← h.atom_inlineLadder (o := o), inlineAt, inlineLadder,
    productionsOf_atom (h.operatorsOn_addInfix_self_ne_nil)]
  exact (h.atomsOf_addInfix_perm).map _

/-- The operator begins with its literal, and goes on with an operand. -/
theorem symbols_tailProduction :
    ∃ x rest, ((g.inlineLadder e o).tailProduction (g.inlineUse e o)).symbols =
        .terminal g.arena.size :: .nonTerminal x :: rest ∧ (x = e ∨ x = g.size + 2) ∧
      (rest = [] ∨ rest = [.nonTerminal (g.size + 1)]) := by
  have hinfix : (g.inlineLadder e o).isInfix (g.inlineUse e o) = true :=
    beq_self_eq_true (some (Symbol.nonTerminal e))
  have hlevel : (g.inlineLadder e o).levelOf (g.inlineUse e o).prec.priority = 0 :=
    h.levelOf_inlineLadder
  refine ⟨(g.inlineLadder e o).rightOperand (g.inlineUse e o),
    if (g.inlineLadder e o).loops (g.inlineUse e o) then [.nonTerminal (g.size + 1)] else [], ?_,
    h.rightOperand_inlineLadder, ?_⟩
  · rw [Ladder.tailProduction_symbols, Ladder.operatorSymbols, if_pos hinfix, hlevel, tail_inlineLadder]
    rfl
  · split
    · exact Or.inr rfl
    · exact Or.inl rfl

theorem mem_productionsOf_inlineAt_iff {i : Nat} {p : Production} :
    p ∈ (g.inlineAt e o).productionsOf i ↔ g.Inlined e o i p := by
  have heg := h.lt
  constructor
  · intro hp
    have hlt : i < g.size + 4 := by
      by_contra hge
      rw [productionsOf_of_size_le (by rw [h.size_inlineAt]; omega)] at hp
      exact List.not_mem_nil hp
    by_cases hie : i = e
    · subst hie
      rw [h.productionsOf_inlineAt_self] at hp
      obtain rfl := List.mem_singleton.1 hp
      exact .self
    -- Only the type of the step and the four new non-terminals have other productions than before.
    rcases Nat.lt_or_ge i g.size with hi | hi
    · rw [h.productionsOf_inlineAt_old hi hie] at hp
      exact .old hi hie hp
    obtain rfl | rfl | rfl | rfl : i = g.size ∨ i = g.size + 1 ∨ i = g.size + 2 ∨ i = g.size + 3 := by
      omega
    · rw [h.productionsOf_inlineAt_type] at hp
      obtain rfl := List.mem_singleton.1 hp
      exact .type
    · rw [h.productionsOf_inlineAt_tail] at hp
      rcases List.mem_pair.1 hp with rfl | rfl
      · exact .operator (Or.inl rfl)
      · exact .ending
    · obtain ⟨q, hq, rfl⟩ := List.mem_map.1 ((h.productionsOf_inlineAt_atom).mem_iff.1 hp)
      exact .atom hq
    · rw [h.productionsOf_inlineAt_forced] at hp
      obtain rfl := List.mem_singleton.1 hp
      exact .operator (Or.inr rfl)
  · intro hp
    cases hp with
    | old hi hie hp => rwa [h.productionsOf_inlineAt_old hi hie]
    | self =>
        rw [h.productionsOf_inlineAt_self]
        exact List.mem_cons_self
    | type =>
        rw [h.productionsOf_inlineAt_type]
        exact List.mem_cons_self
    | operator hi =>
        rcases hi with rfl | rfl
        · rw [h.productionsOf_inlineAt_tail]
          exact List.mem_cons_self
        · rw [h.productionsOf_inlineAt_forced]
          exact List.mem_cons_self
    | ending =>
        rw [h.productionsOf_inlineAt_tail]
        exact List.mem_cons_of_mem _ List.mem_cons_self
    | atom hp =>
        exact (h.productionsOf_inlineAt_atom).mem_iff.2 (List.mem_map_of_mem hp)

end Operatorless

end Grammar

end SmallLang
