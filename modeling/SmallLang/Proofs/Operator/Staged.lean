import SmallLang.Proofs.Assembly.Shape
import SmallLang.Proofs.Operator.Ladder

/-!
# Grammars between two steps of stratification

Stratification takes one non-terminal after the other, and each step reads productions that the
steps before it rewrote. `Grammar.Staged` is what holds all the time: the non-terminals that were
there from the beginning have productions of the declared forms, or climb from an operand into a
tail, and both of these are new. So units lead to types only, and operators are declared
productions.
-/

set_option autoImplicit false

namespace SmallLang

/-- The production is an operand and then a tail, both with numbers from `size` on. -/
def Production.Climbs (size : Nat) (p : Production) : Prop :=
  p.construction = .climb ∧
    ∃ a b, p.symbols = [.nonTerminal a, .nonTerminal b] ∧ size ≤ a ∧ size ≤ b

theorem mem_of_mem_replaceLast {α : Type} {xs : List α} {x y : α} (h : y ∈ replaceLast xs x) :
    y ∈ xs ∨ y = x := by
  rcases List.mem_append.1 h with h | h
  · exact Or.inl ((List.dropLast_sublist _).subset h)
  · exact Or.inr (List.mem_singleton.1 h)

namespace Production.Declared

variable {types size i : Nat} {p : Production}

theorem lt_of_unitTarget? (h : p.Declared types size i) {target : Nat}
    (ht : p.unitTarget? = some target) : i < types ∧ target < types := by
  obtain ⟨hsymbols, hc⟩ := Production.unitTarget?_eq_some_iff.1 ht
  cases h with
  | child place prec hi hs =>
      obtain rfl := hsymbols
      exact ⟨hi, hs _ List.mem_cons_self⟩
  | node kind slots prec hi hs => simp at hc
  | emptyList prec => simp at hc
  | listHead prec hi hs hrest hlt => simp at hc
  | listNext divider prec hi hs hrest hlt => simp at hc

/-- What begins with a non-terminal is declared by a type, and begins with one. -/
theorem lt_of_symbols_eq (h : p.Declared types size i) {f : Nat} {rest : List Symbol}
    (hs : p.symbols = .nonTerminal f :: rest) : i < types ∧ f < types := by
  cases h with
  | child place prec hi htypes =>
      obtain rfl := hs
      exact ⟨hi, htypes _ List.mem_cons_self⟩
  | node kind slots prec hi htypes =>
      obtain rfl := hs
      exact ⟨hi, htypes _ List.mem_cons_self⟩
  | emptyList prec => simp at hs
  | listHead prec hi htype hrest hlt =>
      obtain ⟨rfl, -⟩ := List.cons.inj hs
      exact ⟨hi, htype⟩
  | listNext divider prec hi htype hrest hlt => simp at hs

theorem construction_ne_climb (h : p.Declared types size i) : p.construction ≠ .climb := by
  cases h <;> exact Construction.noConfusion

end Production.Declared

namespace Grammar

/-- What holds of a grammar between two steps: it began with so many types and non-terminals, and
these have productions of the declared forms or climb into new non-terminals. -/
structure Staged (types size : Nat) (g : Grammar) : Prop where
  types_le : types ≤ size
  size_le : size ≤ g.size
  declared : ∀ i < size, ∀ p ∈ g.productionsOf i,
    p.Declared types size i ∨ (i < types ∧ p.Climbs size)
  hasSymbol : ∀ i, ∀ p ∈ g.productionsOf i, ∀ s ∈ p.symbols, g.HasSymbol s

namespace Staged

variable {types size : Nat} {g : Grammar} {e : Nat}

/-! ## The closure -/

theorem lt_of_unitTarget? (h : g.Staged types size) {i : Nat} (hi : i < size) {p : Production}
    (hp : p ∈ g.productionsOf i) {target : Nat} (ht : p.unitTarget? = some target) :
    i < types ∧ target < types := by
  rcases h.declared i hi p hp with hd | ⟨-, hclimb, -⟩
  · exact hd.lt_of_unitTarget? ht
  · have hc := (Production.unitTarget?_eq_some_iff.1 ht).2
    rw [hclimb] at hc
    exact absurd hc (by simp)

/-- Units lead to types. -/
theorem mem_unitClosure (h : g.Staged types size) (he : e < size) {m : Nat}
    (hm : m ∈ g.unitClosure e) : m = e ∨ (e < types ∧ m < types) := by
  have hpath := mem_unitClosure_iff.1 hm
  clear hm
  induction hpath with
  | refl => exact Or.inl rfl
  | @tail m target _ hstep ih =>
      obtain ⟨p, hp, ht, -⟩ := hstep
      rcases ih with rfl | ⟨het, hmt⟩
      · exact Or.inr (h.lt_of_unitTarget? he hp ht)
      · exact Or.inr ⟨het, (h.lt_of_unitTarget? (Nat.lt_of_lt_of_le hmt h.types_le) hp ht).2⟩

theorem lt_size_of_mem_unitClosure (h : g.Staged types size) (he : e < size) {m : Nat}
    (hm : m ∈ g.unitClosure e) : m < size := by
  rcases h.mem_unitClosure he hm with rfl | ⟨-, hlt⟩
  · exact he
  · exact Nat.lt_of_lt_of_le hlt h.types_le

theorem lt_of_mem_unitClosure (h : g.Staged types size) (he : e < types) {m : Nat}
    (hm : m ∈ g.unitClosure e) : m < types := by
  rcases h.mem_unitClosure (Nat.lt_of_lt_of_le he h.types_le) hm with rfl | ⟨-, hlt⟩
  · exact he
  · exact hlt

/-- An operator is a declared production of a type. -/
theorem declared_of_isOperatorOn (h : g.Staged types size) (he : e < size) {m : Nat}
    {p : Production} (hm : m ∈ g.unitClosure e) (hp : p ∈ g.productionsOf m)
    (hop : p.isOperatorOn e = true) : p.Declared types size m ∧ e < types ∧ m < types := by
  obtain ⟨s, rest, hs⟩ := Production.isOperatorOn_iff.1 hop
  rcases h.declared m (h.lt_size_of_mem_unitClosure he hm) p hp with hd | ⟨-, -, a, b, hsymbols, ha, -⟩
  · obtain ⟨hmt, het⟩ := hd.lt_of_symbols_eq hs
    exact ⟨hd, het, hmt⟩
  · rw [hsymbols] at hs
    obtain ⟨hae, -⟩ := List.cons.inj hs
    obtain rfl := Symbol.nonTerminal.inj hae
    exact absurd he (Nat.not_lt.2 ha)

/-- What begins with an old non-terminal and goes on is not a climb. -/
theorem construction_ne_climb (h : g.Staged types size) (he : e < size) {m : Nat} {p : Production}
    (hm : m < size) (hp : p ∈ g.productionsOf m) (hop : p.isOperatorOn e = true) :
    p.construction ≠ .climb := by
  rcases h.declared m hm p hp with hd | ⟨-, -, a, b, hsymbols, ha, -⟩
  · exact hd.construction_ne_climb
  · obtain ⟨s, rest, hs⟩ := Production.isOperatorOn_iff.1 hop
    rw [hsymbols] at hs
    obtain rfl := Symbol.nonTerminal.inj (List.cons.inj hs).1
    exact absurd he (Nat.not_lt.2 ha)

/-- Only types have operators. -/
theorem lt_types_of_operatorsOn_ne_nil (h : g.Staged types size) (he : e < size)
    (hops : g.operatorsOn e ≠ []) : e < types := by
  obtain ⟨op, hop⟩ := List.exists_mem_of_ne_nil _ hops
  obtain ⟨m, i, p, hm, hp, hisop, -⟩ := mem_operatorsOn_iff.1 hop
  exact (h.declared_of_isOperatorOn he hm (mem_productionsOf_iff.2 ⟨i, hp⟩) hisop).2.1

end Staged

/-! ## The numbers of a ladder -/

/-- The operand of a prefix operator is the head of a level, or the atoms. -/
theorem prefixOperand_cases (g : Grammar) (e : Nat) (prec : Prec) :
    (∃ k, k < (g.ladderAt e).height ∧
        (g.ladderAt e).prefixOperand prec = (g.ladderAt e).head k) ∨
      (g.ladderAt e).prefixOperand prec = (g.ladderAt e).atom := by
  simp only [Ladder.prefixOperand]
  cases hfind : (g.ladderAt e).levels.findIdx? _ with
  | none => exact Or.inr rfl
  | some k => exact Or.inl ⟨k, (List.findIdx?_eq_some_iff_getElem.1 hfind).1, rfl⟩

section Numbers

variable {g : Grammar} {e : Nat} (h : g.operatorsOn e ≠ [])
include h

theorem size_le_stratifyAt : g.size ≤ (g.stratifyAt e).size := by
  rw [size_stratifyAt h]
  omega

theorem tail_bounds {k : Nat} (hk : k < (g.ladderAt e).height) :
    g.size ≤ (g.ladderAt e).tail k ∧ (g.ladderAt e).tail k < (g.stratifyAt e).size := by
  rw [size_stratifyAt h, Ladder.tail, ladderAt_first]
  omega

theorem atom_bounds :
    g.size ≤ (g.ladderAt e).atom ∧ (g.ladderAt e).atom < (g.stratifyAt e).size := by
  have hpos := height_ladderAt_pos h
  rw [size_stratifyAt h, Ladder.atom, ladderAt_first]
  omega

theorem head_bounds {k : Nat} (hpos : 0 < k) (hk : k < (g.ladderAt e).height) :
    g.size ≤ (g.ladderAt e).head k ∧ (g.ladderAt e).head k < (g.stratifyAt e).size := by
  rw [size_stratifyAt h, Ladder.head_of_pos hpos, ladderAt_first]
  omega

theorem head_lt (he : e < g.size) {k : Nat} (hk : k < (g.ladderAt e).height) :
    (g.ladderAt e).head k < (g.stratifyAt e).size := by
  rcases Nat.eq_zero_or_pos k with rfl | hpos
  · rw [Ladder.head_zero, ladderAt_base]
    exact Nat.lt_of_lt_of_le he (size_le_stratifyAt h)
  · exact (head_bounds h hpos hk).2

theorem operand_bounds {k : Nat} :
    g.size ≤ (g.ladderAt e).operand k ∧ (g.ladderAt e).operand k < (g.stratifyAt e).size := by
  rcases (g.ladderAt e).operand_eq k with ⟨hk, heq⟩ | ⟨-, heq⟩
  · rw [heq]
    exact head_bounds h (Nat.succ_pos k) hk
  · rw [heq]
    exact atom_bounds h

theorem forced_bounds {j : Nat} (hj : j < (g.declaredOperators e).length) :
    g.size ≤ (g.ladderAt e).forced j ∧ (g.ladderAt e).forced j < (g.stratifyAt e).size := by
  rw [size_stratifyAt h, Ladder.forced, ladderAt_first]
  omega

theorem rightOperand_lt (he : e < g.size) {op : OperatorUse} (hop : op ∈ g.operatorsOn e) :
    (g.ladderAt e).rightOperand op < (g.stratifyAt e).size := by
  have hlevel := Ladder.levelOf_lt (mem_levels_ladderAt_iff.2 ⟨op, hop, rfl⟩)
  simp only [Ladder.rightOperand]
  split
  · exact head_lt h he hlevel
  · exact (operand_bounds h).2

theorem prefixOperand_lt (he : e < g.size) (prec : Prec) :
    (g.ladderAt e).prefixOperand prec < (g.stratifyAt e).size := by
  rcases prefixOperand_cases g e prec with ⟨k, hk, heq⟩ | heq
  · rw [heq]
    exact head_lt h he hk
  · rw [heq]
    exact (atom_bounds h).2

end Numbers

/-! ## One step -/

/-- What symbols an operator has in its tail. -/
theorem mem_tailProduction {g : Grammar} {e : Nat} {op : OperatorUse} {s : Symbol}
    (hs : s ∈ ((g.ladderAt e).tailProduction op).symbols) :
    s ∈ op.rest ∨ s = .nonTerminal ((g.ladderAt e).rightOperand op) ∨
      s = .nonTerminal ((g.ladderAt e).tail ((g.ladderAt e).levelOf op.prec.priority)) := by
  have hinner : ∀ x, x ∈ (if (g.ladderAt e).isInfix op then
      replaceLast op.rest (.nonTerminal ((g.ladderAt e).rightOperand op)) else op.rest) →
      x ∈ op.rest ∨ x = .nonTerminal ((g.ladderAt e).rightOperand op) := by
    intro x hx
    split at hx
    · exact mem_of_mem_replaceLast hx
    · exact Or.inl hx
  simp only [Ladder.tailProduction] at hs
  split at hs
  · rcases List.mem_append.1 hs with hs | hs
    · exact (hinner s hs).imp_right Or.inl
    · exact Or.inr (Or.inr (List.mem_singleton.1 hs))
  · exact (hinner s hs).imp_right Or.inl

theorem mem_atomProduction {g : Grammar} {e : Nat} {p : Production} {s : Symbol}
    (hs : s ∈ ((g.ladderAt e).atomProduction p).symbols) :
    s ∈ p.symbols ∨ s = .nonTerminal ((g.ladderAt e).prefixOperand p.prec) := by
  rw [Ladder.atomProduction] at hs
  split at hs
  · exact mem_of_mem_replaceLast hs
  · exact Or.inl hs

namespace Staged

variable {types size : Nat} {g : Grammar} {e : Nat}

theorem hasSymbol_of_operator (h : g.Staged types size) {op : OperatorUse}
    (hop : op ∈ g.operatorsOn e) : ∀ s ∈ op.rest, g.HasSymbol s := by
  obtain ⟨m, i, p, -, hp, -, rfl⟩ := mem_operatorsOn_iff.1 hop
  intro s hs
  exact h.hasSymbol m p (mem_productionsOf_iff.2 ⟨i, hp⟩) s (List.mem_of_mem_tail hs)

theorem hasSymbol_stratifyAt (h : g.Staged types size) (he : e < size)
    (hops : g.operatorsOn e ≠ []) {nt : Nat} {p : Production} (hp : g.Stratified e nt p) :
    ∀ s ∈ p.symbols, (g.stratifyAt e).HasSymbol s := by
  have hold : ∀ s, g.HasSymbol s → (g.stratifyAt e).HasSymbol s := by
    intro s hs
    cases s with
    | nonTerminal i => exact Nat.lt_of_lt_of_le hs (size_le_stratifyAt hops)
    | terminal i =>
        rw [Grammar.HasSymbol, stratifyAt_arena]
        exact hs
  have hes : e < g.size := Nat.lt_of_lt_of_le he h.size_le
  have hclimb : ∀ k next, next < (g.stratifyAt e).size →
      ∀ s ∈ ((g.ladderAt e).climbProduction k next).symbols, (g.stratifyAt e).HasSymbol s := by
    intro k next hnext s hs
    simp only [Ladder.climbProduction, List.mem_cons, List.not_mem_nil, or_false] at hs
    rcases hs with rfl | rfl
    · exact (operand_bounds hops).2
    · exact hnext
  have hoperator : ∀ op ∈ g.operatorsOn e, ∀ s ∈ ((g.ladderAt e).tailProduction op).symbols,
      (g.stratifyAt e).HasSymbol s := by
    intro op hop s hs
    rcases mem_tailProduction hs with hs | rfl | rfl
    · exact hold s (h.hasSymbol_of_operator hop s hs)
    · exact rightOperand_lt hops hes hop
    · exact (tail_bounds hops (Ladder.levelOf_lt (mem_levels_ladderAt_iff.2 ⟨op, hop, rfl⟩))).2
  -- Old symbols stay, and the new ones are the operands, tails and forced operators of the ladder.
  cases hp with
  | @kept i k q hi hq =>
      rcases keptProduction_cases g e nt k q with heq | ⟨j, op, hop, -, heq⟩
      · rw [heq]
        exact fun s hs => hold s (h.hasSymbol nt q (mem_productionsOf_iff.2 ⟨k, hq⟩) s hs)
      · rw [heq]
        exact hclimb _ _ (forced_bounds hops (List.getElem?_eq_some_iff.1 hop).1).2
  | head hk => exact hclimb _ _ (tail_bounds hops hk).2
  | operator hop => exact hoperator _ hop
  | ending hk => exact fun s hs => absurd hs List.not_mem_nil
  | @atom q hq =>
      intro s hs
      rcases mem_atomProduction hs with hs | rfl
      · obtain ⟨m, -, hq, -⟩ := mem_atomsOf_iff.1 hq
        exact hold s (h.hasSymbol m q hq s hs)
      · exact prefixOperand_lt hops hes q.prec
  | forced hop => exact hoperator _ (List.mem_filter.1 (List.mem_of_getElem? hop)).1

/-- A step keeps the forms of the productions that were there from the beginning. -/
theorem declared_stratifyAt (h : g.Staged types size) (he : e < size)
    (hops : g.operatorsOn e ≠ []) {nt : Nat} (hnt : nt < size) {p : Production}
    (hp : g.Stratified e nt p) : p.Declared types size nt ∨ (nt < types ∧ p.Climbs size) := by
  have het := h.lt_types_of_operatorsOn_ne_nil he hops
  have hge := h.size_le
  have hoperand : ∀ k, size ≤ (g.ladderAt e).operand k := fun k =>
    Nat.le_trans hge (operand_bounds hops).1
  cases hp with
  | @kept i k q hi hq =>
      rcases keptProduction_cases g e nt k q with heq | ⟨j, op, hop, horigin, heq⟩
      · rw [heq]
        exact h.declared nt hnt q (mem_productionsOf_iff.2 ⟨k, hq⟩)
      · obtain ⟨m, i', q', hm, -, -, rfl⟩ :=
          mem_operatorsOn_iff.1 (List.mem_filter.1 (List.mem_of_getElem? hop)).1
        -- The origin of an operator is in the closure.
        have hmt : nt < types := by
          simp only [operatorUse] at horigin
          split at horigin
          · exact absurd horigin (by simp)
          · obtain ⟨rfl, -⟩ : m = nt ∧ i' = k := by simpa using horigin
            exact h.lt_of_mem_unitClosure het hm
        rw [heq]
        exact Or.inr ⟨hmt, rfl, _, _, rfl, hoperand _,
          Nat.le_trans hge (forced_bounds hops (List.getElem?_eq_some_iff.1 hop).1).1⟩
  | @head k hk =>
      have hzero : k = 0 := by
        by_contra hne
        have := (head_bounds hops (Nat.pos_of_ne_zero hne) hk).1
        omega
      subst hzero
      exact Or.inr ⟨het, rfl, _, _, rfl, hoperand _, Nat.le_trans hge (tail_bounds hops hk).1⟩
  | operator hop =>
      have := (tail_bounds hops (Ladder.levelOf_lt (mem_levels_ladderAt_iff.2 ⟨_, hop, rfl⟩))).1
      omega
  | ending hk =>
      have := (tail_bounds hops hk).1
      omega
  | atom hq =>
      have := (atom_bounds hops).1
      omega
  | forced hop =>
      have := (forced_bounds hops (List.getElem?_eq_some_iff.1 hop).1).1
      omega

theorem stratifyAt (h : g.Staged types size) (he : e < size) :
    (g.stratifyAt e).Staged types size := by
  by_cases hops : g.operatorsOn e = []
  · rw [stratifyAt_of_eq_nil hops]
    exact h
  have hes : e < g.size := Nat.lt_of_lt_of_le he h.size_le
  refine ⟨h.types_le, Nat.le_trans h.size_le (size_le_stratifyAt hops), ?_, ?_⟩
  · intro i hi p hp
    exact h.declared_stratifyAt he hops hi ((mem_productionsOf_stratifyAt_iff hops hes).1 hp)
  · intro i p hp
    exact h.hasSymbol_stratifyAt he hops ((mem_productionsOf_stratifyAt_iff hops hes).1 hp)

/-- A step changes nothing that steps have added. -/
theorem productionsOf_stratifyAt_of_le (h : g.Staged types size) (he : e < size) {nt : Nat}
    (hge : size ≤ nt) (hlt : nt < g.size) : (g.stratifyAt e).productionsOf nt = g.productionsOf nt := by
  refine productionsOf_stratifyAt_of_not hlt (Or.inl (by omega)) fun i ⟨op, hop, ho⟩ => ?_
  obtain ⟨p, hm, -⟩ := exists_of_origin hop ho
  exact absurd (h.lt_size_of_mem_unitClosure he hm) (Nat.not_lt.2 hge)

end Staged

/-! ## All steps -/

/-- The grammar after so many steps. -/
def stage (g : Grammar) (k : Nat) : Grammar := (List.range k).foldl Grammar.stratifyAt g

@[simp] theorem stage_zero (g : Grammar) : g.stage 0 = g := rfl

theorem stage_succ (g : Grammar) (k : Nat) : g.stage (k + 1) = (g.stage k).stratifyAt k := by
  rw [stage, List.range_succ, List.foldl_append]
  rfl

theorem stratify_eq_stage (g : Grammar) : g.stratify = g.stage g.size := rfl

@[simp] theorem stage_arena (g : Grammar) (k : Nat) : (g.stage k).arena = g.arena := by
  induction k with
  | zero => rfl
  | succ k ih => rw [stage_succ, stratifyAt_arena, ih]

@[simp] theorem stage_start (g : Grammar) (k : Nat) : (g.stage k).start = g.start := by
  induction k with
  | zero => rfl
  | succ k ih => rw [stage_succ, stratifyAt_start, ih]

theorem Staged.stage {types : Nat} {g : Grammar} (h : g.Staged types g.size) {k : Nat}
    (hk : k ≤ g.size) : (g.stage k).Staged types g.size := by
  induction k with
  | zero => exact h
  | succ k ih =>
      rw [stage_succ]
      exact (ih (Nat.le_of_succ_le hk)).stratifyAt hk

theorem stratify_start (g : Grammar) : g.stratify.start = g.start := stage_start g g.size

theorem Staged.stratify {types : Nat} {g : Grammar} (h : g.Staged types g.size) :
    g.stratify.Staged types g.size := h.stage (Nat.le_refl g.size)

/-- A lowered grammar of built types is where stratification can begin. -/
theorem staged_of_lowered {ns : Naming} {declared : List NodeType} {lowered : Lowered}
    (h : ns.Makes declared lowered) (hbuilt : ∀ t ∈ ns.types, t.Built) :
    lowered.grammar.Staged ns.types.length lowered.grammar.size := by
  refine ⟨h.length_types_le, Nat.le_refl _, ?_, fun i p hp => h.hasSymbol hp⟩
  intro i _ p hp
  obtain ⟨t, ht, r, hr, hprod⟩ := (h.mem_productionsOf_iff i p).1 hp
  rw [h.size]
  exact Or.inl (Naming.declared_of_built ht hr ((hbuilt t ht).rules r hr) hprod)

/-- A stratified grammar refers to nothing that it does not have. -/
theorem Staged.wellFormed_stratify {types : Nat} {g : Grammar} (h : g.Staged types g.size)
    (hstart : g.start < g.size) : g.stratify.WellFormed := by
  have hstaged := h.stage (Nat.le_refl g.size)
  rw [stratify_eq_stage]
  refine ⟨?_, fun nt hnt p hp => ?_⟩
  · rw [stage_start]
    exact Nat.lt_of_lt_of_le hstart hstaged.size_le
  · obtain ⟨i, hi⟩ := List.mem_iff_getElem?.1 hnt
    refine hstaged.hasSymbol i p ?_
    rw [productionsOf_of_getElem? hi]
    exact hp

end Grammar

end SmallLang
