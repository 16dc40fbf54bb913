import SmallLang.Proofs.Renumbering.Stratify

/-!
# One more infix operator

`Grammar.addInfix` adds an infix operator on one non-terminal to a grammar: a terminal, a non-terminal for
the type of the operator, and one more alternative. The step of another non-terminal whose alternatives
do not include the operands is the same before and after (`Grammar.Staged.exists_stratifyAt_addInfix`), so
all other steps can be done before the operator is added (`Grammar.Staged.exists_foldl_addInfix`).
-/

set_option autoImplicit false

namespace SmallLang

open Equiv (Perm)

/-- An infix operator: the name of its type, its terminal, what it builds, its precedence, and the
precedence of its type where it replaces the type of its operands. -/
structure AddedInfix where
  name : String
  sign : Terminal
  construction : Construction
  prec : Prec
  replaces : Prec

namespace Grammar

variable {g g' : Grammar} {r : Renumbering} {e x types size : Nat} {o : AddedInfix}

/-- The production of the operator's type. Its terminal gets the first new number. -/
def infixProduction (g : Grammar) (e : Nat) (o : AddedInfix) : Production :=
  ⟨[.nonTerminal e, .terminal g.arena.size, .nonTerminal e], o.construction, o.prec⟩

/-- The alternative that hands on the operator's type, which gets the first new number. -/
def infixUnit (g : Grammar) (o : AddedInfix) : Production := ⟨[.nonTerminal g.size], .child 0, o.replaces⟩

/-- The grammar with the operator on `e`. -/
def addInfix (g : Grammar) (e : Nat) (o : AddedInfix) : Grammar where
  nonTerminals :=
    g.nonTerminals.modify e (fun nt => ⟨nt.name, nt.productions ++ [g.infixUnit o]⟩) ++
      [⟨o.name, [g.infixProduction e o]⟩]
  arena := ⟨g.arena.terminals ++ [o.sign]⟩
  start := g.start

/-! ## What is added -/

@[simp] theorem addInfix_start (g : Grammar) (e : Nat) (o : AddedInfix) :
    (g.addInfix e o).start = g.start := rfl

theorem size_addInfix (g : Grammar) (e : Nat) (o : AddedInfix) :
    (g.addInfix e o).size = g.size + 1 := by
  simp [size, addInfix]

theorem arena_size_addInfix (g : Grammar) (e : Nat) (o : AddedInfix) :
    (g.addInfix e o).arena.size = g.arena.size + 1 := by
  simp [Arena.size, addInfix]

/-- The production of the operator's type does not mention what is exchanged. -/
theorem production_infixProduction_exchange {n a b : Nat} (he : e < n) :
    Renumbering.production (.exchange n a b) (g.infixProduction e o) = g.infixProduction e o := by
  have hsymbols : ∀ s ∈ (g.infixProduction e o).symbols,
      (Renumbering.exchange n a b).symbol s = Renumbering.refl.symbol s := by
    intro s hs
    rcases s with j | j
    · obtain rfl : j = e := by simpa [infixProduction] using hs
      exact congrArg Symbol.nonTerminal (exchange_of_lt he)
    · rfl
  rw [Renumbering.production_congr _ .refl hsymbols rfl, Renumbering.production_refl]

/-- The operator's type may get a number between the old ones. -/
theorem production_infixUnit_exchange {n a : Nat} (hsize : g.size = n + a) :
    Renumbering.production (.exchange n a 1) (g.infixUnit o) =
      ⟨[.nonTerminal n], .child 0, o.replaces⟩ := by
  rw [infixUnit, hsize]
  exact congrArg (fun m => (⟨[.nonTerminal m], .child 0, o.replaces⟩ : Production))
    (exchange_one_add n a)

theorem productionsOf_addInfix_self (he : e < g.size) :
    (g.addInfix e o).productionsOf e = g.productionsOf e ++ [g.infixUnit o] := by
  obtain ⟨nt, hnt⟩ := getElem?_eq_some_of_lt_size he
  have hlt : e < (g.nonTerminals.modify e fun nt => ⟨nt.name, nt.productions ++ [g.infixUnit o]⟩).length := by
    rw [List.length_modify]
    exact he
  rw [productionsOf, addInfix, List.getElem?_append_left hlt, List.getElem?_modify_eq, hnt,
    productionsOf_of_getElem? hnt]
  rfl

theorem productionsOf_addInfix_new (g : Grammar) (e : Nat) (o : AddedInfix) :
    (g.addInfix e o).productionsOf g.size = [g.infixProduction e o] := by
  rw [productionsOf, addInfix, List.getElem?_append_right (by simp [size])]
  simp [size]

theorem productionsOf_addInfix_of_ne {i : Nat} (hne : i ≠ e) (hnew : i ≠ g.size) :
    (g.addInfix e o).productionsOf i = g.productionsOf i := by
  rcases Nat.lt_or_gt_of_ne hnew with hlt | hgt
  · have hlt' : i < (g.nonTerminals.modify e fun nt =>
        ⟨nt.name, nt.productions ++ [g.infixUnit o]⟩).length := by
      rw [List.length_modify]
      exact hlt
    rw [productionsOf, addInfix, List.getElem?_append_left hlt', List.getElem?_modify_ne _ _ hne.symm,
      productionsOf]
  · rw [productionsOf_of_size_le (by rw [size_addInfix]; omega),
      productionsOf_of_size_le (Nat.le_of_lt hgt)]

/-- What is added comes after all other productions. -/
theorem productionsOf_addInfix_eq (he : e < g.size) (i : Nat) :
    (g.addInfix e o).productionsOf i = g.productionsOf i ++
      ([(g.size, g.infixProduction e o), (e, g.infixUnit o)].filter (·.1 == i)).map Prod.snd := by
  by_cases hnew : i = g.size
  · subst hnew
    have hne : (e == g.size) = false := by simpa using Nat.ne_of_lt he
    rw [productionsOf_addInfix_new, productionsOf_of_size_le (Nat.le_refl _)]
    simp [hne]
  have hnew' : (g.size == i) = false := by simpa using Ne.symm hnew
  by_cases hie : i = e
  · subst hie
    rw [productionsOf_addInfix_self he]
    simp [hnew']
  · have hie' : (e == i) = false := by simpa using Ne.symm hie
    rw [productionsOf_addInfix_of_ne hie hnew]
    simp [hnew', hie']

/-- Symbols that were there stay. -/
theorem hasSymbol_addInfix {s : Symbol} (hs : g.HasSymbol s) : (g.addInfix e o).HasSymbol s := by
  cases s with
  | nonTerminal i => exact Nat.lt_of_lt_of_le hs (by rw [size_addInfix]; omega)
  | terminal i => exact Nat.lt_of_lt_of_le hs (by rw [arena_size_addInfix]; omega)

theorem mem_productionsOf_addInfix {i : Nat} {p : Production}
    (hp : p ∈ (g.addInfix e o).productionsOf i) :
    p ∈ g.productionsOf i ∨ i = e ∧ p = g.infixUnit o ∨ i = g.size ∧ p = g.infixProduction e o := by
  by_cases hnew : i = g.size
  · subst hnew
    rw [productionsOf_addInfix_new] at hp
    exact Or.inr (Or.inr ⟨rfl, List.mem_singleton.1 hp⟩)
  by_cases hie : i = e
  · subst hie
    by_cases hlt : i < g.size
    · rw [productionsOf_addInfix_self hlt] at hp
      exact (List.mem_append.1 hp).imp id fun hp => Or.inl ⟨rfl, List.mem_singleton.1 hp⟩
    · rw [productionsOf_of_size_le (by rw [size_addInfix]; omega)] at hp
      exact absurd hp List.not_mem_nil
  · rw [productionsOf_addInfix_of_ne hie hnew] at hp
    exact Or.inl hp

theorem HasSymbols.addInfix (hg : g.HasSymbols) (he : e < g.size) : (g.addInfix e o).HasSymbols := by
  intro i p hp s hs
  rcases mem_productionsOf_addInfix hp with hp | ⟨-, rfl⟩ | ⟨-, rfl⟩
  · exact hasSymbol_addInfix (hg i p hp s hs)
  · obtain rfl := List.mem_singleton.1 hs
    exact Nat.lt_of_lt_of_eq (Nat.lt_succ_self _) (size_addInfix g e o).symm
  · simp only [infixProduction, List.mem_cons, List.not_mem_nil, or_false] at hs
    rcases hs with rfl | rfl | rfl
    · exact Nat.lt_of_lt_of_le he (by rw [size_addInfix]; omega)
    · exact Nat.lt_of_lt_of_eq (Nat.lt_succ_self _) (arena_size_addInfix g e o).symm
    · exact Nat.lt_of_lt_of_le he (by rw [size_addInfix]; omega)

/-! ## The step of another non-terminal -/

namespace Staged

variable (h : g.Staged types size) (hx : x < size)
include h hx

section Apart

variable (hout : e ∉ g.unitClosure x)
include hout

/-- What a step reads is not changed where its alternatives do not include the operands. -/
theorem productionsOf_addInfix {m : Nat} (hm : m ∈ g.unitClosure x) :
    (g.addInfix e o).productionsOf m = g.productionsOf m := by
  have hlt := Nat.lt_of_lt_of_le (h.lt_size_of_mem_unitClosure hx hm) h.size_le
  refine productionsOf_addInfix_of_ne ?_ (Nat.ne_of_lt hlt)
  rintro rfl
  exact hout hm

theorem unitClosure_addInfix : (g.addInfix e o).unitClosure x = g.unitClosure x := by
  refine Reach.reachable_congr (fun m hm => ?_) fun m hm t ht => ?_
  · rw [h.productionsOf_addInfix hx hout hm]
  · obtain ⟨p, hp, ht⟩ := List.mem_filterMap.1 ht
    have hlt := (h.lt_of_unitTarget? (h.lt_size_of_mem_unitClosure hx hm) hp ht).2
    have hle := h.types_le
    have hge := h.size_le
    rw [size_addInfix]
    omega

theorem operatorsOn_addInfix : (g.addInfix e o).operatorsOn x = g.operatorsOn x := by
  rw [operatorsOn, operatorsOn, h.unitClosure_addInfix hx hout]
  refine List.flatMap_congr fun m hm => ?_
  rw [h.productionsOf_addInfix hx hout hm]

theorem atomsOf_addInfix : (g.addInfix e o).atomsOf x = g.atomsOf x := by
  rw [atomsOf, atomsOf, h.unitClosure_addInfix hx hout]
  refine List.flatMap_congr fun m hm => ?_
  rw [h.productionsOf_addInfix hx hout hm]

end Apart

/-- The operator's type is the only one that a closure can have more. -/
theorem mem_unitClosure_addInfix {m : Nat} (hm : m ∈ (g.addInfix e o).unitClosure x) :
    m ∈ g.unitClosure x ∨ m = g.size := by
  have hpath := mem_unitClosure_iff.1 hm
  clear hm
  induction hpath with
  | refl => exact Or.inl (self_mem_unitClosure g x)
  | @tail a b _ hstep ih =>
      obtain ⟨q, hq, ht, -⟩ := hstep
      rcases mem_productionsOf_addInfix hq with hq | ⟨-, rfl⟩ | ⟨-, rfl⟩
      · rcases ih with ha | rfl
        · have hlt := (h.lt_of_unitTarget? (h.lt_size_of_mem_unitClosure hx ha) hq ht).2
          have hstep : g.UnitStep a b :=
            ⟨q, hq, ht, Nat.lt_of_lt_of_le (Nat.lt_of_lt_of_le hlt h.types_le) h.size_le⟩
          exact Or.inl (mem_unitClosure_iff.2 ((mem_unitClosure_iff.1 ha).tail hstep))
        · rw [productionsOf_of_size_le (Nat.le_refl _)] at hq
          exact absurd hq List.not_mem_nil
      · obtain rfl := Option.some.inj ht
        exact Or.inr rfl
      · exact absurd ht (by simp [infixProduction, Production.unitTarget?])

/-- The added operator is no operator on another non-terminal. -/
theorem operatorsOn_addInfix_eq_nil (hne : x ≠ e) (hops : g.operatorsOn x = []) :
    (g.addInfix e o).operatorsOn x = [] := by
  refine List.eq_nil_iff_forall_not_mem.2 fun op hop => ?_
  obtain ⟨m, i, p, hm, hp, hisop, -⟩ := mem_operatorsOn_iff.1 hop
  rcases mem_productionsOf_addInfix (mem_productionsOf_iff.2 ⟨i, hp⟩) with hq | ⟨-, rfl⟩ | ⟨-, rfl⟩
  · rcases h.mem_unitClosure_addInfix hx hm with hm | rfl
    · obtain ⟨j, hj⟩ := mem_productionsOf_iff.1 hq
      have hop := mem_operatorsOn_iff.2 ⟨m, j, p, hm, hj, hisop, rfl⟩
      rw [hops] at hop
      exact absurd hop List.not_mem_nil
    · rw [productionsOf_of_size_le (Nat.le_refl _)] at hq
      exact absurd hq List.not_mem_nil
  · exact absurd hisop Bool.false_ne_true
  · exact hne (beq_iff_eq.1 hisop).symm

section Step

variable (hne : x ≠ e) (hops : g.operatorsOn x ≠ []) (hout : e ∉ g.unitClosure x) {a : Nat}
  (ha : (g.stratifyAt x).size = g.size + a)
include hops hout ha

theorem movesLadder_addInfix :
    MovesLadder (.exchange g.size a 1) (fun _ => Equiv.refl Nat) (Equiv.refl Nat) g (g.addInfix e o)
      x :=
  movesLadder_of_eq hops (h.operatorsOn_addInfix hx hout) ha (size_addInfix g e o) h.hasSymbol
    (Nat.lt_of_lt_of_le hx h.size_le) (h.atomsOf_addInfix hx hout)

omit hx hops hout ha in
theorem production_exchange {i b : Nat} {p : Production} (hp : p ∈ g.productionsOf i) :
    Renumbering.production (.exchange g.size a b) p = p := by
  rw [(agreesBelow_exchange g a b).production_eq (h.hasSymbol i p hp), Renumbering.production_refl]

omit hops in
/-- The step leaves the operator's type as it is. -/
theorem productionsOf_type_stratifyAt_addInfix (he : e < g.size) :
    ((g.addInfix e o).stratifyAt x).productionsOf g.size =
      (((g.stratifyAt x).addInfix e o).productionsOf (g.size + a)).map
        (Renumbering.production (.exchange g.size a 1)) := by
  have hnot : ∀ k, ¬ ∃ op ∈ (g.addInfix e o).operatorsOn x, op.origin = some (g.size, k) := by
    rintro k ⟨op, hop, ho⟩
    rw [h.operatorsOn_addInfix hx hout] at hop
    obtain ⟨p, hm, -⟩ := exists_of_origin hop ho
    exact absurd (h.lt_size_of_mem_unitClosure hx hm) (Nat.not_lt.2 h.size_le)
  have hsame : (g.stratifyAt x).infixProduction e o = g.infixProduction e o := by
    rw [infixProduction, infixProduction, stratifyAt_arena]
  have hxne : g.size ≠ x := Nat.ne_of_gt (Nat.lt_of_lt_of_le hx h.size_le)
  rw [productionsOf_stratifyAt_of_not (by rw [size_addInfix]; omega) (Or.inl hxne) hnot,
    productionsOf_addInfix_new, ← ha, productionsOf_addInfix_new, List.map_singleton, hsame,
    production_infixProduction_exchange he]

include hne

/-- The step adds nothing to the alternatives of the operands, and takes nothing from them. -/
theorem productionsOf_self_stratifyAt_addInfix (he : e < g.size) :
    ((g.addInfix e o).stratifyAt x).productionsOf e =
      (((g.stratifyAt x).addInfix e o).productionsOf e).map
        (Renumbering.production (.exchange g.size a 1)) := by
  have hlt : e < (g.stratifyAt x).size := Nat.lt_of_lt_of_le he (size_le_stratifyAt hops)
  have hnot : ∀ i, ¬ ∃ op ∈ g.operatorsOn x, op.origin = some (e, i) := fun i ⟨op, hop, ho⟩ => by
    obtain ⟨p, hm, -⟩ := exists_of_origin hop ho
    exact hout hm
  have hnot' : ∀ i, ¬ ∃ op ∈ (g.addInfix e o).operatorsOn x, op.origin = some (e, i) := by
    rwa [h.operatorsOn_addInfix hx hout]
  have hunit : (Renumbering.exchange g.size a 1).production ((g.stratifyAt x).infixUnit o) =
      g.infixUnit o := production_infixUnit_exchange ha
  rw [productionsOf_stratifyAt_of_not (by rw [size_addInfix]; omega) (Or.inl hne.symm) hnot',
    productionsOf_addInfix_self he, productionsOf_addInfix_self hlt,
    productionsOf_stratifyAt_of_not he (Or.inl hne.symm) hnot, List.map_append, List.map_singleton,
    hunit, List.map_congr_left fun p hp => h.production_exchange hp, List.map_id']

/-- What the step makes of another old non-terminal does not depend on the added operator. -/
theorem productionsOf_old_stratifyAt_addInfix {i : Nat} (hi : i < g.size) (hie : i ≠ e) :
    ((g.addInfix e o).stratifyAt x).productionsOf i =
      (((g.stratifyAt x).addInfix e o).productionsOf i).map
        (Renumbering.production (.exchange g.size a 1)) := by
  have hmoves := h.movesLadder_addInfix (o := o) hx hops hout ha
  have hxg := Nat.lt_of_lt_of_le hx h.size_le
  have hops' : (g.addInfix e o).operatorsOn x ≠ [] := by rwa [h.operatorsOn_addInfix hx hout]
  have hnumber : ∀ {j}, j < g.size → (Renumbering.exchange g.size a 1).nonTerminal j = j :=
    fun hj => exchange_of_lt hj
  have hlt : i < (g.addInfix e o).size := by rw [size_addInfix]; omega
  rw [productionsOf_addInfix_of_ne hie (by rw [ha]; omega)]
  by_cases hix : i = x
  · subst hix
    have hbase := hmoves.productionsOf_base hops hxg (by rwa [hnumber hxg])
    rwa [hnumber hxg] at hbase
  · rw [productionsOf_kept hops' hlt hix, productionsOf_kept hops hi hix,
      productionsOf_addInfix_of_ne hie (Nat.ne_of_lt hi), List.map_map]
    refine List.map_congr_left ?_
    rintro ⟨p, k⟩ hp
    have hpmem := List.mem_of_getElem? (List.mk_mem_zipIdx_iff_getElem?.1 hp)
    have hkept := hmoves.keptProduction_eq i k p
    rw [hnumber hxg, hnumber hi, h.production_exchange hpmem] at hkept
    exact hkept

end Step

/-- The step of another non-terminal can be done before the operator is added. -/
theorem exists_stratifyAt_addInfix (hstart : g.start < g.size) (he : e < g.size) (hne : x ≠ e)
    (hout : g.operatorsOn x ≠ [] → e ∉ g.unitClosure x) :
    ∃ r, Renumbers r ((g.stratifyAt x).addInfix e o) ((g.addInfix e o).stratifyAt x) ∧
      Renumbering.AgreesBelow g.size .refl r := by
  by_cases hops : g.operatorsOn x = []
  · rw [stratifyAt_of_eq_nil hops, stratifyAt_of_eq_nil (h.operatorsOn_addInfix_eq_nil hx hne hops)]
    exact ⟨.refl, .refl _, .refl _ _⟩
  have hout' := hout hops
  have hoperators := h.operatorsOn_addInfix (o := o) hx hout'
  obtain ⟨a, ha⟩ := Nat.exists_eq_add_of_le (size_le_stratifyAt hops)
  have hmoves := h.movesLadder_addInfix (o := o) hx hops hout' ha
  have hsize : ((g.addInfix e o).stratifyAt x).size = g.size + 1 + a :=
    size_stratifyAt_of_eq hops hoperators ha (size_addInfix g e o)
  refine ⟨.exchange g.size a 1, ⟨?_, fun i => ?_, ?_, ?_, fun i => ?_, fun i => ?_⟩,
    agreesBelow_exchange g a 1⟩
  · rw [hsize, size_addInfix, ha]
    omega
  · rw [size_addInfix, ha]
    exact exchange_lt_iff
  · rw [stratifyAt_start, addInfix_start, addInfix_start, stratifyAt_start]
    exact (exchange_of_lt hstart).symm
  · rw [stratifyAt_arena, arena_size_addInfix, arena_size_addInfix, stratifyAt_arena]
  · rw [stratifyAt_arena, addInfix, addInfix, stratifyAt_arena]
    rfl
  -- What was there, what the step makes, numbers that nothing has, and the type of the operator.
  rcases Nat.lt_or_ge i g.size with hi | hi
  · have hnumber : (Renumbering.exchange g.size a 1).nonTerminal i = i := exchange_of_lt hi
    rw [hnumber]
    by_cases hie : i = e
    · subst hie
      exact List.Perm.of_eq (h.productionsOf_self_stratifyAt_addInfix hx hne hops hout' ha he)
    · exact List.Perm.of_eq (h.productionsOf_old_stratifyAt_addInfix hx hne hops hout' ha hi hie)
  rcases Nat.lt_or_ge i (g.size + a) with hia | hia
  · have hnew := hmoves.productionsOf_new hops hi (by rwa [ha])
    have hnumber : (Renumbering.exchange g.size a 1).nonTerminal x = x :=
      exchange_of_lt (Nat.lt_of_lt_of_le hx h.size_le)
    rw [productionsOf_addInfix_of_ne (by omega) (by omega)]
    rwa [hnumber] at hnew
  rcases Nat.lt_or_eq_of_le hia with hia | rfl
  · have hge : g.size + 1 + a ≤ (Renumbering.exchange g.size a 1).nonTerminal i := by
      show g.size + 1 + a ≤ exchange g.size a 1 i
      rw [exchange_eq]
      split_ifs <;> omega
    rw [productionsOf_of_size_le (by omega), productionsOf_of_size_le (by rw [size_addInfix]; omega)]
    exact List.Perm.refl _
  · have hnumber : (Renumbering.exchange g.size a 1).nonTerminal (g.size + a) = g.size :=
      exchange_one_add g.size a
    rw [hnumber]
    exact List.Perm.of_eq (h.productionsOf_type_stratifyAt_addInfix hx hout' ha he)

omit hx in
/-- All steps of other non-terminals can be done before the operator is added, also where the grammar with
the operator has other numbers. -/
theorem exists_foldl_addInfix (hr : Renumbers r (g.addInfix e o) g') (hstart : g.start < g.size)
    (he : e < g.size) {xs : List Nat}
    (hxs : ∀ x ∈ xs, x < size ∧ x ≠ e ∧ (g.operatorsOn x ≠ [] → e ∉ g.unitClosure x)) :
    ∃ s, Renumbers s ((xs.foldl Grammar.stratifyAt g).addInfix e o)
        ((xs.map r.nonTerminal).foldl Grammar.stratifyAt g') ∧
      Renumbering.AgreesBelow g.size r s := by
  induction xs generalizing g g' r with
  | nil => exact ⟨r, hr, .refl _ r⟩
  | cons x xs ih =>
      obtain ⟨hx, hne, hout⟩ := hxs x List.mem_cons_self
      have hxg := Nat.lt_of_lt_of_le hx h.size_le
      have hsize := size_le_size_stratifyAt g x
      obtain ⟨t, ht, hagrees⟩ := h.exists_stratifyAt_addInfix (o := o) hx hstart he hne hout
      obtain ⟨s, hs, hagrees'⟩ := hr.exists_stratifyAt (HasSymbols.addInfix h.hasSymbol he)
        (by rw [size_addInfix]; exact Nat.lt_succ_of_lt hstart)
        (by rw [size_addInfix]; exact Nat.lt_succ_of_lt hxg)
      have hboth := hagrees.comp (hagrees'.mono (by rw [size_addInfix]; exact Nat.le_succ _))
      -- The step leaves no more operators and no larger closures.
      have hrest : ∀ y ∈ xs, y < size ∧ y ≠ e ∧
          ((g.stratifyAt x).operatorsOn y ≠ [] → e ∉ (g.stratifyAt x).unitClosure y) := by
        intro y hy
        obtain ⟨hylt, hyne, hyout⟩ := hxs y (List.mem_cons_of_mem x hy)
        exact ⟨hylt, hyne, fun hops hmem => hyout (h.operatorsOn_of_stratifyAt hx hylt hops)
          (h.mem_unitClosure_of_stratifyAt hylt hmem)⟩
      obtain ⟨u, hu, hagrees''⟩ := ih (h.stratifyAt hx) (ht.trans hs) (start_lt_size_stratifyAt hstart x)
        (Nat.lt_of_lt_of_le he hsize) hrest
      have hnumbers : xs.map (t.trans s).nonTerminal = xs.map r.nonTerminal :=
        List.map_congr_left fun y hy =>
          hboth.nonTerminal y (Nat.lt_of_lt_of_le (hrest y hy).1 h.size_le)
      rw [hnumbers] at hu
      exact ⟨u, hu, hboth.trans (hagrees''.mono hsize)⟩

end Staged

end Grammar

end SmallLang
