import Mathlib.Data.List.Nodup
import SmallLang.Operator.Use
import SmallLang.Proofs.Reach

/-!
# Operators and atoms by membership

The productions of a unit closure fall into three kinds: operators (`mem_operatorsOn_iff`), atoms
(`mem_atomsOf_iff`) and the steps within the closure, which are those of a path
(`mem_unitClosure_iff`).
-/

set_option autoImplicit false

namespace SmallLang

theorem Production.unitTarget?_eq_some_iff {p : Production} {target : Nat} :
    p.unitTarget? = some target ↔
      p.symbols = [.nonTerminal target] ∧ p.construction = .child 0 := by
  rw [unitTarget?]
  split
  · rename_i t hs hc
    simp [hs, hc]
  · rename_i hno
    constructor
    · intro h
      exact absurd h (by simp)
    · rintro ⟨hs, hc⟩
      exact absurd hc (hno target hs)

theorem Production.isOperatorOn_iff {e : Nat} {p : Production} :
    p.isOperatorOn e = true ↔ ∃ s rest, p.symbols = .nonTerminal e :: s :: rest := by
  rw [isOperatorOn]
  split
  · rename_i f s rest hs
    simp [hs]
  · rename_i hno
    constructor
    · intro h
      exact absurd h (by simp)
    · rintro ⟨s, rest, hs⟩
      exact absurd hs (hno e s rest)

/-- A production is an operator on one non-terminal at most. -/
theorem Production.eq_of_isOperatorOn {x y : Nat} {p : Production} (hx : p.isOperatorOn x = true)
    (hy : p.isOperatorOn y = true) : x = y := by
  obtain ⟨s, rest, hs⟩ := isOperatorOn_iff.1 hx
  obtain ⟨s', rest', hs'⟩ := isOperatorOn_iff.1 hy
  rw [hs] at hs'
  exact Symbol.nonTerminal.inj (List.cons.inj hs').1

/-- An operator hands nothing on. -/
theorem Production.unitTarget?_of_isOperatorOn {x : Nat} {p : Production}
    (h : p.isOperatorOn x = true) : p.unitTarget? = none := by
  obtain ⟨s, rest, hs⟩ := isOperatorOn_iff.1 h
  cases ht : p.unitTarget? with
  | none => rfl
  | some target =>
      rw [(unitTarget?_eq_some_iff.1 ht).1] at hs
      exact absurd hs (by simp)

namespace Grammar

variable {g : Grammar} {e : Nat}

theorem mem_productionsOf_iff {nt : Nat} {p : Production} :
    p ∈ g.productionsOf nt ↔ ∃ i, g.production? nt i = some p :=
  List.mem_iff_getElem?

theorem productionsOf_of_size_le {nt : Nat} (h : g.size ≤ nt) : g.productionsOf nt = [] := by
  rw [productionsOf, List.getElem?_eq_none h]
  rfl

/-- A production of the first non-terminal hands on the second one. -/
def UnitStep (g : Grammar) (nt target : Nat) : Prop :=
  ∃ p ∈ g.productionsOf nt, p.unitTarget? = some target ∧ target < g.size

/-- The unit closure holds what unit steps lead to. -/
theorem mem_unitClosure_iff {m : Nat} :
    m ∈ g.unitClosure e ↔ Relation.ReflTransGen g.UnitStep e m := by
  rw [unitClosure, Reach.mem_reachable_iff]
  have hstep : Reach.Edge g.size (fun nt => (g.productionsOf nt).filterMap Production.unitTarget?) =
      g.UnitStep := by
    funext nt target
    refine propext ?_
    simp only [Reach.Edge, UnitStep, List.mem_filterMap]
    constructor
    · rintro ⟨⟨p, hp, htarget⟩, hlt⟩
      exact ⟨p, hp, htarget, hlt⟩
    · rintro ⟨p, hp, htarget, hlt⟩
      exact ⟨⟨p, hp, htarget⟩, hlt⟩
  rw [Reach.Path, hstep]

theorem self_mem_unitClosure (g : Grammar) (e : Nat) : e ∈ g.unitClosure e :=
  mem_unitClosure_iff.2 .refl

/-- An operator as its production declares it. -/
def operatorUse (e m i : Nat) (p : Production) : OperatorUse :=
  ⟨p.symbols.tail, p.construction, p.prec, if m = e then none else some (m, i)⟩

theorem mem_operatorsOn_iff {op : OperatorUse} :
    op ∈ g.operatorsOn e ↔
      ∃ m i p, m ∈ g.unitClosure e ∧ g.production? m i = some p ∧ p.isOperatorOn e = true ∧
        op = operatorUse e m i p := by
  simp only [operatorsOn, List.mem_flatMap, List.mem_filterMap, Prod.exists,
    List.mk_mem_zipIdx_iff_getElem?]
  constructor
  · rintro ⟨m, hm, p, i, hp, hop⟩
    split at hop
    · rename_i hisop
      exact ⟨m, i, p, hm, hp, hisop, (Option.some.inj hop).symm⟩
    · exact absurd hop (by simp)
  · rintro ⟨m, i, p, hm, hp, hisop, rfl⟩
    exact ⟨m, hm, p, i, hp, if_pos hisop⟩

/-- An operator that another type declares is the production it comes from. -/
theorem exists_of_origin {m i : Nat} {op : OperatorUse} (hop : op ∈ g.operatorsOn e)
    (ho : op.origin = some (m, i)) :
    ∃ p, m ∈ g.unitClosure e ∧ g.production? m i = some p ∧ p.isOperatorOn e = true ∧ m ≠ e ∧
      op = operatorUse e m i p := by
  obtain ⟨m', i', p, hm, hp, hisop, rfl⟩ := mem_operatorsOn_iff.1 hop
  by_cases hne : m' = e
  · rw [operatorUse, if_pos hne] at ho
    exact absurd ho (by simp)
  · rw [operatorUse, if_neg hne] at ho
    obtain ⟨rfl, rfl⟩ := Prod.mk.inj (Option.some.inj ho)
    exact ⟨p, hm, hp, hisop, hne, rfl⟩

theorem mem_atomsOf_iff {p : Production} :
    p ∈ g.atomsOf e ↔
      ∃ m ∈ g.unitClosure e, p ∈ g.productionsOf m ∧ p.isOperatorOn e = false ∧
        ∀ target, p.unitTarget? = some target → target ∉ g.unitClosure e := by
  simp only [atomsOf, List.mem_flatMap, List.mem_filter, Bool.and_eq_true, Bool.not_eq_true',
    Option.any_eq_false, List.contains_eq_mem, decide_eq_false_iff_not]

/-- Every production of the closure is an operator, an atom or a step within the closure. -/
theorem operator_or_atom_or_unit {m i : Nat} {p : Production} (hm : m ∈ g.unitClosure e)
    (hp : g.production? m i = some p) :
    operatorUse e m i p ∈ g.operatorsOn e ∨ p ∈ g.atomsOf e ∨
      ∃ target ∈ g.unitClosure e, p.unitTarget? = some target := by
  by_cases hop : p.isOperatorOn e = true
  · exact Or.inl (mem_operatorsOn_iff.2 ⟨m, i, p, hm, hp, hop, rfl⟩)
  by_cases hunit : ∃ target ∈ g.unitClosure e, p.unitTarget? = some target
  · exact Or.inr (Or.inr hunit)
  · refine Or.inr (Or.inl (mem_atomsOf_iff.2 ⟨m, hm, mem_productionsOf_iff.2 ⟨i, hp⟩, ?_, ?_⟩))
    · simpa using hop
    · intro target htarget hmem
      exact hunit ⟨target, hmem, htarget⟩

/-- There is no operator on a non-terminal that no longer production begins with. -/
theorem operatorsOn_eq_nil (h : ∀ nt, ∀ p ∈ g.productionsOf nt, p.isOperatorOn e = false) :
    g.operatorsOn e = [] := by
  rw [List.eq_nil_iff_forall_not_mem]
  intro op hop
  obtain ⟨m, i, p, -, hp, hisop, -⟩ := mem_operatorsOn_iff.1 hop
  rw [h m p (mem_productionsOf_iff.2 ⟨i, hp⟩)] at hisop
  exact absurd hisop Bool.false_ne_true

/-- Two operators do not come from one production. -/
theorem pairwise_origin (g : Grammar) (e : Nat) :
    (g.operatorsOn e).Pairwise fun op op' => ∀ o, op.origin = some o → op'.origin ≠ some o := by
  have hmem : ∀ m, ∀ op ∈ (g.productionsOf m).zipIdx.filterMap (fun x =>
      if x.1.isOperatorOn e then
        some (⟨x.1.symbols.tail, x.1.construction, x.1.prec,
          if m = e then none else some (m, x.2)⟩ : OperatorUse)
      else none), ∀ o, op.origin = some o → o.1 = m := by
    intro m op hop o ho
    obtain ⟨⟨p, i⟩, -, hp⟩ := List.mem_filterMap.1 hop
    simp only [Option.ite_none_right_eq_some, Option.some.injEq] at hp
    obtain ⟨-, rfl⟩ := hp
    simp only [Option.ite_none_left_eq_some, Option.some.injEq] at ho
    rw [← ho.2]
  rw [operatorsOn, List.pairwise_flatMap]
  refine ⟨fun m _ => ?_, ?_⟩
  · rw [List.pairwise_filterMap]
    have hzip : ((g.productionsOf m).zipIdx.map Prod.snd).Nodup := by
      rw [List.zipIdx_map_snd]
      exact List.nodup_range'
    refine (List.pairwise_map.1 hzip).imp ?_
    rintro ⟨p, i⟩ ⟨q, j⟩ hne op hop op' hop' o ho ho'
    simp only [Option.ite_none_right_eq_some, Option.some.injEq] at hop hop'
    obtain ⟨-, rfl⟩ := hop
    obtain ⟨-, rfl⟩ := hop'
    simp only [Option.ite_none_left_eq_some, Option.some.injEq] at ho ho'
    exact hne (Prod.mk.inj (ho.2.trans ho'.2.symm)).2
  · have hclosure : (g.unitClosure e).Nodup := Reach.nodup_reachable _ _ _
    refine (List.nodup_iff_pairwise_ne.1 hclosure).imp ?_
    intro m n hne op hop op' hop' o ho ho'
    exact hne ((hmem m op hop o ho).symm.trans (hmem n op' hop' o ho'))

/-- An operator that another type declares is found once, in the place of its production. -/
theorem nodup_operatorsOn (h : ∀ p ∈ g.productionsOf e, p.isOperatorOn e = false) :
    (g.operatorsOn e).Nodup := by
  refine List.nodup_iff_pairwise_ne.2 ((g.pairwise_origin e).imp_of_mem ?_)
  rintro op op' hop - horigin rfl
  obtain ⟨m, i, p, -, hp, hisop, rfl⟩ := mem_operatorsOn_iff.1 hop
  have hne : m ≠ e := by
    rintro rfl
    rw [h p (mem_productionsOf_iff.2 ⟨i, hp⟩)] at hisop
    exact absurd hisop Bool.false_ne_true
  have ho : (operatorUse e m i p).origin = some (m, i) := if_neg hne
  exact horigin _ ho ho

end Grammar

end SmallLang
