import SmallLang.Proofs.Inlining.Added

/-!
# Stratification with one more operator

A non-terminal without operators may be one whose step does not matter to any later one, and that is no
alternative of a non-terminal with operators (`Grammar.Unstaged`). Then its step can be done last: a grammar
with an operator added on it is stratified to the stratified grammar with the operator added and this one
step done, by other numbers (`Grammar.Unstaged.exists_stratify_addInfix`).
-/

set_option autoImplicit false

namespace SmallLang

namespace Grammar

variable {g g' : Grammar} {r : Renumbering} {e types size : Nat} {o : AddedInfix}

/-! ## Steps that depend on each other, by other numbers -/

theorem Renumbers.depends (h : Renumbers r g g') {x y : Nat} (hdepends : g.Depends x y) :
    g'.Depends (r.nonTerminal x) (r.nonTerminal y) := by
  obtain ⟨hops, m, i, p, hmx, hmy, hp, hisop⟩ := hdepends
  obtain ⟨σ, hσ⟩ := h.exists_production?_eq
  refine ⟨(h.sameStep hσ x).operatorsOn_ne_nil hops, r.nonTerminal m, σ m i, r.production p,
    h.mem_unitClosure hmx, h.mem_unitClosure hmy, ?_, ?_⟩
  · rw [hσ, hp, Option.map_some]
  · rw [r.isOperatorOn_production]
    exact hisop

theorem Renumbers.depends_iff (h : Renumbers r g g') {x y : Nat} :
    g'.Depends (r.nonTerminal x) (r.nonTerminal y) ↔ g.Depends x y := by
  refine ⟨fun hdepends => ?_, h.depends⟩
  have hback := h.symm.depends hdepends
  rwa [r.symm_nonTerminal_apply, r.symm_nonTerminal_apply] at hback

theorem Renumbers.linked_iff (h : Renumbers r g g') {x y : Nat} :
    g'.Linked (r.nonTerminal x) (r.nonTerminal y) ↔ g.Linked x y :=
  or_congr h.depends_iff h.depends_iff

/-! ## A non-terminal without operators -/

/-- There are no operators on the non-terminal, none among its alternatives are on a later non-terminal
that shares them, and it is no alternative of a non-terminal with operators. -/
structure Unstaged (g : Grammar) (e : Nat) : Prop where
  noOperator : g.operatorsOn e = []
  later : ∀ x < g.size, e < x → ∀ m ∈ g.unitClosure e, m ∈ g.unitClosure x →
    ∀ p ∈ g.productionsOf m, p.isOperatorOn x = false
  outside : ∀ x < g.size, g.operatorsOn x ≠ [] → e ∉ g.unitClosure x

/-- Whether the non-terminal can be left for last. -/
def isUnstaged (g : Grammar) (e : Nat) : Bool :=
  (g.operatorsOn e).isEmpty && (List.range g.size).all fun x =>
    (decide (x ≤ e) || (g.unitClosure e).all fun m => !(g.unitClosure x).contains m ||
      (g.productionsOf m).all fun p => !p.isOperatorOn x) &&
    ((g.operatorsOn x).isEmpty || !(g.unitClosure x).contains e)

theorem isUnstaged_iff : g.isUnstaged e = true ↔ g.Unstaged e := by
  simp only [isUnstaged, Bool.and_eq_true, List.isEmpty_iff, List.all_eq_true, List.mem_range,
    Bool.or_eq_true, decide_eq_true_eq, Bool.not_eq_true', List.contains_eq_mem, decide_eq_false_iff_not]
  constructor
  · rintro ⟨hnone, hall⟩
    refine ⟨hnone, fun x hx hlt m hm hmx p hp => ?_, fun x hx hops => ((hall x hx).2).resolve_left hops⟩
    exact (((hall x hx).1.resolve_left (Nat.not_le.2 hlt)) m hm).resolve_left (absurd hmx) p hp
  · intro h
    refine ⟨h.noOperator, fun x hx => ⟨?_, ?_⟩⟩
    · refine (Nat.lt_or_ge e x).symm.imp id fun hlt m hm => ?_
      exact or_iff_not_imp_left.2 fun hmx p hp => h.later x hx hlt m hm (not_not.1 hmx) p hp
    · exact or_iff_not_imp_left.2 (h.outside x hx)

instance (g : Grammar) (e : Nat) : Decidable (g.Unstaged e) := decidable_of_iff _ isUnstaged_iff

/-- A step without operators can be left out. -/
theorem Staged.foldl_filter_ne (h : g.Staged types size) (he : e < size) (hnone : g.operatorsOn e = [])
    {xs : List Nat} (hxs : ∀ x ∈ xs, x < size) :
    (xs.filter (· != e)).foldl Grammar.stratifyAt g = xs.foldl Grammar.stratifyAt g := by
  induction xs generalizing g with
  | nil => rfl
  | cons x xs ih =>
      have hx := hxs x List.mem_cons_self
      have hrest : ∀ y ∈ xs, y < size := fun y hy => hxs y (List.mem_cons_of_mem x hy)
      have hnone' : (g.stratifyAt x).operatorsOn e = [] := by
        by_contra hops
        exact h.operatorsOn_of_stratifyAt hx he hops hnone
      by_cases hxe : x = e
      · subst hxe
        rw [List.filter_cons_of_neg (by simp), List.foldl_cons, stratifyAt_of_eq_nil hnone]
        exact ih h hnone hrest
      · rw [List.filter_cons_of_pos (by simpa using hxe), List.foldl_cons, List.foldl_cons]
        exact ih (h.stratifyAt hx) hnone' hrest

namespace Unstaged

variable (h : g.Unstaged e)
include h

/-- The step of the added operator depends on no later one. -/
theorem not_linked_addInfix (hg : g.Staged types g.size) (he : e < g.size) {y : Nat} (hlt : e < y) :
    ¬ (g.addInfix e o).Linked y e := by
  intro hlinked
  have hne : y ≠ e := Nat.ne_of_gt hlt
  obtain ⟨op, hop⟩ := List.exists_mem_of_ne_nil _ hlinked.operatorsOn_ne_nil.1
  obtain ⟨m, i, p, -, hp, hisop, -⟩ := mem_operatorsOn_iff.1 hop
  have hy : y < g.size := by
    rcases mem_productionsOf_addInfix (mem_productionsOf_iff.2 ⟨i, hp⟩) with hp | ⟨-, rfl⟩ | ⟨-, rfl⟩
    · obtain ⟨s, rest, hs⟩ := Production.isOperatorOn_iff.1 hisop
      exact hg.hasSymbol m p hp (.nonTerminal y) (by rw [hs]; exact List.mem_cons_self)
    · exact absurd hisop Bool.false_ne_true
    · exact absurd (beq_iff_eq.1 hisop).symm hne
  have hops : g.operatorsOn y ≠ [] := fun hnil =>
    hlinked.operatorsOn_ne_nil.1 (hg.operatorsOn_addInfix_eq_nil hy hne hnil)
  have hout := h.outside y hy hops
  -- What both closures have was in both, and is no operator on either non-terminal.
  have hshared : ∀ {m i p}, m ∈ (g.addInfix e o).unitClosure y → m ∈ (g.addInfix e o).unitClosure e →
      (g.addInfix e o).production? m i = some p →
        m ∈ g.unitClosure y ∧ m ∈ g.unitClosure e ∧ p ∈ g.productionsOf m := by
    intro m i p hmy hme hp
    rw [hg.unitClosure_addInfix hy hout] at hmy
    have hlt := hg.lt_size_of_mem_unitClosure hy hmy
    have hmem := mem_productionsOf_iff.2 ⟨i, hp⟩
    rw [hg.productionsOf_addInfix hy hout hmy] at hmem
    exact ⟨hmy, (hg.mem_unitClosure_addInfix he hme).resolve_right (Nat.ne_of_lt hlt), hmem⟩
  rcases hlinked with ⟨-, m, i, p, hmy, hme, hp, hisop⟩ | ⟨-, m, i, p, hme, hmy, hp, hisop⟩
  · obtain ⟨-, hme', hp'⟩ := hshared hmy hme hp
    obtain ⟨j, hj⟩ := mem_productionsOf_iff.1 hp'
    refine List.ne_nil_of_mem (mem_operatorsOn_iff.2 ⟨m, j, p, hme', hj, hisop, rfl⟩) h.noOperator
  · obtain ⟨hmy', hme', hp'⟩ := hshared hmy hme hp
    rw [h.later y hy hlt m hme' hmy' p hp'] at hisop
    exact Bool.false_ne_true hisop

omit h in
/-- There are no operators on the type of the added operator. -/
theorem operatorsOn_addInfix_new (g : Grammar) (he : e < g.size) :
    (g.addInfix e o).operatorsOn g.size = [] := by
  have hnone : ∀ p ∈ (g.addInfix e o).productionsOf g.size, p.unitTarget? = none ∧
      p.isOperatorOn g.size = false := by
    intro p hp
    rw [productionsOf_addInfix_new] at hp
    obtain rfl := List.mem_singleton.1 hp
    refine ⟨rfl, ?_⟩
    show (e == g.size) = false
    exact beq_false_of_ne (Nat.ne_of_lt he)
  refine List.eq_nil_iff_forall_not_mem.2 fun op hop => ?_
  obtain ⟨m, i, p, hm, hp, hisop, -⟩ := mem_operatorsOn_iff.1 hop
  -- Its production is no unit, so it is alone in its closure.
  obtain rfl : m = g.size := by
    have hpath := mem_unitClosure_iff.1 hm
    rcases Relation.ReflTransGen.cases_head hpath with heq | ⟨b, ⟨q, hq, ht, -⟩, -⟩
    · exact heq.symm
    · rw [(hnone q hq).1] at ht
      exact absurd ht (by simp)
  rw [(hnone p (mem_productionsOf_iff.2 ⟨i, hp⟩)).2] at hisop
  exact Bool.false_ne_true hisop

omit h in
/-- Stratification puts no operators on a non-terminal that had none. -/
theorem operatorsOn_stratify_eq_nil (hg : g.Staged types g.size) (he : e < g.size)
    (hnone : g.operatorsOn e = []) : g.stratify.operatorsOn e = [] := by
  have hfold : ∀ {xs : List Nat} {g' : Grammar}, g'.Staged types g.size → (∀ x ∈ xs, x < g.size) →
      g'.operatorsOn e = [] → (xs.foldl Grammar.stratifyAt g').operatorsOn e = [] := by
    intro xs
    induction xs with
    | nil => exact fun _ _ hnone => hnone
    | cons x xs ih =>
        intro g' hg' hxs hnone
        have hx := hxs x List.mem_cons_self
        refine ih (hg'.stratifyAt hx) (fun y hy => hxs y (List.mem_cons_of_mem x hy)) ?_
        by_contra hops
        exact hg'.operatorsOn_of_stratifyAt hx he hops hnone
  exact hfold hg (fun x hx => List.mem_range.1 hx) hnone

end Unstaged

/-! ## The order of the steps -/

/-- The old non-terminals but `e`. -/
def others (g : Grammar) (e : Nat) : List Nat := (List.range g.size).filter (· != e)

theorem mem_others_iff {x : Nat} : x ∈ g.others e ↔ x < g.size ∧ x ≠ e := by
  simp [others]

/-- The steps of the grammar with the operator in another order. The operator's type comes first, since it
has no step to do, and `e` last. -/
def operatorLast (g : Grammar) (e : Nat) : List Nat := g.size :: (g.others e ++ [e])

theorem mem_operatorLast_iff (he : e < g.size) {x : Nat} : x ∈ g.operatorLast e ↔ x < g.size + 1 := by
  simp only [operatorLast, List.mem_cons, List.mem_append, mem_others_iff, List.not_mem_nil, or_false]
  omega

theorem nodup_operatorLast (he : e < g.size) : (g.operatorLast e).Nodup := by
  have hothers : (g.others e).Nodup := List.nodup_range.filter _
  simp only [operatorLast, List.nodup_cons, List.nodup_append, List.mem_append, List.mem_singleton,
    mem_others_iff]
  exact ⟨by omega, hothers, by simp, fun x hx y hy => by rw [hy]; exact hx.2⟩

/-- By other numbers too these are all steps. -/
theorem map_operatorLast_perm (hr : Renumbers r (g.addInfix e o) g') (he : e < g.size) :
    ((g.operatorLast e).map r.nonTerminal).Perm (List.range g'.size) := by
  refine (List.perm_ext_iff_of_nodup ((nodup_operatorLast he).map r.nonTerminal.injective)
    List.nodup_range).2 fun y => ?_
  obtain ⟨x, rfl⟩ := r.nonTerminal.surjective y
  rw [List.mem_map_of_injective r.nonTerminal.injective, List.mem_range, hr.size_eq, hr.lt_size_iff,
    size_addInfix, mem_operatorLast_iff he]

namespace Unstaged

variable (h : g.Unstaged e)
include h

/-- Steps that are linked keep their order. -/
theorem pairwise_operatorLast (hg : g.Staged types g.size) (he : e < g.size)
    (hr : Renumbers r (g.addInfix e o) g')
    (horder : ∀ x y, x < y → y < g.size → r.nonTerminal x < r.nonTerminal y) :
    ((g.operatorLast e).map r.nonTerminal).Pairwise fun x y => g'.Linked x y → x < y := by
  simp only [List.pairwise_map, hr.linked_iff, operatorLast, List.pairwise_cons, List.pairwise_append]
  refine ⟨fun y _ hlinked => ?_, ?_, by simp, fun x hx y hy hlinked => ?_⟩
  · exact absurd (operatorsOn_addInfix_new g he) hlinked.operatorsOn_ne_nil.1
  · refine (List.pairwise_lt_range.filter _).imp_of_mem fun _ hy hxy _ => ?_
    exact horder _ _ hxy (mem_others_iff.1 hy).1
  · obtain rfl := List.mem_singleton.1 hy
    rcases Nat.lt_or_gt_of_ne (mem_others_iff.1 hx).2 with hlt | hgt
    · exact horder _ _ hlt he
    · exact absurd hlinked (h.not_linked_addInfix hg he hgt)

/-- The grammar with the operator may be stratified in that order. -/
theorem exists_foldl_operatorLast (hg : g.Staged types g.size) (hstart : g.start < g.size)
    (he : e < g.size) (hr : Renumbers r (g.addInfix e o) g') {types' : Nat}
    (hg' : g'.Staged types' g'.size)
    (horder : ∀ x y, x < y → y < g.size → r.nonTerminal x < r.nonTerminal y) :
    ∃ q, Renumbers q ((((g.others e).map r.nonTerminal).foldl stratifyAt g').stratifyAt (r.nonTerminal e))
        g'.stratify ∧
      Renumbering.AgreesBelow g'.size .refl q := by
  have hstart' : g'.start < g'.size := by
    rw [hr.start_eq, hr.size_eq, hr.lt_size_iff, size_addInfix]
    exact Nat.lt_succ_of_lt hstart
  have hrange : (List.range g'.size).Pairwise fun x y => g'.Linked x y → x < y := by
    refine List.Pairwise.imp ?_ List.pairwise_lt_range
    exact fun hxy _ => hxy
  obtain ⟨q, hq, hagrees⟩ := hg'.exists_foldl_perm hstart' (map_operatorLast_perm hr he)
    (fun x hx => List.mem_range.1 hx) List.nodup_range hrange (h.pairwise_operatorLast hg he hr horder)
  have hnone : g'.operatorsOn (r.nonTerminal g.size) = [] := by
    by_contra hops
    obtain ⟨σ, hσ⟩ := hr.symm.exists_production?_eq
    have hback := (hr.symm.sameStep hσ _).operatorsOn_ne_nil hops
    rw [r.symm_nonTerminal_apply] at hback
    exact hback (operatorsOn_addInfix_new g he)
  rw [operatorLast, List.map_cons, List.foldl_cons, stratifyAt_of_eq_nil hnone, List.map_append,
    List.foldl_append, List.map_singleton, List.foldl_cons, List.foldl_nil] at hq
  exact ⟨q, hq, hagrees⟩

/-- With an operator on `e`, all steps but that of `e` can be done before the operator is added, and this
one last. -/
theorem exists_stratify_addInfix (hg : g.Staged types g.size) (hstart : g.start < g.size)
    (he : e < g.size) (hr : Renumbers r (g.addInfix e o) g') {types' : Nat}
    (hg' : g'.Staged types' g'.size) (horder : ∀ x y, x < y → y < g.size →
      r.nonTerminal x < r.nonTerminal y) :
    ∃ s, Renumbers s ((g.stratify.addInfix e o).stratifyAt e) g'.stratify ∧
      Renumbering.AgreesBelow g.size r s := by
  obtain ⟨q, hq, hagrees⟩ := h.exists_foldl_operatorLast hg hstart he hr hg' horder
  obtain ⟨s, hs, hagrees'⟩ := hg.exists_foldl_addInfix hr hstart he fun x hx =>
    ⟨(mem_others_iff.1 hx).1, (mem_others_iff.1 hx).2, h.outside x (mem_others_iff.1 hx).1⟩
  -- Without operators on `e` its step does nothing, so the others are all there is to stratify.
  have hstages : (g.others e).foldl stratifyAt g = g.stratify :=
    hg.foldl_filter_ne he h.noOperator fun x hx => List.mem_range.1 hx
  rw [hstages] at hs
  have hstaged : (g.stratify).Staged types g.size := hg.stage (Nat.le_refl _)
  have heg : e < g.stratify.size := Nat.lt_of_lt_of_le he hstaged.size_le
  have hstart' : g.stratify.start < g.stratify.size := by
    rw [stratify_eq_stage, stage_start]
    exact Nat.lt_of_lt_of_le hstart hstaged.size_le
  -- The last step is done on both sides.
  obtain ⟨t, ht, hagrees''⟩ := hs.exists_stratifyAt (HasSymbols.addInfix hstaged.hasSymbol heg)
    (x := e) (by rw [size_addInfix]; exact Nat.lt_succ_of_lt hstart') (by rw [size_addInfix]; omega)
  rw [hagrees'.nonTerminal e he] at ht
  have hboth : Renumbering.AgreesBelow g.size r t :=
    hagrees'.trans (hagrees''.mono (by rw [size_addInfix]; exact Nat.le_succ_of_le hstaged.size_le))
  have hlt : ∀ i < g.size, r.nonTerminal i < g'.size := fun i hi => by
    rw [hr.size_eq, hr.lt_size_iff, size_addInfix]
    exact Nat.lt_succ_of_lt hi
  exact ⟨t.trans q, ht.trans hq, hboth.comp_refl hagrees hlt⟩

end Unstaged

end Grammar

end SmallLang
