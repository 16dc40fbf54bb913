import SmallLang.Proofs.Operator.Stage
import SmallLang.Proofs.Operator.Unfold
import SmallLang.Proofs.Priorities.Grammar
import SmallLang.Proofs.Priorities.Lowering

/-!
# Levels with other priorities

The levels of a ladder are the priorities of its operators in increasing order. A map that keeps the order
of priorities (`IncreasingOn`) keeps the numbers of levels, and with them every operand, so a grammar with
the images of its priorities gets the same ladder with these (`Grammar.regrades_stratifyAt`). The names of
levels mention priorities; the types that they belong to do not. What stratification itself adds, a climb
or the end of a tail, has a priority of its own (`Production.rank`).
-/

set_option autoImplicit false

namespace SmallLang

/-! ## Maps that keep the order -/

/-- The map keeps the order of some priorities. -/
def IncreasingOn (f : Int32 → Int32) (ps : List Int32) : Prop :=
  ∀ p ∈ ps, ∀ q ∈ ps, p < q → f p < f q

instance (f : Int32 → Int32) (ps : List Int32) : Decidable (IncreasingOn f ps) :=
  decidable_of_iff ((ps.all fun p => ps.all fun q => decide (p < q → f p < f q)) = true) (by
    simp only [List.all_eq_true, decide_eq_true_eq, IncreasingOn])

namespace IncreasingOn

variable {f : Int32 → Int32} {ps qs : List Int32} (h : IncreasingOn f ps)
include h

theorem of_subset (hqs : ∀ q ∈ qs, q ∈ ps) : IncreasingOn f qs :=
  fun p hp q hq => h p (hqs p hp) q (hqs q hq)

variable {p q : Int32} (hp : p ∈ ps) (hq : q ∈ ps)
include hp hq

theorem lt_iff : f p < f q ↔ p < q := by
  refine ⟨fun hf => ?_, h p hp q hq⟩
  by_contra hlt
  rcases Int32.lt_or_eq_of_le (Int32.not_lt.1 hlt) with hgt | rfl
  · exact Int32.lt_asymm hf (h q hq p hp hgt)
  · exact Int32.lt_irrefl hf

theorem le_iff : f p ≤ f q ↔ p ≤ q := by
  rw [← Int32.not_lt, ← Int32.not_lt, h.lt_iff hq hp]

theorem eq_iff : f p = f q ↔ p = q := by
  refine ⟨fun hf => ?_, congrArg f⟩
  have hle := (h.le_iff hp hq).1 (hf ▸ Int32.le_refl _)
  have hge := (h.le_iff hq hp).1 (hf ▸ Int32.le_refl _)
  exact Int32.le_antisymm hle hge

end IncreasingOn

section Increasing

variable {f : Int32 → Int32} {ps : List Int32}

theorem insertIncreasing_map {p : Int32} (h : IncreasingOn f (p :: ps)) :
    insertIncreasing (f p) (ps.map f) = (insertIncreasing p ps).map f := by
  induction ps with
  | nil => rfl
  | cons q qs ih =>
      have hp : p ∈ p :: q :: qs := List.mem_cons_self
      have hq : q ∈ p :: q :: qs := List.mem_cons_of_mem _ List.mem_cons_self
      have ih := ih (h.of_subset fun x hx => by
        rcases List.mem_cons.1 hx with rfl | hx
        · exact hp
        · exact List.mem_cons_of_mem _ (List.mem_cons_of_mem _ hx))
      rw [List.map_cons, insertIncreasing, insertIncreasing, ih]
      simp only [h.lt_iff hp hq, h.eq_iff hp hq]
      split
      · rfl
      · split <;> rfl

/-- The images in increasing order are the images of the increasing order. -/
theorem increasing_map (h : IncreasingOn f ps) : increasing (ps.map f) = (increasing ps).map f := by
  induction ps with
  | nil => rfl
  | cons p ps ih =>
      have hall : ∀ q ∈ p :: increasing ps, q ∈ p :: ps := by
        intro q hq
        rcases List.mem_cons.1 hq with rfl | hq
        · exact List.mem_cons_self
        · exact List.mem_cons_of_mem _ (mem_increasing_iff.1 hq)
      have ih := ih (h.of_subset fun q hq => List.mem_cons_of_mem _ hq)
      have hinsert := insertIncreasing_map (h.of_subset hall)
      rw [← ih] at hinsert
      exact hinsert

end Increasing

theorem findIdx_congr {α : Type} {xs : List α} {a b : α → Bool} (h : ∀ x ∈ xs, a x = b x) :
    xs.findIdx a = xs.findIdx b := by
  induction xs with
  | nil => rfl
  | cons x xs ih =>
      rw [List.findIdx_cons, List.findIdx_cons, h x List.mem_cons_self,
        ih fun y hy => h y (List.mem_cons_of_mem _ hy)]

theorem findIdx?_congr {α : Type} {xs : List α} {a b : α → Bool} (h : ∀ x ∈ xs, a x = b x) :
    xs.findIdx? a = xs.findIdx? b := by
  induction xs with
  | nil => rfl
  | cons x xs ih =>
      rw [List.findIdx?_cons, List.findIdx?_cons, h x List.mem_cons_self,
        ih fun y hy => h y (List.mem_cons_of_mem _ hy)]

/-! ## Ladders -/

/-- The operator with the image of its priority. -/
def OperatorUse.regrade (f : Int32 → Int32) (op : OperatorUse) : OperatorUse :=
  { op with prec := op.prec.regrade f }

namespace Ladder

/-- The ladder with the images of its levels. -/
def regrade (f : Int32 → Int32) (l : Ladder) : Ladder := { l with levels := l.levels.map f }

variable {f : Int32 → Int32} {ps : List Int32} {l : Ladder}

@[simp] theorem height_regrade : (l.regrade f).height = l.height := List.length_map f

@[simp] theorem head_regrade (k : Nat) : (l.regrade f).head k = l.head k := rfl

@[simp] theorem tail_regrade (k : Nat) : (l.regrade f).tail k = l.tail k := rfl

@[simp] theorem atom_regrade : (l.regrade f).atom = l.atom := by
  rw [atom, atom, height_regrade]
  rfl

@[simp] theorem forced_regrade (j : Nat) : (l.regrade f).forced j = l.forced j := by
  rw [forced, forced, height_regrade]
  rfl

@[simp] theorem operand_regrade (k : Nat) : (l.regrade f).operand k = l.operand k := by
  rw [operand, operand, height_regrade, atom_regrade, head_regrade]

@[simp] theorem climbProduction_regrade (k next : Nat) :
    (l.regrade f).climbProduction k next = l.climbProduction k next := by
  rw [climbProduction, climbProduction, operand_regrade]

variable (h : IncreasingOn f ps) (hlevels : ∀ q ∈ l.levels, q ∈ ps)
include h hlevels

theorem levelOf_regrade {p : Int32} (hp : p ∈ ps) : (l.regrade f).levelOf (f p) = l.levelOf p := by
  have hmap : (l.levels.map f).findIdx (· == f p) = l.levels.findIdx fun q => f q == f p :=
    List.findIdx_map ..
  rw [levelOf, levelOf, regrade, hmap]
  refine findIdx_congr fun q hq => ?_
  rw [Bool.eq_iff_iff, beq_iff_eq, beq_iff_eq, h.eq_iff (hlevels q hq) hp]

theorem prefixOperand_regrade {prec : Prec} (hp : prec.priority ∈ ps) :
    (l.regrade f).prefixOperand (prec.regrade f) = l.prefixOperand prec := by
  have hmap : ∀ a : Int32 → Bool, (l.levels.map f).findIdx? a = l.levels.findIdx? fun q => a (f q) :=
    fun a => List.findIdx?_map
  have hlevel : ((l.regrade f).levels.findIdx? fun q =>
      if (prec.regrade f).assoc = .right then (prec.regrade f).priority ≤ q
      else (prec.regrade f).priority < q) =
      l.levels.findIdx? fun q =>
        if prec.assoc = .right then prec.priority ≤ q else prec.priority < q := by
    refine (hmap _).trans (findIdx?_congr fun q hq => ?_)
    simp only [Prec.regrade, h.le_iff hp (hlevels q hq), h.lt_iff hp (hlevels q hq)]
  have hhead : (l.regrade f).head = l.head := rfl
  rw [prefixOperand, prefixOperand, hlevel, atom_regrade, hhead]

theorem rightOperand_regrade {op : OperatorUse} (hp : op.prec.priority ∈ ps) :
    (l.regrade f).rightOperand (op.regrade f) = l.rightOperand op := by
  have hlevel : (l.regrade f).levelOf (op.regrade f).prec.priority = l.levelOf op.prec.priority :=
    levelOf_regrade h hlevels hp
  simp only [rightOperand, hlevel, head_regrade, operand_regrade]
  rfl

theorem tailProduction_regrade {op : OperatorUse} (hp : op.prec.priority ∈ ps) :
    (l.regrade f).tailProduction (op.regrade f) = (l.tailProduction op).regrade f := by
  have hlevel : (l.regrade f).levelOf (op.regrade f).prec.priority = l.levelOf op.prec.priority :=
    levelOf_regrade h hlevels hp
  simp only [tailProduction, hlevel, rightOperand_regrade h hlevels hp, tail_regrade]
  rfl

theorem atomProduction_regrade {p : Production} (hp : p.prec.priority ∈ ps) :
    (l.regrade f).atomProduction (p.regrade f) = (l.atomProduction p).regrade f := by
  have hoperand : (l.regrade f).prefixOperand (p.regrade f).prec = l.prefixOperand p.prec :=
    prefixOperand_regrade h hlevels hp
  rw [atomProduction, atomProduction, hoperand, apply_ite (Production.regrade f)]
  rfl

end Ladder

/-! ## Grammars -/

/-- The priority of a production once all declared ones have their images: what stratification adds keeps
its own. -/
def Production.rank (f : Int32 → Int32) (p : Production) : Int32 :=
  match p.construction with
  | .climb => p.prec.priority
  | .endOfTail => p.prec.priority
  | _ => f p.prec.priority

section Rank

variable {p : Production} {types size i : Nat}

theorem Production.Declared.rank_eq (h : p.Declared types size i) (f : Int32 → Int32) :
    p.rank f = f p.prec.priority := by
  cases h <;> rfl

theorem Production.Declared.regrade_eq (h : p.Declared types size i) (f : Int32 → Int32) :
    p.regrade f = p.withPriority (p.rank f) := by
  rw [h.rank_eq]
  rfl

theorem Ladder.rank_atomProduction (l : Ladder) (f : Int32 → Int32) (p : Production) :
    (l.atomProduction p).rank f = p.rank f := by
  rw [atomProduction]
  split <;> rfl

end Rank

namespace Grammar

section Regrade

variable (g : Grammar) (f : Int32 → Int32)

@[simp] theorem size_regrade : (g.regrade f).size = g.size := List.length_map _

theorem nonTerminals_regrade (nt : Nat) :
    (g.regrade f).nonTerminals[nt]? = g.nonTerminals[nt]?.map (NonTerminal.regrade f) :=
  List.getElem?_map

theorem productionsOf_regrade (nt : Nat) :
    (g.regrade f).productionsOf nt = (g.productionsOf nt).map (Production.regrade f) := by
  rw [productionsOf, productionsOf, nonTerminals_regrade]
  cases g.nonTerminals[nt]? <;> rfl

theorem nameOf_regrade (nt : Nat) : (g.regrade f).nameOf nt = g.nameOf nt := by
  rw [nameOf, nameOf, nonTerminals_regrade, Option.map_map]
  rfl

theorem unitClosure_regrade (e : Nat) : (g.regrade f).unitClosure e = g.unitClosure e := by
  have hnext : (fun nt => ((g.regrade f).productionsOf nt).filterMap Production.unitTarget?) =
      fun nt => (g.productionsOf nt).filterMap Production.unitTarget? := by
    funext nt
    rw [productionsOf_regrade, List.filterMap_map]
    rfl
  rw [unitClosure, unitClosure, hnext, size_regrade]

theorem operatorsOn_regrade (e : Nat) :
    (g.regrade f).operatorsOn e = (g.operatorsOn e).map (OperatorUse.regrade f) := by
  rw [operatorsOn, operatorsOn, unitClosure_regrade, List.map_flatMap]
  refine List.flatMap_congr fun m _ => ?_
  rw [productionsOf_regrade, List.zipIdx_map, List.filterMap_map, List.map_filterMap]
  refine congrArg (List.filterMap · _) (funext fun x => ?_)
  have hisop : (x.1.regrade f).isOperatorOn e = x.1.isOperatorOn e := rfl
  simp only [Function.comp_apply, Prod.map_fst, Prod.map_snd, hisop,
    apply_ite (Option.map (OperatorUse.regrade f))]
  rfl

theorem atomsOf_regrade (e : Nat) :
    (g.regrade f).atomsOf e = (g.atomsOf e).map (Production.regrade f) := by
  rw [atomsOf, atomsOf, unitClosure_regrade, List.map_flatMap]
  refine List.flatMap_congr fun m _ => ?_
  rw [productionsOf_regrade, List.filter_map]
  rfl

theorem declaredOperators_regrade (e : Nat) :
    (g.regrade f).declaredOperators e = (g.declaredOperators e).map (OperatorUse.regrade f) := by
  rw [declaredOperators, declaredOperators, operatorsOn_regrade, List.filter_map]
  rfl

theorem getElem?_declaredOperators_regrade {g : Grammar} {e j : Nat} {op : OperatorUse}
    (hop : (g.declaredOperators e)[j]? = some op) :
    ((g.regrade f).declaredOperators e)[j]? = some (op.regrade f) := by
  rw [declaredOperators_regrade, List.getElem?_map, hop]
  rfl

theorem operatorsOn_regrade_ne_nil {g : Grammar} {e : Nat} (hops : g.operatorsOn e ≠ []) :
    (g.regrade f).operatorsOn e ≠ [] := by
  rw [operatorsOn_regrade]
  exact fun hnil => hops (List.map_eq_nil_iff.1 hnil)

end Regrade

/-! ## The names of levels -/

/-- A level has a mark after the name of its type. -/
theorem typeNameOf_append_mark (name level : String) :
    typeNameOf (name ++ "#" ++ level) = typeNameOf name := by
  have hlist : (name ++ "#" ++ level).toList = name.toList ++ '#' :: level.toList := by
    simp [String.toList_append]
  rw [typeNameOf, typeNameOf, hlist, List.takeWhile_append]
  split
  · rename_i hall
    rw [List.takeWhile_cons_of_neg (by decide), List.append_nil,
      (List.takeWhile_prefix _).eq_of_length hall]
  · rfl

section Names

variable {g : Grammar} {e k : Nat} (hops : g.operatorsOn e ≠ [])
include hops

theorem typeNameOf_head (hpos : 0 < k) (hk : k < (g.ladderAt e).height) :
    typeNameOf ((g.stratifyAt e).nameOf ((g.ladderAt e).head k)) = typeNameOf (g.nameOf e) := by
  have hget := getElem?_stratifyAt_new hops (2 * k - 1)
  rw [getElem?_ladderNonTerminals_head hpos (List.getElem?_eq_getElem hk)] at hget
  have hnumber : (g.ladderAt e).head k = g.size + (2 * k - 1) := by
    rw [Ladder.head_of_pos hpos, ladderAt_first]
    omega
  rw [hnumber, nameOf, hget]
  exact typeNameOf_append_mark _ _

theorem typeNameOf_tail (hk : k < (g.ladderAt e).height) :
    typeNameOf ((g.stratifyAt e).nameOf ((g.ladderAt e).tail k)) = typeNameOf (g.nameOf e) := by
  have hget := getElem?_stratifyAt_new hops (2 * k)
  rw [getElem?_ladderNonTerminals_tail (List.getElem?_eq_getElem hk)] at hget
  rw [Ladder.tail, ladderAt_first, nameOf, hget]
  show typeNameOf (_ ++ "#" ++ _ ++ _) = _
  rw [String.append_assoc]
  exact typeNameOf_append_mark _ _

theorem nameOf_atom : (g.stratifyAt e).nameOf (g.ladderAt e).atom = g.nameOf e ++ "#atom" := by
  have hpos := height_ladderAt_pos hops
  have hget := getElem?_stratifyAt_new hops (2 * (g.ladderAt e).height - 1)
  rw [getElem?_ladderNonTerminals_atom hpos] at hget
  have hnumber : (g.ladderAt e).atom = g.size + (2 * (g.ladderAt e).height - 1) := by
    rw [Ladder.atom, ladderAt_first]
    omega
  rw [hnumber, nameOf, hget]
  rfl

theorem nameOf_forced {j : Nat} {op : OperatorUse} {origin : Nat × Nat}
    (hop : (g.declaredOperators e)[j]? = some op) (ho : op.origin = some origin) :
    (g.stratifyAt e).nameOf ((g.ladderAt e).forced j) =
      g.nameOf origin.1 ++ "#op" ++ toString origin.2 := by
  rw [nameOf, getElem?_stratifyAt_forced hops hop ho]
  rfl

end Names

/-! ## The step of a non-terminal -/

section Step

variable {g : Grammar} {f : Int32 → Int32} {ps : List Int32} {e : Nat}
  (h : IncreasingOn f ps) (hps : ∀ nt, ∀ p ∈ g.productionsOf nt, p.prec.priority ∈ ps)
include hps

theorem priority_mem_of_operatorsOn : ∀ op ∈ g.operatorsOn e, op.prec.priority ∈ ps := by
  intro op hop
  obtain ⟨m, i, p, -, hp, -, rfl⟩ := mem_operatorsOn_iff.1 hop
  exact hps m p (mem_productionsOf_iff.2 ⟨i, hp⟩)

theorem priority_mem_of_levels : ∀ q ∈ (g.ladderAt e).levels, q ∈ ps := by
  intro q hq
  obtain ⟨op, hop, rfl⟩ := mem_levels_ladderAt_iff.1 hq
  exact priority_mem_of_operatorsOn hps op hop

include h

theorem ladderAt_regrade (e : Nat) : (g.regrade f).ladderAt e = (g.ladderAt e).regrade f := by
  have hmem : ∀ p ∈ (g.operatorsOn e).map (·.prec.priority), p ∈ ps := by
    intro p hp
    obtain ⟨op, hop, rfl⟩ := List.mem_map.1 hp
    exact priority_mem_of_operatorsOn hps op hop
  have hmap : ((g.operatorsOn e).map (OperatorUse.regrade f)).map (·.prec.priority) =
      ((g.operatorsOn e).map (·.prec.priority)).map f := by
    rw [List.map_map, List.map_map]
    rfl
  rw [ladderAt, ladderAt, ladderOf, ladderOf, operatorsOn_regrade, size_regrade, hmap,
    increasing_map (h.of_subset hmem)]
  rfl

theorem keptProduction_regrade {i k : Nat} {p : Production} {types size : Nat}
    (hdeclared : p.Declared types size i) :
    keptProduction ((g.regrade f).ladderAt e) ((g.regrade f).operatorsOn e) i k (p.regrade f) =
      (keptProduction (g.ladderAt e) (g.operatorsOn e) i k p).withPriority
        ((keptProduction (g.ladderAt e) (g.operatorsOn e) i k p).rank f) := by
  have hfind : (((g.operatorsOn e).map (OperatorUse.regrade f)).filter (·.origin.isSome)).zipIdx.find?
      (·.1.origin == some (i, k)) =
      (((g.operatorsOn e).filter (·.origin.isSome)).zipIdx.find? (·.1.origin == some (i, k))).map
        (Prod.map (OperatorUse.regrade f) id) := by
    rw [List.filter_map, List.zipIdx_map, List.find?_map]
    rfl
  simp only [keptProduction, operatorsOn_regrade, ladderAt_regrade h hps, hfind]
  cases hfound : ((g.operatorsOn e).filter (·.origin.isSome)).zipIdx.find?
      (·.1.origin == some (i, k)) with
  | none =>
      -- A production that declares no operator stays as it is.
      exact hdeclared.regrade_eq f
  | some x =>
      -- One that does becomes a climb, and this has a priority of its own.
      obtain ⟨op, j⟩ := x
      have hmem := List.mem_of_getElem? (List.mk_mem_zipIdx_iff_getElem?.1
        (List.mem_of_find?_eq_some hfound))
      have hlevel := Ladder.levelOf_regrade h (priority_mem_of_levels hps (e := e))
        (priority_mem_of_operatorsOn hps op (List.mem_filter.1 hmem).1)
      simp only [Option.map_some, Prod.map_apply, OperatorUse.regrade, Prec.regrade, hlevel,
        Ladder.climbProduction_regrade, Ladder.forced_regrade]
      rfl

/-- The operators of a level are those of the image of its priority. -/
theorem filter_operatorsOn_regrade {p : Int32} (hp : p ∈ ps) :
    ((g.regrade f).operatorsOn e).filter (·.prec.priority == f p) =
      ((g.operatorsOn e).filter (·.prec.priority == p)).map (OperatorUse.regrade f) := by
  rw [operatorsOn_regrade, List.filter_map]
  refine congrArg (List.map _) (List.filter_congr fun op hop => ?_)
  rw [Bool.eq_iff_iff, beq_iff_eq, Function.comp_apply, beq_iff_eq]
  exact h.eq_iff (priority_mem_of_operatorsOn hps op hop) hp

variable (hops : g.operatorsOn e ≠ [])
include hops

theorem size_stratifyAt_regrade : ((g.regrade f).stratifyAt e).size = (g.stratifyAt e).size := by
  rw [size_stratifyAt (operatorsOn_regrade_ne_nil f hops), size_stratifyAt hops, size_regrade,
    ladderAt_regrade h hps, Ladder.height_regrade, declaredOperators_regrade, List.length_map]

/-- A level belongs to the type of its ladder, whatever its priority is. -/
theorem typeNameOf_stratifyAt_regrade (nt : Nat) :
    typeNameOf (((g.regrade f).stratifyAt e).nameOf nt) = typeNameOf ((g.stratifyAt e).nameOf nt) := by
  have hops' := operatorsOn_regrade_ne_nil f hops
  have hladder := ladderAt_regrade h hps e
  by_cases hnt : nt < (g.stratifyAt e).size
  · -- Old non-terminals keep their names, and the names of new ones are equal but for priorities.
    rcases lt_size_stratifyAt_cases hops hnt with
      hold | ⟨k, hpos, hk, rfl⟩ | ⟨k, hk, rfl⟩ | rfl | ⟨j, hj, rfl⟩
    · rw [nameOf_stratifyAt hold, nameOf_stratifyAt (by rwa [size_regrade]), nameOf_regrade]
    · have hhead := typeNameOf_head hops' hpos (k := k) (by rwa [hladder, Ladder.height_regrade])
      rw [hladder, Ladder.head_regrade, nameOf_regrade] at hhead
      rw [hhead, typeNameOf_head hops hpos hk]
    · have htail := typeNameOf_tail hops' (k := k) (by rwa [hladder, Ladder.height_regrade])
      rw [hladder, Ladder.tail_regrade, nameOf_regrade] at htail
      rw [htail, typeNameOf_tail hops hk]
    · have hatom := nameOf_atom hops'
      rw [hladder, Ladder.atom_regrade, nameOf_regrade] at hatom
      rw [hatom, nameOf_atom hops]
    · obtain ⟨op, hop⟩ : ∃ op, (g.declaredOperators e)[j]? = some op := ⟨_, List.getElem?_eq_getElem hj⟩
      obtain ⟨origin, ho⟩ := Option.isSome_iff_exists.1
        (List.mem_filter.1 (List.mem_of_getElem? hop)).2
      have hforced := nameOf_forced hops' (getElem?_declaredOperators_regrade f hop) ho
      rw [hladder, Ladder.forced_regrade, nameOf_regrade] at hforced
      rw [hforced, nameOf_forced hops hop ho]
  · have hsize := size_stratifyAt_regrade h hps hops
    rw [nameOf, nameOf, List.getElem?_eq_none (Nat.le_of_not_lt hnt), List.getElem?_eq_none]
    show ((g.regrade f).stratifyAt e).size ≤ nt
    omega

omit h hps hops in
/-- At this number the step makes the same productions of both grammars, but for the priorities, which are
ranks. -/
def RegradedAt (f : Int32 → Int32) (g : Grammar) (e nt : Nat) : Prop :=
  ((g.regrade f).stratifyAt e).productionsOf nt =
    ((g.stratifyAt e).productionsOf nt).map fun p => p.withPriority (p.rank f)

theorem regradedAt_base (he : e < g.size) : RegradedAt f g e e := by
  have hops' := operatorsOn_regrade_ne_nil f hops
  have hladder := ladderAt_regrade h hps e
  rw [RegradedAt, productionsOf_base hops he, productionsOf_base hops' (by rwa [size_regrade]), hladder]
  simp only [Ladder.climbProduction_regrade, Ladder.tail_regrade]
  rfl

theorem regradedAt_kept {types nt : Nat} (hstaged : g.Staged types g.size) (hold : nt < g.size)
    (hne : nt ≠ e) : RegradedAt f g e nt := by
  have hops' := operatorsOn_regrade_ne_nil f hops
  rw [RegradedAt, productionsOf_kept hops hold hne, productionsOf_kept hops' (by rwa [size_regrade]) hne,
    productionsOf_regrade, List.zipIdx_map, List.map_map, List.map_map]
  apply List.map_congr_left
  intro x hx
  have hp := List.mem_of_getElem? (List.mk_mem_zipIdx_iff_getElem?.1 hx)
  exact keptProduction_regrade h hps (hstaged.declared_of_mem hp)

theorem regradedAt_head {k : Nat} (hpos : 0 < k) (hk : k < (g.ladderAt e).height) :
    RegradedAt f g e ((g.ladderAt e).head k) := by
  have hops' := operatorsOn_regrade_ne_nil f hops
  have hladder := ladderAt_regrade h hps e
  have hhead := productionsOf_head hops' hpos (k := k) (by rwa [hladder, Ladder.height_regrade])
  rw [hladder, Ladder.head_regrade, Ladder.climbProduction_regrade, Ladder.tail_regrade] at hhead
  rw [RegradedAt, hhead, productionsOf_head hops hpos hk]
  rfl

theorem regradedAt_tail {k : Nat} (hk : k < (g.ladderAt e).height) :
    RegradedAt f g e ((g.ladderAt e).tail k) := by
  have hops' := operatorsOn_regrade_ne_nil f hops
  have hladder := ladderAt_regrade h hps e
  have hlevels := priority_mem_of_levels hps (e := e)
  have hlevel : (g.ladderAt e).levels[k]? = some ((g.ladderAt e).levels[k]) :=
    List.getElem?_eq_getElem hk
  -- The level of the same number is that of the image of the priority, and has the same operators.
  have hlevel' : ((g.regrade f).ladderAt e).levels[k]? = some (f (g.ladderAt e).levels[k]) := by
    rw [hladder, Ladder.regrade, List.getElem?_map, hlevel]
    rfl
  have htail := productionsOf_tail hops' hlevel'
  rw [hladder, Ladder.tail_regrade,
    filter_operatorsOn_regrade h hps (hlevels _ (List.mem_of_getElem? hlevel)), List.map_map] at htail
  rw [RegradedAt, htail, productionsOf_tail hops hlevel, List.map_append, List.map_map]
  refine congrArg (· ++ _) (List.map_congr_left fun op hop => ?_)
  exact Ladder.tailProduction_regrade h hlevels
    (priority_mem_of_operatorsOn hps op (List.mem_filter.1 hop).1)

theorem regradedAt_atom {types : Nat} (hstaged : g.Staged types g.size) :
    RegradedAt f g e (g.ladderAt e).atom := by
  have hladder := ladderAt_regrade h hps e
  have hatom := productionsOf_atom (operatorsOn_regrade_ne_nil f hops)
  rw [hladder, Ladder.atom_regrade, atomsOf_regrade, List.map_map] at hatom
  rw [RegradedAt, hatom, productionsOf_atom hops, List.map_map]
  apply List.map_congr_left
  intro p hp
  obtain ⟨m, -, hp, -⟩ := mem_atomsOf_iff.1 hp
  refine (Ladder.atomProduction_regrade h (priority_mem_of_levels hps) (hps m p hp)).trans ?_
  rw [Function.comp_apply, Ladder.rank_atomProduction, (hstaged.declared_of_mem hp).rank_eq,
    ← (g.ladderAt e).prec_atomProduction p]
  rfl

theorem regradedAt_forced {j : Nat} (hj : j < (g.declaredOperators e).length) :
    RegradedAt f g e ((g.ladderAt e).forced j) := by
  have hladder := ladderAt_regrade h hps e
  have hop : (g.declaredOperators e)[j]? = some (g.declaredOperators e)[j] := List.getElem?_eq_getElem hj
  have hmem := (List.mem_filter.1 (List.mem_of_getElem? hop)).1
  have hforced := productionsOf_forced (operatorsOn_regrade_ne_nil f hops)
    (getElem?_declaredOperators_regrade f hop)
  rw [hladder, Ladder.forced_regrade, Ladder.tailProduction_regrade h (priority_mem_of_levels hps)
    (priority_mem_of_operatorsOn hps _ hmem)] at hforced
  rw [RegradedAt, hforced, productionsOf_forced hops hop]
  rfl

variable {types : Nat} (hstaged : g.Staged types g.size) (he : e < g.size)
include hstaged he

theorem regradedAt_all (nt : Nat) : RegradedAt f g e nt := by
  by_cases hnt : nt < (g.stratifyAt e).size
  · rcases lt_size_stratifyAt_cases hops hnt with
      hold | ⟨k, hpos, hk, rfl⟩ | ⟨k, hk, rfl⟩ | rfl | ⟨j, hj, rfl⟩
    · by_cases hne : nt = e
      · rw [hne]
        exact regradedAt_base h hps hops he
      · exact regradedAt_kept h hps hops hstaged hold hne
    · exact regradedAt_head h hps hops hpos hk
    · exact regradedAt_tail h hps hops hk
    · exact regradedAt_atom h hps hops hstaged
    · exact regradedAt_forced h hps hops hj
  · have hsize : ((g.regrade f).stratifyAt e).size ≤ nt := by
      rw [size_stratifyAt_regrade h hps hops]
      exact Nat.le_of_not_lt hnt
    rw [RegradedAt, productionsOf_of_size_le hsize, productionsOf_of_size_le (Nat.le_of_not_lt hnt)]
    rfl

/-- A grammar with other priorities in the same order gets the same ladder with these priorities. -/
theorem regrades_stratifyAt :
    (g.stratifyAt e).Regrades (Production.rank f) ((g.regrade f).stratifyAt e) where
  arena_eq := by rw [stratifyAt_arena, stratifyAt_arena]; rfl
  start_eq := by rw [stratifyAt_start, stratifyAt_start]; rfl
  size_eq := size_stratifyAt_regrade h hps hops
  typeName_eq := typeNameOf_stratifyAt_regrade h hps hops
  productionsOf := regradedAt_all h hps hops hstaged he

end Step

end Grammar

end SmallLang
