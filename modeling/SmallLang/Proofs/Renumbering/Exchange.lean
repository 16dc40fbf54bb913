import SmallLang.Proofs.Renumbering.Step

/-!
# The order of steps

The step of a non-terminal reads the productions of its unit closure, and rewrites its own and those that
declare operators on it. So two steps can be exchanged unless one of them reads what the other one
rewrites (`Grammar.Depends`): both orders give the same grammar with other numbers
(`Grammar.Staged.exists_exchange`), and any two orders do in which steps that depend on each other
come in the same order (`Grammar.Staged.exists_steps`).
-/

set_option autoImplicit false

namespace SmallLang

open Equiv (Perm)
open Relation (ReflTransGen)

/-! ## Exchanged numbers -/

/-- The `a` numbers from `n` on change places with the `b` numbers after them. -/
def exchange (n a b : Nat) : Perm Nat where
  toFun i := if i < n then i else if i < n + a then i + b else if i < n + a + b then i - a else i
  invFun i := if i < n then i else if i < n + b then i + a else if i < n + a + b then i - b else i
  left_inv i := by
    simp only
    split_ifs <;> omega
  right_inv i := by
    simp only
    split_ifs <;> omega

section Exchange

variable {n a b i : Nat}

theorem exchange_eq (n a b i : Nat) : exchange n a b i =
    if i < n then i else if i < n + a then i + b else if i < n + a + b then i - a else i := rfl

theorem exchange_symm (n a b : Nat) : (exchange n a b).symm = exchange n b a := by
  ext i
  show (if i < n then i else if i < n + b then i + a else if i < n + a + b then i - b else i) = _
  rw [exchange_eq]
  split_ifs <;> omega

theorem exchange_of_lt (h : i < n) : exchange n a b i = i := if_pos h

theorem exchange_add_of_lt (h : i < a) : exchange n a b (n + i) = n + b + i := by
  rw [exchange_eq]
  split_ifs <;> omega

theorem exchange_one_add (n a : Nat) : exchange n a 1 (n + a) = n := by
  rw [exchange_eq]
  split_ifs <;> omega

theorem exchange_lt_iff : exchange n a b i < n + a + b ↔ i < n + a + b := by
  rw [exchange_eq]
  split_ifs <;> omega

end Exchange

/-- The exchange of numbers of non-terminals. Terminals keep theirs, and nodes their kinds. -/
def Renumbering.exchange (n a b : Nat) : Renumbering :=
  ⟨SmallLang.exchange n a b, Equiv.refl Nat, Equiv.refl String⟩

theorem Renumbering.exchange_symm (n a b : Nat) : (exchange n a b).symm = exchange n b a :=
  congrArg (Renumbering.mk · (Equiv.refl Nat) (Equiv.refl String)) (SmallLang.exchange_symm n a b)

namespace Grammar

variable {g : Grammar} {types size x y : Nat}

/-- What the step of the first non-terminal reads depends on whether the step of the second one was
done: both units closures hold an operator on the second one. -/
def Depends (g : Grammar) (x y : Nat) : Prop :=
  g.operatorsOn x ≠ [] ∧ ∃ m i p, m ∈ g.unitClosure x ∧ m ∈ g.unitClosure y ∧
    g.production? m i = some p ∧ p.isOperatorOn y = true

/-- Only steps of non-terminals with operators depend on each other. -/
theorem Depends.operatorsOn_ne_nil (h : g.Depends x y) :
    g.operatorsOn x ≠ [] ∧ g.operatorsOn y ≠ [] := by
  obtain ⟨hx, m, i, p, -, hm, hp, hisop⟩ := h
  exact ⟨hx, List.ne_nil_of_mem (mem_operatorsOn_iff.2 ⟨m, i, p, hm, hp, hisop, rfl⟩)⟩

/-- What the step of the first non-terminal reads can be looked through. -/
def dependsOn (g : Grammar) (x y : Nat) : Bool :=
  !(g.operatorsOn x).isEmpty && (g.unitClosure x).any fun m =>
    (g.unitClosure y).contains m && (g.productionsOf m).any (·.isOperatorOn y)

theorem dependsOn_eq_true_iff : g.dependsOn x y = true ↔ g.Depends x y := by
  simp only [dependsOn, Bool.and_eq_true, Bool.not_eq_true', List.isEmpty_eq_false_iff, List.any_eq_true,
    List.contains_iff_mem]
  refine and_congr_right fun _ => ⟨?_, ?_⟩
  · rintro ⟨m, hx, hy, p, hp, hisop⟩
    obtain ⟨i, hi⟩ := mem_productionsOf_iff.1 hp
    exact ⟨m, i, p, hx, hy, hi, hisop⟩
  · rintro ⟨m, i, p, hx, hy, hp, hisop⟩
    exact ⟨m, hx, hy, p, mem_productionsOf_iff.2 ⟨i, hp⟩, hisop⟩

instance (g : Grammar) (x y : Nat) : Decidable (g.Depends x y) :=
  decidable_of_iff _ dependsOn_eq_true_iff

theorem mem_unitClosure_trans {a b c : Nat} (hab : b ∈ g.unitClosure a) (hbc : c ∈ g.unitClosure b) :
    c ∈ g.unitClosure a :=
  mem_unitClosure_iff.2 ((mem_unitClosure_iff.1 hab).trans (mem_unitClosure_iff.1 hbc))

/-! ## The same ladder in a larger grammar -/

theorem agreesBelow_exchange (g : Grammar) (a b : Nat) :
    Renumbering.AgreesBelow g.size .refl (.exchange g.size a b) :=
  ⟨fun _ hi => exchange_of_lt hi, rfl, rfl⟩

section Larger

variable {g' : Grammar} (hops : g.operatorsOn x ≠ [])
  (hoperators : g'.operatorsOn x = g.operatorsOn x) {a b : Nat}
  (ha : (g.stratifyAt x).size = g.size + a) (hb : g'.size = g.size + b)
include hops hoperators ha hb

/-- Where a step finds the same operators and the same atoms in a larger grammar, it makes the same
ladder, with numbers after those that this grammar has more. -/
theorem movesLadder_of_eq (hg : g.HasSymbols) (hx : x < g.size)
    (hatoms : g'.atomsOf x = g.atomsOf x) :
    MovesLadder (.exchange g.size a b) (fun _ => Equiv.refl Nat) (Equiv.refl Nat) g g' x := by
  have hagrees := agreesBelow_exchange g a b
  have hnumber : (Renumbering.exchange g.size a b).nonTerminal x = x := exchange_of_lt hx
  have huse : ∀ op ∈ g.operatorsOn x, Renumbering.operatorUse
      (.exchange g.size a b) (fun _ => Equiv.refl Nat) op = op := fun op hop =>
    (operatorUse_congr _ hg hagrees hop).trans (Renumbering.operatorUse_refl op)
  have hlevels : (g'.ladderAt x).height = (g.ladderAt x).height := by
    rw [Ladder.height, Ladder.height, ladderAt, ladderAt, hoperators]
    rfl
  rw [size_stratifyAt hops] at ha
  refine ⟨⟨?_, ?_⟩, fun j => ?_, fun i hi => ?_, fun j hj => ?_⟩
  · rw [hnumber, hoperators, List.map_congr_left huse, List.map_id']
  · have hatom : ∀ p ∈ g.atomsOf x, Renumbering.production
        (.exchange g.size a b) p = p := fun p hp => by
      obtain ⟨m, -, hm, -⟩ := mem_atomsOf_iff.1 hp
      rw [hagrees.production_eq (hg m p hm), Renumbering.production_refl]
    rw [hnumber, hatoms, List.map_congr_left hatom, List.map_id']
  · rw [hnumber, declaredOperators, hoperators, ← declaredOperators]
    cases hop : (g.declaredOperators x)[j]? with
    | none => exact hop
    | some op =>
        rw [Option.map_some, huse op (List.mem_filter.1 (List.mem_of_getElem? hop)).1]
        exact hop
  · rw [hb]
    exact exchange_add_of_lt (by omega)
  · rw [hnumber, Ladder.forced, Ladder.forced, hlevels, ladderAt_first, ladderAt_first, hb,
      Nat.add_assoc, Nat.add_assoc (g.size + b)]
    exact exchange_add_of_lt (by omega)

theorem size_stratifyAt_of_eq : (g'.stratifyAt x).size = g.size + b + a := by
  rw [size_stratifyAt hops] at ha
  rw [size_stratifyAt (by rwa [hoperators]), hb, declaredOperators, Ladder.height, ladderAt,
    hoperators, ← declaredOperators]
  simp only [Ladder.height, ladderAt] at ha
  have hlevels : (ladderOf g' x (g.operatorsOn x)).levels =
      (ladderOf g x (g.operatorsOn x)).levels := rfl
  rw [hlevels]
  omega

end Larger

namespace Staged

variable (h : g.Staged types size)
include h

/-! ## What a step leaves -/

/-- All that a step makes of old productions are climbs. -/
theorem production?_of_stratifyAt {m i : Nat} {p : Production} (hm : m < size)
    (hp : (g.stratifyAt y).production? m i = some p) (hc : p.construction ≠ .climb) :
    g.production? m i = some p := by
  have hmg : m < g.size := Nat.lt_of_lt_of_le hm h.size_le
  by_cases hops : g.operatorsOn y = []
  · rwa [stratifyAt_of_eq_nil hops] at hp
  by_cases hmy : m = y
  · exfalso
    subst hmy
    have hmem := mem_productionsOf_iff.2 ⟨i, hp⟩
    rw [productionsOf_base hops hmg] at hmem
    rw [List.mem_singleton.1 hmem] at hc
    exact hc rfl
  · rw [production?_kept hops hmg hmy] at hp
    obtain ⟨q, hq, rfl⟩ := Option.map_eq_some_iff.1 hp
    rcases keptProduction_cases g y m i q with heq | ⟨j, op, -, -, heq⟩
    · rw [heq]
      exact hq
    · rw [heq] at hc
      exact absurd rfl hc

theorem unitStep_of_stratifyAt {a b : Nat} (ha : a < size) (hab : (g.stratifyAt y).UnitStep a b) :
    g.UnitStep a b := by
  obtain ⟨p, hp, ht, -⟩ := hab
  obtain ⟨i, hi⟩ := mem_productionsOf_iff.1 hp
  have hc := (Production.unitTarget?_eq_some_iff.1 ht).2
  have hmem := mem_productionsOf_iff.2 ⟨i, h.production?_of_stratifyAt ha hi (by rw [hc]; simp)⟩
  have hlt := Nat.lt_of_lt_of_le (h.lt_of_unitTarget? ha hmem ht).2 h.types_le
  exact ⟨p, hmem, ht, Nat.lt_of_lt_of_le hlt h.size_le⟩

/-- A step makes no unit closure larger. -/
theorem mem_unitClosure_of_stratifyAt (hx : x < size) {m : Nat}
    (hm : m ∈ (g.stratifyAt y).unitClosure x) : m ∈ g.unitClosure x := by
  have hpath := mem_unitClosure_iff.1 hm
  clear hm
  induction hpath with
  | refl => exact self_mem_unitClosure g x
  | tail _ hstep ih =>
      have hlt := h.lt_size_of_mem_unitClosure hx ih
      exact mem_unitClosure_iff.2
        ((mem_unitClosure_iff.1 ih).tail (h.unitStep_of_stratifyAt hlt hstep))

/-- A step makes no operator on an old non-terminal. -/
theorem isOperatorOn_of_stratifyAt (hy : y < size) (hx : x < size) {m i : Nat} {p : Production}
    (hm : m < size) (hp : (g.stratifyAt y).production? m i = some p)
    (hisop : p.isOperatorOn x = true) : g.production? m i = some p :=
  h.production?_of_stratifyAt hm hp
    ((h.stratifyAt hy).construction_ne_climb hx hm (mem_productionsOf_iff.2 ⟨i, hp⟩) hisop)

theorem operatorsOn_of_stratifyAt (hy : y < size) (hx : x < size)
    (hops : (g.stratifyAt y).operatorsOn x ≠ []) : g.operatorsOn x ≠ [] := by
  obtain ⟨op, hop⟩ := List.exists_mem_of_ne_nil _ hops
  obtain ⟨m, i, p, hm, hp, hisop, -⟩ := mem_operatorsOn_iff.1 hop
  have hm' := h.mem_unitClosure_of_stratifyAt hx hm
  have hp' := h.isOperatorOn_of_stratifyAt hy hx (h.lt_size_of_mem_unitClosure hx hm') hp hisop
  exact List.ne_nil_of_mem (mem_operatorsOn_iff.2 ⟨m, i, p, hm', hp', hisop, rfl⟩)

/-- A step makes no operator that another type declares. -/
theorem exists_of_origin_stratifyAt (hy : y < size) (hx : x < size) {op : OperatorUse} {m i : Nat}
    (hop : op ∈ (g.stratifyAt y).operatorsOn x) (ho : op.origin = some (m, i)) :
    m ∈ g.unitClosure x ∧ m ≠ x ∧ ∃ p, g.production? m i = some p ∧ p.isOperatorOn x = true := by
  obtain ⟨p, hm, hp, hisop, hne, -⟩ := exists_of_origin hop ho
  have hm' := h.mem_unitClosure_of_stratifyAt hx hm
  exact ⟨hm', hne, p, h.isOperatorOn_of_stratifyAt hy hx (h.lt_size_of_mem_unitClosure hx hm') hp
    hisop, hisop⟩

/-- The other step leaves what does not declare an operator for this one. -/
theorem keptProduction_stratifyAt (hy : y < size) (hx : x < size) {m i : Nat}
    (hclaimed : ¬ ∃ op ∈ g.operatorsOn x, op.origin = some (m, i)) (p : Production) :
    keptProduction ((g.stratifyAt y).ladderAt x) ((g.stratifyAt y).operatorsOn x) m i p = p := by
  refine keptProduction_of_not (fun ⟨op, hop, ho⟩ => hclaimed ?_) p
  obtain ⟨hm, hne, q, hq, hisop⟩ := h.exists_of_origin_stratifyAt hy hx hop ho
  exact ⟨_, mem_operatorsOn_iff.2 ⟨m, i, q, hm, hq, hisop, rfl⟩, if_neg hne⟩

/-- A step makes no two other steps depend on each other. -/
theorem depends_of_stratifyAt {a b : Nat} (hy : y < size) (ha : a < size) (hb : b < size)
    (hdepends : (g.stratifyAt y).Depends a b) : g.Depends a b := by
  obtain ⟨hops, m, i, p, hma, hmb, hp, hisop⟩ := hdepends
  have hma' := h.mem_unitClosure_of_stratifyAt ha hma
  have hm := h.lt_size_of_mem_unitClosure ha hma'
  exact ⟨h.operatorsOn_of_stratifyAt hy ha hops, m, i, p, hma',
    h.mem_unitClosure_of_stratifyAt hb hmb, h.isOperatorOn_of_stratifyAt hy hb hm hp hisop, hisop⟩

/-! ## Steps that do not depend on each other -/

section Independent

variable (hx : x < size) (hops : g.operatorsOn x ≠ []) (hnot : ¬ g.Depends x y)
include hx hops hnot

/-- A step leaves the productions that another one does not share with it. -/
theorem productionsOf_of_not_depends {m : Nat} (hm : m ∈ g.unitClosure x) :
    (g.stratifyAt y).productionsOf m = g.productionsOf m := by
  by_cases hopsy : g.operatorsOn y = []
  · rw [stratifyAt_of_eq_nil hopsy]
  have hmg : m < g.size := Nat.lt_of_lt_of_le (h.lt_size_of_mem_unitClosure hx hm) h.size_le
  refine productionsOf_stratifyAt_of_not hmg (Or.inl ?_) fun i ⟨op, hop, ho⟩ => ?_
  · rintro rfl
    obtain ⟨op, hop⟩ := List.exists_mem_of_ne_nil _ hopsy
    obtain ⟨m', i, p, hm', hp, hisop, -⟩ := mem_operatorsOn_iff.1 hop
    exact hnot ⟨hops, m', i, p, mem_unitClosure_trans hm hm', hm', hp, hisop⟩
  · obtain ⟨p, hm', hp, hisop, -⟩ := exists_of_origin hop ho
    exact hnot ⟨hops, m, i, p, hm, hm', hp, hisop⟩

theorem unitClosure_stratifyAt : (g.stratifyAt y).unitClosure x = g.unitClosure x := by
  have hsize : g.size ≤ (g.stratifyAt y).size := by
    by_cases hopsy : g.operatorsOn y = []
    · rw [stratifyAt_of_eq_nil hopsy]
    · exact size_le_stratifyAt hopsy
  refine Reach.reachable_congr (fun m hm => ?_) fun m hm t ht => ?_
  · rw [h.productionsOf_of_not_depends hx hops hnot hm]
  · obtain ⟨p, hp, ht⟩ := List.mem_filterMap.1 ht
    have hlt := (h.lt_of_unitTarget? (h.lt_size_of_mem_unitClosure hx hm) hp ht).2
    have hle := h.types_le
    have hge := h.size_le
    omega

theorem operatorsOn_stratifyAt : (g.stratifyAt y).operatorsOn x = g.operatorsOn x := by
  rw [operatorsOn, operatorsOn, h.unitClosure_stratifyAt hx hops hnot]
  refine List.flatMap_congr fun m hm => ?_
  rw [h.productionsOf_of_not_depends hx hops hnot hm]

theorem atomsOf_stratifyAt : (g.stratifyAt y).atomsOf x = g.atomsOf x := by
  rw [atomsOf, atomsOf, h.unitClosure_stratifyAt hx hops hnot]
  refine List.flatMap_congr fun m hm => ?_
  rw [h.productionsOf_of_not_depends hx hops hnot hm]

end Independent

/-! ## Exchanging two steps -/

section Exchange

variable (hx : x < size) (hops : g.operatorsOn x ≠ []) (hnot : ¬ g.Depends x y) {a b : Nat}
  (ha : (g.stratifyAt x).size = g.size + a) (hb : (g.stratifyAt y).size = g.size + b)
include hx hops hnot

include ha hb in
/-- After an independent step the same ladder is made, with numbers after those that this step has
added. -/
theorem movesLadder_exchange :
    MovesLadder (.exchange g.size a b) (fun _ => Equiv.refl Nat) (Equiv.refl Nat) g
      (g.stratifyAt y) x :=
  movesLadder_of_eq hops (h.operatorsOn_stratifyAt hx hops hnot) ha hb h.hasSymbol
    (Nat.lt_of_lt_of_le hx h.size_le) (h.atomsOf_stratifyAt hx hops hnot)

include ha hb in
theorem size_exchange : ((g.stratifyAt y).stratifyAt x).size = g.size + b + a :=
  size_stratifyAt_of_eq hops (h.operatorsOn_stratifyAt hx hops hnot) ha hb

include ha hb in
/-- In either order the first step makes the same of its non-terminal, and adds the same. -/
theorem productionsOf_exchange (hy : y < size) (hne : x ≠ y) {nt : Nat}
    (hnt : nt = x ∨ g.size ≤ nt ∧ nt < g.size + a) :
    (((g.stratifyAt y).stratifyAt x).productionsOf (exchange g.size a b nt)).Perm
      ((((g.stratifyAt x).stratifyAt y).productionsOf nt).map
        (Renumbering.production (.exchange g.size a b))) := by
  have hmoves := h.movesLadder_exchange hx hops hnot ha hb
  have hxg : x < g.size := Nat.lt_of_lt_of_le hx h.size_le
  have hnumber : (Renumbering.exchange g.size a b).nonTerminal x = x := exchange_of_lt hxg
  rcases hnt with rfl | ⟨hge, hlt⟩
  · have hbase := hmoves.productionsOf_base hops hxg (by rw [hnumber, hb]; omega)
    rw [hnumber] at hbase
    have hkeeps : ((g.stratifyAt nt).stratifyAt y).productionsOf nt =
        (g.stratifyAt nt).productionsOf nt := by
      refine productionsOf_stratifyAt_of_not (by rw [ha]; omega) (Or.inl hne) fun i ⟨op, hop, ho⟩ => ?_
      obtain ⟨hm, -, p, hp, hisop⟩ := h.exists_of_origin_stratifyAt hx hy hop ho
      exact hnot ⟨hops, nt, i, p, self_mem_unitClosure g nt, hm, hp, hisop⟩
    rw [exchange_of_lt hxg, hkeeps, hbase]
  · have hnew := hmoves.productionsOf_new hops hge (by rw [ha]; exact hlt)
    rw [hnumber] at hnew
    rwa [(h.stratifyAt hx).productionsOf_stratifyAt_of_le hy (Nat.le_trans h.size_le hge)
      (by rw [ha]; exact hlt)]

include ha hb in
/-- In either order the second step makes the same of its non-terminal, and adds the same: this is the
same statement with the numbers exchanged back. -/
theorem productionsOf_exchange_symm (hy : y < size) (hne : x ≠ y) {nt : Nat}
    (hnt : nt = x ∨ g.size + b ≤ nt ∧ nt < g.size + b + a) :
    (((g.stratifyAt x).stratifyAt y).productionsOf (exchange g.size b a nt)).Perm
      ((((g.stratifyAt y).stratifyAt x).productionsOf nt).map
        (Renumbering.production (.exchange g.size b a))) := by
  have hxg : x < g.size := Nat.lt_of_lt_of_le hx h.size_le
  have hmoved : exchange g.size b a nt = x ∨
      g.size ≤ exchange g.size b a nt ∧ exchange g.size b a nt < g.size + a := by
    rw [exchange_eq]
    split_ifs <;> omega
  have hperm := h.productionsOf_exchange hx hops hnot ha hb hy hne hmoved
  rw [← SmallLang.exchange_symm, Equiv.symm_apply_apply, ← Renumbering.exchange_symm] at hperm
  have hmap := hperm.map (Renumbering.production (.exchange g.size b a))
  have hid : (Renumbering.exchange g.size b a).production ∘
      (Renumbering.exchange g.size b a).symm.production = id :=
    funext (Renumbering.exchange g.size b a).symm.production_symm_production
  rw [List.map_map, hid, List.map_id] at hmap
  exact hmap.symm

end Exchange

/-- Two steps make the same of a production that was there before, in either order. -/
theorem keptProduction_exchange (hx : x < size) (hy : y < size) (hopsx : g.operatorsOn x ≠ [])
    (hopsy : g.operatorsOn y ≠ []) (hne : x ≠ y) (hxy : ¬ g.Depends x y) (hyx : ¬ g.Depends y x)
    {a b : Nat} (ha : (g.stratifyAt x).size = g.size + a) (hb : (g.stratifyAt y).size = g.size + b)
    {m i : Nat} {p : Production} (hp : g.production? m i = some p) :
    keptProduction ((g.stratifyAt y).ladderAt x) ((g.stratifyAt y).operatorsOn x) m i
        (keptProduction (g.ladderAt y) (g.operatorsOn y) m i p) =
      Renumbering.production (.exchange g.size a b)
        (keptProduction ((g.stratifyAt x).ladderAt y) ((g.stratifyAt x).operatorsOn y) m i
          (keptProduction (g.ladderAt x) (g.operatorsOn x) m i p)) := by
  have hold : ∀ {nt}, nt < g.size → ∀ a b, (Renumbering.exchange g.size a b).nonTerminal nt = nt :=
    fun hnt a b => exchange_of_lt hnt
  have hpold : ∀ a b, (Renumbering.exchange g.size a b).production p = p := fun a b => by
    rw [(agreesBelow_exchange g a b).production_eq
      (h.hasSymbol m p (mem_productionsOf_iff.2 ⟨i, hp⟩)), Renumbering.production_refl]
  have hm := lt_size_of_production? hp
  have hmovex := (h.movesLadder_exchange hx hopsx hxy ha hb).keptProduction_eq m i p
  rw [hold (Nat.lt_of_lt_of_le hx h.size_le), hold hm, hpold, Equiv.refl_apply] at hmovex
  have hmovey := (h.movesLadder_exchange hy hopsy hyx hb ha).keptProduction_eq m i p
  rw [hold (Nat.lt_of_lt_of_le hy h.size_le), hold hm, hpold, Equiv.refl_apply,
    ← Renumbering.exchange_symm] at hmovey
  by_cases hclaimed : ∃ op ∈ g.operatorsOn x, op.origin = some (m, i)
  · -- It declares an operator for the one step, so it declares none for the other one.
    have hclaimed' : ¬ ∃ op ∈ g.operatorsOn y, op.origin = some (m, i) := by
      rintro ⟨op', hop', ho'⟩
      obtain ⟨op, hop, ho⟩ := hclaimed
      obtain ⟨q, -, hq, hisop, -⟩ := exists_of_origin hop ho
      obtain ⟨q', -, hq', hisop', -⟩ := exists_of_origin hop' ho'
      obtain rfl := Option.some.inj (hq.symm.trans hq')
      exact hne (Production.eq_of_isOperatorOn hisop hisop')
    rw [keptProduction_of_not hclaimed', hmovex, h.keptProduction_stratifyAt hx hy hclaimed']
  · rw [keptProduction_of_not hclaimed, h.keptProduction_stratifyAt hy hx hclaimed, hmovey]
    exact ((Renumbering.exchange g.size a b).symm.production_symm_production _).symm

/-- The other non-terminals that were there before get the same productions in either order. -/
theorem productionsOf_exchange_kept (hx : x < size) (hy : y < size) (hopsx : g.operatorsOn x ≠ [])
    (hopsy : g.operatorsOn y ≠ []) (hne : x ≠ y) (hxy : ¬ g.Depends x y) (hyx : ¬ g.Depends y x)
    {a b : Nat} (ha : (g.stratifyAt x).size = g.size + a) (hb : (g.stratifyAt y).size = g.size + b)
    {nt : Nat} (hnt : nt < g.size) (hnx : nt ≠ x) (hny : nt ≠ y) :
    ((g.stratifyAt y).stratifyAt x).productionsOf nt =
      (((g.stratifyAt x).stratifyAt y).productionsOf nt).map
        (Renumbering.production (.exchange g.size a b)) := by
  have hopsx' : (g.stratifyAt y).operatorsOn x ≠ [] := by
    rwa [h.operatorsOn_stratifyAt hx hopsx hxy]
  have hopsy' : (g.stratifyAt x).operatorsOn y ≠ [] := by
    rwa [h.operatorsOn_stratifyAt hy hopsy hyx]
  refine List.ext_getElem? fun i => ?_
  rw [List.getElem?_map]
  show Grammar.production? _ nt i = (Grammar.production? _ nt i).map _
  rw [production?_kept hopsx' (by omega) hnx, production?_kept hopsy hnt hny,
    production?_kept hopsy' (by omega) hny, production?_kept hopsx hnt hnx]
  cases hp : g.production? nt i with
  | none => rfl
  | some p => exact congrArg some (h.keptProduction_exchange hx hy hopsx hopsy hne hxy hyx ha hb hp)

/-- A step that has nothing to do has nothing to do after another one. -/
theorem stratifyAt_stratifyAt_of_eq_nil (hx : x < size) (hy : y < size) (hops : g.operatorsOn x = []) :
    (g.stratifyAt y).stratifyAt x = g.stratifyAt y := by
  refine stratifyAt_of_eq_nil ?_
  by_contra hno
  exact h.operatorsOn_of_stratifyAt hy hx hno hops

/-- Two steps that do not depend on each other can be done in either order. -/
theorem exists_exchange (hstart : g.start < g.size) (hx : x < size) (hy : y < size) (hne : x ≠ y)
    (hxy : ¬ g.Depends x y) (hyx : ¬ g.Depends y x) :
    ∃ r, Renumbers r ((g.stratifyAt x).stratifyAt y) ((g.stratifyAt y).stratifyAt x) ∧
      Renumbering.AgreesBelow g.size .refl r := by
  by_cases hopsx : g.operatorsOn x = []
  · rw [h.stratifyAt_stratifyAt_of_eq_nil hx hy hopsx, stratifyAt_of_eq_nil hopsx]
    exact ⟨.refl, .refl _, .refl _ _⟩
  by_cases hopsy : g.operatorsOn y = []
  · rw [h.stratifyAt_stratifyAt_of_eq_nil hy hx hopsy, stratifyAt_of_eq_nil hopsy]
    exact ⟨.refl, .refl _, .refl _ _⟩
  obtain ⟨a, ha⟩ := Nat.exists_eq_add_of_le (size_le_stratifyAt hopsx)
  obtain ⟨b, hb⟩ := Nat.exists_eq_add_of_le (size_le_stratifyAt hopsy)
  have hsizex := h.size_exchange hx hopsx hxy ha hb
  have hsizey := h.size_exchange hy hopsy hyx hb ha
  refine ⟨.exchange g.size a b, ⟨by rw [hsizex, hsizey]; omega, fun i => ?_, ?_, ?_, fun i => ?_,
    fun nt => ?_⟩, agreesBelow_exchange g a b⟩
  · rw [hsizey]
    exact exchange_lt_iff
  · simp only [stratifyAt_start]
    exact (exchange_of_lt hstart).symm
  · simp only [stratifyAt_arena]
  · simp only [stratifyAt_arena]
    rfl
  -- What belongs to the step of `x`, what belongs to that of `y`, what is older, and numbers beyond.
  show (((g.stratifyAt y).stratifyAt x).productionsOf (exchange g.size a b nt)).Perm _
  by_cases hfirst : nt = x ∨ g.size ≤ nt ∧ nt < g.size + a
  · exact h.productionsOf_exchange hx hopsx hxy ha hb hy hne hfirst
  by_cases hsecond : nt = y ∨ g.size + a ≤ nt ∧ nt < g.size + a + b
  · exact h.productionsOf_exchange_symm hy hopsy hyx hb ha hx hne.symm hsecond
  rcases Nat.lt_or_ge nt g.size with hlt | hge
  · rw [exchange_of_lt hlt]
    exact List.Perm.of_eq (h.productionsOf_exchange_kept hx hy hopsx hopsy hne hxy hyx ha hb hlt
      (fun heq => hfirst (.inl heq)) fun heq => hsecond (.inl heq))
  · have hnot := mt (exchange_lt_iff (n := g.size) (a := a) (b := b) (i := nt)).1 (by omega)
    rw [productionsOf_of_size_le (by omega), productionsOf_of_size_le (by omega)]
    exact List.Perm.refl _

end Staged

end Grammar

end SmallLang
