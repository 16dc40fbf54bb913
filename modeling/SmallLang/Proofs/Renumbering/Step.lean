import Mathlib.Data.List.Sort
import SmallLang.Proofs.Operator.Staged
import SmallLang.Proofs.Renumbering.Grammar

/-!
# A step of stratification under other numbers

The step of a non-terminal reads its operators and its atoms. Where these are the same by other numbers
(`Grammar.SameStep`), the ladders that two grammars get are the same by other numbers: what the step adds
(`Grammar.MovesLadder.productionsOf_new`), and what becomes of the productions that declare an operator
(`Grammar.MovesLadder.keptProduction_eq`). In particular a step can be done after new numbers were given as
well as before (`Grammar.Renumbers.exists_stratifyAt`).
-/

set_option autoImplicit false

namespace SmallLang

open Equiv (Perm)
open Relation (ReflTransGen)

/-! ## Operators by other numbers -/

namespace Renumbering

variable (r : Renumbering)

@[simp] theorem unitTarget?_production (p : Production) :
    (r.production p).unitTarget? = p.unitTarget?.map r.nonTerminal := by
  obtain ⟨symbols, construction, prec⟩ := p
  match symbols with
  | [] => rfl
  | .terminal i :: rest => cases rest <;> rfl
  | .nonTerminal i :: s :: rest => rfl
  | [.nonTerminal i] =>
      cases construction with
      | child n => cases n <;> rfl
      | _ => rfl

@[simp] theorem isOperatorOn_production (e : Nat) (p : Production) :
    (r.production p).isOperatorOn (r.nonTerminal e) = p.isOperatorOn e := by
  obtain ⟨symbols, construction, prec⟩ := p
  match symbols with
  | [] => rfl
  | .terminal i :: rest => cases rest <;> rfl
  | [.nonTerminal i] => rfl
  | .nonTerminal i :: s :: rest =>
      show (r.nonTerminal i == r.nonTerminal e) = (i == e)
      rw [Bool.eq_iff_iff, beq_iff_eq, beq_iff_eq, r.nonTerminal.injective.eq_iff]

/-- An operator by the other numbers of its symbols and of the production that declares it, and with the
other kinds of nodes. -/
def operatorUse (σ : Nat → Perm Nat) (op : OperatorUse) : OperatorUse :=
  { op with
    rest := op.rest.map r.symbol
    construction := op.construction.rename r.kind
    origin := op.origin.map fun o => (r.nonTerminal o.1, σ o.1 o.2) }

theorem operatorUse_refl (op : OperatorUse) :
    refl.operatorUse (fun _ => Equiv.refl Nat) op = op := by
  obtain ⟨rest, construction, prec, origin⟩ := op
  have hrest : rest.map refl.symbol = rest := by rw [funext symbol_refl, List.map_id']
  have hconstruction : construction.rename refl.kind = construction := construction.rename_id
  simp only [operatorUse, hrest, hconstruction]
  cases origin <;> rfl

/-- Both give the same numbers below a bound, and to terminals, and the same kinds. -/
structure AgreesBelow (bound : Nat) (r s : Renumbering) : Prop where
  nonTerminal : ∀ i < bound, s.nonTerminal i = r.nonTerminal i
  terminal : s.terminal = r.terminal
  kind : s.kind = r.kind

variable {r} {s t : Renumbering} {bound : Nat}

theorem AgreesBelow.refl (bound : Nat) (r : Renumbering) : AgreesBelow bound r r :=
  ⟨fun _ _ => rfl, rfl, rfl⟩

theorem AgreesBelow.trans (h : AgreesBelow bound r s) (h' : AgreesBelow bound s t) :
    AgreesBelow bound r t :=
  ⟨fun i hi => (h'.nonTerminal i hi).trans (h.nonTerminal i hi), h'.terminal.trans h.terminal,
    h'.kind.trans h.kind⟩

theorem AgreesBelow.mono {bound' : Nat} (h : AgreesBelow bound' r s) (hle : bound ≤ bound') :
    AgreesBelow bound r s :=
  ⟨fun i hi => h.nonTerminal i (Nat.lt_of_lt_of_le hi hle), h.terminal, h.kind⟩

/-- Numbers that do not change first. -/
theorem AgreesBelow.comp (h : AgreesBelow bound .refl r) (h' : AgreesBelow bound s t) :
    AgreesBelow bound s (r.trans t) :=
  ⟨fun i hi => (congrArg t.nonTerminal (h.nonTerminal i hi)).trans (h'.nonTerminal i hi), by
    rw [← h'.terminal]
    exact congrArg (Equiv.trans · t.terminal) h.terminal, by
    rw [← h'.kind]
    exact congrArg (Equiv.trans · t.kind) h.kind⟩

/-- Numbers that do not change afterwards. -/
theorem AgreesBelow.comp_refl {bound' : Nat} (h : AgreesBelow bound r s) (h' : AgreesBelow bound' .refl t)
    (hlt : ∀ i < bound, r.nonTerminal i < bound') : AgreesBelow bound r (s.trans t) :=
  ⟨fun i hi => by
    show t.nonTerminal (s.nonTerminal i) = r.nonTerminal i
    rw [h.nonTerminal i hi]
    exact h'.nonTerminal _ (hlt i hi), by
    rw [← h.terminal]
    exact congrArg s.terminal.trans h'.terminal, by
    rw [← h.kind]
    exact congrArg s.kind.trans h'.kind⟩

theorem AgreesBelow.symbol_eq {g : Grammar} (h : AgreesBelow g.size r s) {x : Symbol}
    (hx : g.HasSymbol x) : s.symbol x = r.symbol x := by
  cases x with
  | nonTerminal i => exact congrArg Symbol.nonTerminal (h.nonTerminal i hx)
  | terminal i => exact congrArg Symbol.terminal (congrArg (· i) h.terminal)

theorem AgreesBelow.production_eq {g : Grammar} (h : AgreesBelow g.size r s) {p : Production}
    (hp : ∀ x ∈ p.symbols, g.HasSymbol x) : s.production p = r.production p :=
  s.production_congr r (fun x hx => h.symbol_eq (hp x hx)) h.kind

end Renumbering

namespace Grammar

variable {r s : Renumbering} {g g' : Grammar} {x : Nat}

/-! ## What a step reads -/

/-- By other numbers a step finds the same operators and the same atoms. -/
structure SameStep (r : Renumbering) (σ : Nat → Perm Nat) (g g' : Grammar) (x : Nat) : Prop where
  operators : (g'.operatorsOn (r.nonTerminal x)).Perm ((g.operatorsOn x).map (r.operatorUse σ))
  atoms : (g'.atomsOf (r.nonTerminal x)).Perm ((g.atomsOf x).map r.production)

namespace Renumbers

variable (h : Renumbers r g g')
include h

theorem unitStep {a b : Nat} (hab : g.UnitStep a b) :
    g'.UnitStep (r.nonTerminal a) (r.nonTerminal b) := by
  obtain ⟨p, hp, ht, hb⟩ := hab
  refine ⟨r.production p, h.mem_productionsOf hp, ?_, ?_⟩
  · rw [r.unitTarget?_production, ht, Option.map_some]
  · rw [h.size_eq, h.lt_size_iff]
    exact hb

theorem mem_unitClosure {m : Nat} (hm : m ∈ g.unitClosure x) :
    r.nonTerminal m ∈ g'.unitClosure (r.nonTerminal x) :=
  mem_unitClosure_iff.2
    (ReflTransGen.lift r.nonTerminal (fun _ _ hab => h.unitStep hab) _ _ (mem_unitClosure_iff.1 hm))

theorem mem_unitClosure_iff {m : Nat} :
    r.nonTerminal m ∈ g'.unitClosure (r.nonTerminal x) ↔ m ∈ g.unitClosure x := by
  refine ⟨fun hm => ?_, h.mem_unitClosure⟩
  have hback := h.symm.mem_unitClosure hm
  rwa [r.symm_nonTerminal_apply, r.symm_nonTerminal_apply] at hback

theorem unitClosure_perm (x : Nat) :
    (g'.unitClosure (r.nonTerminal x)).Perm ((g.unitClosure x).map r.nonTerminal) := by
  refine (List.perm_ext_iff_of_nodup (Reach.nodup_reachable _ _ _)
    ((Reach.nodup_reachable _ _ _).map r.nonTerminal.injective)).2 fun m' => ?_
  obtain ⟨m, rfl⟩ := r.nonTerminal.surjective m'
  rw [List.mem_map_of_injective r.nonTerminal.injective]
  exact h.mem_unitClosure_iff

/-- A step reads the same. -/
theorem sameStep {σ : Nat → Perm Nat} (hσ : ∀ nt i,
    g'.production? (r.nonTerminal nt) (σ nt i) = (g.production? nt i).map r.production) (x : Nat) :
    SameStep r σ g g' x := by
  constructor
  · rw [operatorsOn]
    refine ((h.unitClosure_perm x).flatMap_right _).trans ?_
    rw [List.flatMap_map, operatorsOn, List.map_flatMap]
    refine List.Perm.flatMap_left _ fun m _ => ?_
    refine ((zipIdx_perm (hσ m)).filterMap _).trans (List.Perm.of_eq ?_)
    rw [List.filterMap_map, List.map_filterMap]
    refine List.filterMap_congr ?_
    rintro ⟨p, i⟩ -
    simp only [Function.comp_def, r.isOperatorOn_production, r.nonTerminal.injective.eq_iff]
    split
    · simp only [Option.map_some, Renumbering.operatorUse, Renumbering.production, List.map_tail]
      split <;> rfl
    · rfl
  · rw [atomsOf]
    refine ((h.unitClosure_perm x).flatMap_right _).trans ?_
    rw [List.flatMap_map, atomsOf, List.map_flatMap]
    refine List.Perm.flatMap_left _ fun m _ => ?_
    refine ((h.productionsOf m).filter _).trans (List.Perm.of_eq ?_)
    rw [List.filter_map]
    refine congrArg _ (List.filter_congr fun p _ => ?_)
    have hclosure : ∀ t, (g'.unitClosure (r.nonTerminal x)).contains (r.nonTerminal t) =
        (g.unitClosure x).contains t := fun t => by
      rw [Bool.eq_iff_iff, List.contains_iff_mem, List.contains_iff_mem]
      exact h.mem_unitClosure_iff
    simp only [Function.comp_def, r.isOperatorOn_production, r.unitTarget?_production]
    cases p.unitTarget? with
    | none => rfl
    | some t => simp only [Option.map_some, Option.any_some, hclosure]

end Renumbers

/-! ## The ladders -/

theorem SameStep.levels_eq {σ : Nat → Perm Nat} (h : SameStep r σ g g' x) :
    (g'.ladderAt (r.nonTerminal x)).levels = (g.ladderAt x).levels := by
  have hmem : ∀ p, p ∈ (g'.ladderAt (r.nonTerminal x)).levels ↔ p ∈ (g.ladderAt x).levels := by
    intro p
    rw [mem_levels_ladderAt_iff, mem_levels_ladderAt_iff]
    constructor
    · rintro ⟨op', hop', rfl⟩
      obtain ⟨op, hop, rfl⟩ := List.mem_map.1 (h.operators.mem_iff.1 hop')
      exact ⟨op, hop, rfl⟩
    · rintro ⟨op, hop, rfl⟩
      exact ⟨_, h.operators.mem_iff.2 (List.mem_map_of_mem hop), rfl⟩
  exact List.Pairwise.eq_of_mem_iff (sorted_ladderAt g' _) (sorted_ladderAt g x) fun {p} => hmem p

theorem SameStep.height_eq {σ : Nat → Perm Nat} (h : SameStep r σ g g' x) :
    (g'.ladderAt (r.nonTerminal x)).height = (g.ladderAt x).height := by
  rw [Ladder.height, h.levels_eq, Ladder.height]

theorem SameStep.operatorsOn_ne_nil {σ : Nat → Perm Nat} (h : SameStep r σ g g' x)
    (hops : g.operatorsOn x ≠ []) : g'.operatorsOn (r.nonTerminal x) ≠ [] := by
  intro hnil
  have hperm := h.operators
  rw [hnil] at hperm
  exact hops (List.map_eq_nil_iff.1 hperm.nil_eq.symm)

/-- The numbers of the one ladder become those of the other one. The operators that other types declare
may be found in another order. -/
structure MovesLadder (r : Renumbering) (σ : Nat → Perm Nat) (ρ : Perm Nat) (g g' : Grammar)
    (x : Nat) : Prop where
  same : SameStep r σ g g' x
  declared : ∀ j, (g'.declaredOperators (r.nonTerminal x))[ρ j]? =
    (g.declaredOperators x)[j]?.map (r.operatorUse σ)
  level : ∀ i < 2 * (g.ladderAt x).height, r.nonTerminal (g.size + i) = g'.size + i
  forced : ∀ j < (g.declaredOperators x).length,
    r.nonTerminal ((g.ladderAt x).forced j) = (g'.ladderAt (r.nonTerminal x)).forced (ρ j)

namespace MovesLadder

variable {σ : Nat → Perm Nat} {ρ : Perm Nat} (h : MovesLadder r σ ρ g g' x)
include h

theorem levelOf_eq (p : Int32) :
    (g'.ladderAt (r.nonTerminal x)).levelOf p = (g.ladderAt x).levelOf p := by
  rw [Ladder.levelOf, h.same.levels_eq, Ladder.levelOf]

theorem head_eq {k : Nat} (hk : k < (g.ladderAt x).height) :
    r.nonTerminal ((g.ladderAt x).head k) = (g'.ladderAt (r.nonTerminal x)).head k := by
  rcases Nat.eq_zero_or_pos k with rfl | hpos
  · rfl
  · have hlevel := h.level (2 * k - 1) (by omega)
    rw [Ladder.head_of_pos hpos, Ladder.head_of_pos hpos, ladderAt_first, ladderAt_first]
    rwa [Nat.add_sub_assoc (by omega), Nat.add_sub_assoc (by omega)]

theorem tail_eq {k : Nat} (hk : k < (g.ladderAt x).height) :
    r.nonTerminal ((g.ladderAt x).tail k) = (g'.ladderAt (r.nonTerminal x)).tail k :=
  h.level (2 * k) (by omega)

theorem atom_eq (hpos : 0 < (g.ladderAt x).height) :
    r.nonTerminal (g.ladderAt x).atom = (g'.ladderAt (r.nonTerminal x)).atom := by
  have hlevel := h.level (2 * (g.ladderAt x).height - 1) (by omega)
  rw [Ladder.atom, Ladder.atom, h.same.height_eq, ladderAt_first, ladderAt_first]
  rwa [Nat.add_sub_assoc (by omega), Nat.add_sub_assoc (by omega)]

theorem operand_eq (hpos : 0 < (g.ladderAt x).height) (k : Nat) :
    r.nonTerminal ((g.ladderAt x).operand k) = (g'.ladderAt (r.nonTerminal x)).operand k := by
  rw [Ladder.operand, Ladder.operand, h.same.height_eq]
  split
  · exact h.head_eq ‹_›
  · exact h.atom_eq hpos

theorem prefixOperand_eq (hpos : 0 < (g.ladderAt x).height) (prec : Prec) :
    r.nonTerminal ((g.ladderAt x).prefixOperand prec) =
      (g'.ladderAt (r.nonTerminal x)).prefixOperand prec := by
  simp only [Ladder.prefixOperand, h.same.levels_eq]
  cases hfind : (g.ladderAt x).levels.findIdx? _ with
  | none => exact h.atom_eq hpos
  | some k => exact h.head_eq (List.findIdx?_eq_some_iff_getElem.1 hfind).1

/-- A climb stays one, at the same level. -/
theorem production_climb (hpos : 0 < (g.ladderAt x).height) (k next : Nat) :
    r.production ((g.ladderAt x).climbProduction k next) =
      (g'.ladderAt (r.nonTerminal x)).climbProduction k (r.nonTerminal next) := by
  rw [Ladder.climbProduction, Ladder.climbProduction, ← h.operand_eq hpos]
  rfl

omit h in
theorem map_replaceLast (xs : List Symbol) (i : Nat) :
    (replaceLast xs (.nonTerminal i)).map r.symbol =
      replaceLast (xs.map r.symbol) (.nonTerminal (r.nonTerminal i)) := by
  rw [replaceLast, replaceLast, List.map_append, List.map_dropLast]
  rfl

omit h in
theorem getLast?_map_beq (xs : List Symbol) (i : Nat) :
    ((xs.map r.symbol).getLast? == some (.nonTerminal (r.nonTerminal i))) =
      (xs.getLast? == some (.nonTerminal i)) := by
  have hi : (.nonTerminal (r.nonTerminal i) : Symbol) = r.symbol (.nonTerminal i) := rfl
  rw [Bool.eq_iff_iff, beq_iff_eq, beq_iff_eq, List.getLast?_map, hi, ← Option.map_some,
    (Option.map_injective r.symbol_injective).eq_iff]

omit h in
theorem isInfix_eq (op : OperatorUse) :
    (g'.ladderAt (r.nonTerminal x)).isInfix (r.operatorUse σ op) = (g.ladderAt x).isInfix op :=
  getLast?_map_beq op.rest x

omit h in
theorem loops_eq (op : OperatorUse) :
    (g'.ladderAt (r.nonTerminal x)).loops (r.operatorUse σ op) = (g.ladderAt x).loops op := by
  rw [Ladder.loops, Ladder.loops, isInfix_eq (g := g)]
  rfl

theorem rightOperand_eq {op : OperatorUse} (hop : op ∈ g.operatorsOn x) :
    r.nonTerminal ((g.ladderAt x).rightOperand op) =
      (g'.ladderAt (r.nonTerminal x)).rightOperand (r.operatorUse σ op) := by
  have hlevel := Ladder.levelOf_lt (mem_levels_ladderAt_iff.2 ⟨op, hop, rfl⟩)
  simp only [Ladder.rightOperand, Renumbering.operatorUse, h.levelOf_eq]
  split
  · exact h.head_eq hlevel
  · exact h.operand_eq (Nat.zero_lt_of_lt hlevel) _

/-- An operator stays one, in its tail. -/
theorem production_tail {op : OperatorUse} (hop : op ∈ g.operatorsOn x) :
    r.production ((g.ladderAt x).tailProduction op) =
      (g'.ladderAt (r.nonTerminal x)).tailProduction (r.operatorUse σ op) := by
  have hlevel := Ladder.levelOf_lt (mem_levels_ladderAt_iff.2 ⟨op, hop, rfl⟩)
  have hsymbols : ((g.ladderAt x).tailProduction op).symbols.map r.symbol =
      ((g'.ladderAt (r.nonTerminal x)).tailProduction (r.operatorUse σ op)).symbols := by
    rw [Ladder.tailProduction_symbols, Ladder.tailProduction_symbols, List.map_append]
    congr 1
    · rw [Ladder.operatorSymbols, Ladder.operatorSymbols, isInfix_eq (g := g),
        ← h.rightOperand_eq hop]
      split
      · exact map_replaceLast op.rest _
      · rfl
    · have htail : (g'.ladderAt (r.nonTerminal x)).tail ((g'.ladderAt (r.nonTerminal x)).levelOf
          (r.operatorUse σ op).prec.priority) =
          r.nonTerminal ((g.ladderAt x).tail ((g.ladderAt x).levelOf op.prec.priority)) := by
        rw [h.tail_eq hlevel, h.levelOf_eq]
        rfl
      rw [loops_eq (g := g), htail]
      split <;> rfl
  rw [Renumbering.production, hsymbols, Ladder.tailProduction, Ladder.tailProduction,
    loops_eq (g := g)]
  rfl

/-- An atom stays one. -/
theorem production_atom (hpos : 0 < (g.ladderAt x).height) (p : Production) :
    r.production ((g.ladderAt x).atomProduction p) =
      (g'.ladderAt (r.nonTerminal x)).atomProduction (r.production p) := by
  have hlast : ((r.production p).symbols.getLast? ==
      some (.nonTerminal (g'.ladderAt (r.nonTerminal x)).base)) =
      (p.symbols.getLast? == some (.nonTerminal (g.ladderAt x).base)) :=
    getLast?_map_beq p.symbols x
  have hlength : (r.production p).symbols.length = p.symbols.length := List.length_map _
  rw [Ladder.atomProduction, Ladder.atomProduction, hlast, hlength]
  split
  · rw [← h.prefixOperand_eq hpos, Renumbering.production, map_replaceLast]
    rfl
  · rfl

/-! ## What the step makes -/

/-- What the step adds is the same by other numbers. -/
theorem productionsOf_new (hops : g.operatorsOn x ≠ []) {nt : Nat} (hge : g.size ≤ nt)
    (hlt : nt < (g.stratifyAt x).size) :
    ((g'.stratifyAt (r.nonTerminal x)).productionsOf (r.nonTerminal nt)).Perm
      (((g.stratifyAt x).productionsOf nt).map r.production) := by
  have hops' := h.same.operatorsOn_ne_nil hops
  have hpos := height_ladderAt_pos hops
  rcases lt_size_stratifyAt_cases hops hlt with
    hold | ⟨k, hk, hlk, rfl⟩ | ⟨k, hlk, rfl⟩ | rfl | ⟨j, hj, rfl⟩
  · exact absurd hold (Nat.not_lt.2 hge)
  · rw [productionsOf_head hops hk hlk, h.head_eq hlk,
      productionsOf_head hops' hk (by rw [h.same.height_eq]; exact hlk), List.map_singleton,
      h.production_climb hpos, h.tail_eq hlk]
  · obtain ⟨p, hp⟩ : ∃ p, (g.ladderAt x).levels[k]? = some p := ⟨_, List.getElem?_eq_getElem hlk⟩
    have hp' := hp
    rw [← h.same.levels_eq] at hp'
    rw [productionsOf_tail hops hp, h.tail_eq hlk, productionsOf_tail hops' hp',
      List.map_append]
    refine List.Perm.append ?_ (List.Perm.refl _)
    refine ((h.same.operators.filter _).map _).trans (List.Perm.of_eq ?_)
    rw [List.filter_map, List.map_map, List.map_map]
    refine List.map_congr_left fun op hop => ?_
    exact (h.production_tail (List.mem_filter.1 hop).1).symm
  · rw [productionsOf_atom hops, h.atom_eq hpos, productionsOf_atom hops']
    refine (h.same.atoms.map _).trans (List.Perm.of_eq ?_)
    rw [List.map_map, List.map_map]
    exact List.map_congr_left fun p _ => (h.production_atom hpos p).symm
  · obtain ⟨op, hop⟩ : ∃ op, (g.declaredOperators x)[j]? = some op :=
      ⟨_, List.getElem?_eq_getElem hj⟩
    have hop' := h.declared j
    rw [hop, Option.map_some] at hop'
    rw [productionsOf_forced hops hop, h.forced j hj, productionsOf_forced hops' hop',
      List.map_singleton, h.production_tail (List.mem_filter.1 (List.mem_of_getElem? hop)).1]

/-- The non-terminal itself climbs as before. -/
theorem productionsOf_base (hops : g.operatorsOn x ≠ []) (hx : x < g.size)
    (hx' : r.nonTerminal x < g'.size) :
    (g'.stratifyAt (r.nonTerminal x)).productionsOf (r.nonTerminal x) =
      ((g.stratifyAt x).productionsOf x).map r.production := by
  have hpos := height_ladderAt_pos hops
  rw [Grammar.productionsOf_base hops hx,
    Grammar.productionsOf_base (h.same.operatorsOn_ne_nil hops) hx', List.map_singleton,
    h.production_climb hpos, h.tail_eq hpos]

/-- What becomes of a production is the same by other numbers. -/
theorem keptProduction_eq (m i : Nat) (p : Production) :
    keptProduction (g'.ladderAt (r.nonTerminal x)) (g'.operatorsOn (r.nonTerminal x))
        (r.nonTerminal m) (σ m i) (r.production p) =
      r.production (keptProduction (g.ladderAt x) (g.operatorsOn x) m i p) := by
  by_cases hclaimed : ∃ op ∈ g.operatorsOn x, op.origin = some (m, i)
  · obtain ⟨op, hop, ho⟩ := hclaimed
    have hpos := height_ladderAt_pos (List.ne_nil_of_mem hop)
    obtain ⟨j, op₁, hj, ho₁, heq⟩ := keptProduction_of_origin hop ho p
    have hj' := h.declared j
    rw [hj, Option.map_some] at hj'
    have ho₁' : (r.operatorUse σ op₁).origin = some (r.nonTerminal m, σ m i) := by
      rw [Renumbering.operatorUse, ho₁]
      rfl
    rw [heq, keptProduction_of_declared hj' ho₁', h.production_climb hpos,
      h.forced j (List.getElem?_eq_some_iff.1 hj).1, h.levelOf_eq]
    rfl
  · have hclaimed' : ¬ ∃ op ∈ g'.operatorsOn (r.nonTerminal x),
        op.origin = some (r.nonTerminal m, σ m i) := by
      rintro ⟨op', hop', ho'⟩
      obtain ⟨op, hop, rfl⟩ := List.mem_map.1 (h.same.operators.mem_iff.1 hop')
      obtain ⟨⟨m', i'⟩, ho, heq⟩ := Option.map_eq_some_iff.1 ho'
      obtain ⟨hm, hi⟩ := Prod.mk.inj heq
      obtain rfl := r.nonTerminal.injective hm
      obtain rfl := (σ m').injective hi
      exact hclaimed ⟨op, hop, ho⟩
    rw [keptProduction_of_not hclaimed', keptProduction_of_not hclaimed]

end MovesLadder

/-! ## A step by other numbers -/

/-- The symbols of all productions exist. -/
def HasSymbols (g : Grammar) : Prop := ∀ i, ∀ p ∈ g.productionsOf i, ∀ x ∈ p.symbols, g.HasSymbol x

/-- Only numbers that exist matter for an operator. -/
theorem operatorUse_congr (σ : Nat → Perm Nat) (hg : g.HasSymbols)
    (hagrees : Renumbering.AgreesBelow g.size r s) {op : OperatorUse}
    (hop : op ∈ g.operatorsOn x) : s.operatorUse σ op = r.operatorUse σ op := by
  obtain ⟨m, i, p, -, hp, -, rfl⟩ := mem_operatorsOn_iff.1 hop
  have hrest : p.symbols.tail.map s.symbol = p.symbols.tail.map r.symbol :=
    List.map_congr_left fun y hy => hagrees.symbol_eq
      (hg m p (mem_productionsOf_iff.2 ⟨i, hp⟩) y (List.mem_of_mem_tail hy))
  rw [Renumbering.operatorUse, Renumbering.operatorUse, operatorUse]
  simp only [hrest, hagrees.kind]
  by_cases hm : m = x
  · simp [hm]
  · simp [hm, hagrees.nonTerminal m (lt_size_of_production? hp)]

/-- Only numbers that exist matter for what a step reads. -/
theorem SameStep.congr {σ : Nat → Perm Nat} (h : SameStep r σ g g' x) (hg : g.HasSymbols)
    (hx : x < g.size) (hagrees : Renumbering.AgreesBelow g.size r s) : SameStep s σ g g' x := by
  have hnumber := hagrees.nonTerminal x hx
  constructor
  · rw [hnumber, List.map_congr_left fun op hop => operatorUse_congr σ hg hagrees hop]
    exact h.operators
  · have hatoms : ∀ p ∈ g.atomsOf x, s.production p = r.production p := by
      intro p hp
      obtain ⟨m, -, hm, -⟩ := mem_atomsOf_iff.1 hp
      exact hagrees.production_eq (hg m p hm)
    rw [hnumber, List.map_congr_left hatoms]
    exact h.atoms

/-- The operators that other types declare are the same ones, in some order. -/
theorem SameStep.declaredOperators_perm {σ : Nat → Perm Nat} (h : SameStep r σ g g' x) :
    (g'.declaredOperators (r.nonTerminal x)).Perm
      ((g.declaredOperators x).map (r.operatorUse σ)) := by
  refine (h.operators.filter _).trans (List.Perm.of_eq ?_)
  rw [List.filter_map, declaredOperators]
  refine congrArg _ (List.filter_congr fun op _ => ?_)
  exact Option.isSome_map

theorem SameStep.length_declaredOperators {σ : Nat → Perm Nat} (h : SameStep r σ g g' x) :
    (g'.declaredOperators (r.nonTerminal x)).length = (g.declaredOperators x).length := by
  rw [h.declaredOperators_perm.length_eq, List.length_map]

/-- There are numbers for what the step adds: the levels keep their places, and the operators that other
types declare come in their order. -/
theorem Renumbers.exists_movesLadder (h : Renumbers r g g') {σ : Nat → Perm Nat}
    (hsame : SameStep r σ g g' x) (hg : g.HasSymbols) (hx : x < g.size) (hops : g.operatorsOn x ≠ []) :
    ∃ s ρ, MovesLadder s σ ρ g g' x ∧ Renumbering.AgreesBelow g.size r s ∧
      ∀ i, s.nonTerminal i < (g.stratifyAt x).size ↔ i < (g.stratifyAt x).size := by
  obtain ⟨ρ, hρ⟩ := exists_perm_getElem? hsame.declaredOperators_perm
  have hlevels : ∀ i, Equiv.refl Nat i < 2 * (g.ladderAt x).height ↔
      i < 2 * (g.ladderAt x).height := fun i => Iff.of_eq rfl
  let s : Renumbering :=
    ⟨permSplit g.size r.nonTerminal
      (permSplit (2 * (g.ladderAt x).height) (Equiv.refl Nat) ρ hlevels) h.lt_size_iff, r.terminal,
      r.kind⟩
  have hold : ∀ i < g.size, s.nonTerminal i = r.nonTerminal i := fun i hi =>
    permSplit_of_lt h.lt_size_iff hi
  have hlevel : ∀ i < 2 * (g.ladderAt x).height, s.nonTerminal (g.size + i) = g.size + i := by
    intro i hi
    refine (permSplit_add h.lt_size_iff i).trans (congrArg (g.size + ·) ?_)
    exact permSplit_of_lt hlevels hi
  have hforced : ∀ j, s.nonTerminal (g.size + (2 * (g.ladderAt x).height + j)) =
      g.size + (2 * (g.ladderAt x).height + ρ j) := by
    intro j
    refine (permSplit_add h.lt_size_iff _).trans (congrArg (g.size + ·) ?_)
    exact permSplit_add hlevels j
  have hagrees : Renumbering.AgreesBelow g.size r s := ⟨hold, rfl, rfl⟩
  refine ⟨s, ρ, ⟨hsame.congr hg hx hagrees, fun j => ?_, fun i hi => ?_, fun j _ => ?_⟩, hagrees, ?_⟩
  · rw [hold x hx, hρ, ← List.getElem?_map]
    refine congrArg (·[j]?) (List.map_congr_left fun op hop => ?_)
    exact (operatorUse_congr σ hg hagrees (List.mem_filter.1 hop).1).symm
  · rw [h.size_eq]
    exact hlevel i hi
  · rw [Ladder.forced, Ladder.forced, ladderAt_first, ladderAt_first, hold x hx,
      hsame.height_eq, Nat.add_assoc, Nat.add_assoc, h.size_eq]
    exact hforced j
  · have hdeclared : ∀ k, ρ k < (g.declaredOperators x).length ↔ k < (g.declaredOperators x).length := by
      intro k
      have hk := perm_lt_length_iff hρ k
      rwa [List.length_map, hsame.length_declaredOperators] at hk
    rw [size_stratifyAt hops]
    exact permSplit_lt_add_iff h.lt_size_iff (permSplit_lt_add_iff hlevels hdeclared)

/-- A non-terminal that was there before and is not the one of the step keeps the same productions by other
numbers. -/
theorem MovesLadder.productionsOf_kept {σ : Nat → Perm Nat} {ρ : Perm Nat}
    (hmoves : MovesLadder s σ ρ g g' x) (h : Renumbers r g g')
    (hσ : ∀ nt i, g'.production? (r.nonTerminal nt) (σ nt i) = (g.production? nt i).map r.production)
    (hg : g.HasSymbols) (hagrees : Renumbering.AgreesBelow g.size r s) (hops : g.operatorsOn x ≠ [])
    {i : Nat} (hi : i < g.size) (hix : i ≠ x) :
    ((g'.stratifyAt (s.nonTerminal x)).productionsOf (s.nonTerminal i)).Perm
      (((g.stratifyAt x).productionsOf i).map s.production) := by
  have hi' : s.nonTerminal i < g'.size := by
    rw [hagrees.nonTerminal i hi, h.size_eq]
    exact (h.lt_size_iff i).2 hi
  rw [Grammar.productionsOf_kept hops hi hix,
    Grammar.productionsOf_kept (hmoves.same.operatorsOn_ne_nil hops) hi'
      fun heq => hix (s.nonTerminal.injective heq), hagrees.nonTerminal i hi]
  refine ((zipIdx_perm (hσ i)).map _).trans (List.Perm.of_eq ?_)
  rw [List.map_map, List.map_map]
  refine List.map_congr_left ?_
  rintro ⟨p, k⟩ hp
  have hpmem : p ∈ g.productionsOf i := List.mem_of_getElem? (List.mk_mem_zipIdx_iff_getElem?.1 hp)
  have hkept := hmoves.keptProduction_eq i k p
  rwa [hagrees.nonTerminal i hi, hagrees.production_eq (hg i p hpmem)] at hkept

/-- The same step can be done after other numbers were given. -/
theorem Renumbers.exists_stratifyAt (h : Renumbers r g g') (hg : g.HasSymbols)
    (hstart : g.start < g.size) (hx : x < g.size) :
    ∃ s, Renumbers s (g.stratifyAt x) (g'.stratifyAt (r.nonTerminal x)) ∧
      Renumbering.AgreesBelow g.size r s := by
  obtain ⟨σ, hσ⟩ := h.exists_production?_eq
  have hsame := h.sameStep hσ x
  by_cases hops : g.operatorsOn x = []
  · -- Without operators neither step changes anything.
    have hops' : g'.operatorsOn (r.nonTerminal x) = [] := by
      have hperm := hsame.operators
      rw [hops] at hperm
      exact hperm.eq_nil
    rw [stratifyAt_of_eq_nil hops, stratifyAt_of_eq_nil hops']
    exact ⟨r, h, .refl _ r⟩
  obtain ⟨s, ρ, hmoves, hagrees, hltsize⟩ := h.exists_movesLadder hsame hg hx hops
  refine ⟨s, ?_, hagrees⟩
  have hsize : (g'.stratifyAt (r.nonTerminal x)).size = (g.stratifyAt x).size := by
    rw [size_stratifyAt (hsame.operatorsOn_ne_nil hops), size_stratifyAt hops, h.size_eq,
      hsame.height_eq, hsame.length_declaredOperators]
  have hx' : r.nonTerminal x < g'.size := by
    rw [h.size_eq, h.lt_size_iff]
    exact hx
  refine ⟨hsize, hltsize, ?_, ?_, ?_, fun i => ?_⟩
  · rw [stratifyAt_start, stratifyAt_start, h.start_eq, hagrees.nonTerminal _ hstart]
  · rw [stratifyAt_arena, stratifyAt_arena, h.arena_size_eq]
  · rw [stratifyAt_arena, stratifyAt_arena, hagrees.terminal]
    exact h.get?
  -- The non-terminal of the step, the other old ones, those that the step adds, and numbers beyond.
  rw [← hagrees.nonTerminal x hx] at hx' hsize ⊢
  rcases Nat.lt_or_ge i g.size with hi | hi
  · by_cases hix : i = x
    · rw [hix]
      exact List.Perm.of_eq (hmoves.productionsOf_base hops hx hx')
    · exact hmoves.productionsOf_kept h hσ hg hagrees hops hi hix
  · by_cases hlt : i < (g.stratifyAt x).size
    · exact hmoves.productionsOf_new hops hi hlt
    · have hge := mt (hltsize i).1 hlt
      rw [← hsize, Nat.not_lt] at hge
      rw [productionsOf_of_size_le (Nat.le_of_not_lt hlt), productionsOf_of_size_le hge]
      exact List.Perm.refl _

end Grammar

end SmallLang
