import SmallLang.Proofs.Lookahead.LeftRecursion
import SmallLang.Proofs.Operator.Stage

/-!
# Stratification finds every operator

A unit that leads through a ladder is not followed any further, so the step of a non-terminal may miss
an operator that lies beyond. Then the operator becomes an atom of the ladder that is in the way, and
the non-terminal comes first in what it derives itself. If the stratified grammar passes the check for
left recursion, then, the step of a non-terminal finds all operators that units lead to
(`Staged.mem_closureAt_of_isOperatorOn`), and which ones there are can be read off the grammar without
stratifying it (`Staged.hasLadder_iff`).
-/

set_option autoImplicit false

namespace SmallLang

open Relation (TransGen ReflTransGen)

/-- A limited last symbol is not the first one. -/
theorem Ladder.exists_symbols_atomProduction (l : Ladder) {p : Production} {s t : Symbol}
    {rest : List Symbol} (hs : p.symbols = s :: t :: rest) :
    ∃ rest', (l.atomProduction p).symbols = s :: rest' := by
  rw [atomProduction]
  split
  · refine ⟨replaceLast (t :: rest) (.nonTerminal (l.prefixOperand p.prec)), ?_⟩
    show replaceLast p.symbols _ = _
    rw [hs]
    rfl
  · exact ⟨t :: rest, hs⟩

namespace Grammar

/-- The second non-terminal can come first in a production of the first one. -/
abbrev LeftCorner (g : Grammar) {n : Nat} (first : FirstTable n) : Nat → Nat → Prop :=
  Reach.Edge g.size (g.leftCornersOf first)

section

variable {g : Grammar} {n : Nat} {first : FirstTable n}

theorem leftCorner_of_symbols {v w : Nat} {p : Production} {rest : List Symbol}
    (hp : p ∈ g.productionsOf v) (hs : p.symbols = .nonTerminal w :: rest) (hw : w < g.size) :
    g.LeftCorner first v w := by
  refine ⟨List.mem_flatMap.2 ⟨p, hp, ?_⟩, hw⟩
  rw [hs]
  exact List.mem_cons_self

/-- What comes first in the only production of a non-terminal comes first wherever this production
occurs. -/
theorem leftCorner_of_productionsOf {u v w : Nat} {p p' : Production}
    (hp : g.productionsOf u = [p]) (hp' : p' ∈ g.productionsOf v) (hs : p'.symbols = p.symbols)
    (h : g.LeftCorner first u w) : g.LeftCorner first v w := by
  obtain ⟨hmem, hlt⟩ := h
  rw [leftCornersOf, hp, List.flatMap_singleton, ← hs] at hmem
  exact ⟨List.mem_flatMap.2 ⟨p', hp', hmem⟩, hlt⟩

end

namespace Staged

variable {types : Nat} {g : Grammar} (h : g.Staged types g.size)
include h

omit h in
/-- The numbers that a step adds belong to the stratified grammar. -/
theorem lt_size_stratify {x nt : Nat} (hx : x < g.size) (hnt : nt < (g.stage (x + 1)).size) :
    nt < g.stratify.size := by
  rw [stratify_eq_stage]
  exact Nat.lt_of_lt_of_le hnt (size_stage_mono hx)

omit h in
theorem operand_lt {x : Nat} (hx : g.HasLadder x) (hxs : x < g.size) (k : Nat) :
    (g.ladder x).operand k < g.stratify.size := by
  have hlt := (operand_bounds (g := g.stage x) (k := k) hx).2
  rw [← stage_succ] at hlt
  exact lt_size_stratify hxs hlt

/-- The atoms come first in every level. -/
theorem leftCorner_atom {n : Nat} (first : FirstTable n) {x k : Nat} (hx : g.HasLadder x)
    (hxs : x < g.size) (hk : k < (g.ladder x).height) :
    TransGen (g.stratify.LeftCorner first) ((g.ladder x).head k) (g.ladder x).atom := by
  obtain ⟨j, hj⟩ : ∃ j, (g.ladder x).height - k = j := ⟨_, rfl⟩
  induction j generalizing k with
  | zero => omega
  | succ j ih =>
      have hmem : (g.ladder x).climbProduction k ((g.ladder x).tail k) ∈
          g.stratify.productionsOf ((g.ladder x).head k) := by
        rw [h.productionsOf_head_stratify hx hxs hk]
        exact List.mem_singleton.2 rfl
      have hedge : g.stratify.LeftCorner first ((g.ladder x).head k) ((g.ladder x).operand k) :=
        leftCorner_of_symbols hmem rfl (operand_lt hx hxs k)
      rcases (g.ladder x).operand_eq k with ⟨hlt, heq⟩ | ⟨-, heq⟩
      · rw [heq] at hedge
        apply TransGen.head hedge
        exact ih hlt (by omega)
      · rw [heq] at hedge
        exact TransGen.single hedge

/-- What comes first in the productions of a ladder and in those of the atoms of the ladders above
it, if this is known where it is not a ladder yet. -/
theorem leftCorner_of_open {n : Nat} {first : FirstTable n} {b z : Nat} (hb : b < g.size)
    (hatom : ∀ e < g.size, g.HasLadder e → b ∈ g.closureAt e → g.Open e b →
      TransGen (g.stratify.LeftCorner first) (g.ladder e).atom z)
    (hself : ¬ g.HasLadder b → TransGen (g.stratify.LeftCorner first) b z) :
    TransGen (g.stratify.LeftCorner first) b z ∧
      ∀ e < g.size, g.HasLadder e → b ∈ g.closureAt e →
        TransGen (g.stratify.LeftCorner first) (g.ladder e).atom z := by
  have hfirst : TransGen (g.stratify.LeftCorner first) b z := by
    by_cases hladder : g.HasLadder b
    · have hclimb := h.leftCorner_atom first hladder hb hladder.height_pos
      exact hclimb.trans (hatom b hb hladder (self_mem_closureAt g b) (Open.self g b))
    · exact hself hladder
  refine ⟨hfirst, ?_⟩
  intro e he hladder hmem
  by_cases hopen : g.Open e b
  · exact hatom e he hladder hmem hopen
  · -- The atoms climb as the ladder in their closure does.
    rw [Open, not_not] at hopen
    have hclimb := h.climb_mem_atom hladder he hmem hopen.1 hopen.2
    have honly := h.productionsOf_head_stratify hopen.1 hb hopen.1.height_pos
    obtain ⟨w, hbw, hwz⟩ := TransGen.head'_iff.1 hfirst
    exact TransGen.head' (leftCorner_of_productionsOf honly hclimb rfl hbw) hwz

/-- Where units lead to an operator that the step of its non-terminal misses, this non-terminal comes
first. -/
theorem leftCorner_of_missed {n : Nat} {first : FirstTable n} {a m i z : Nat} {q : Production}
    (ha : a < g.size) (hz : z < g.size) (hpath : ReflTransGen g.UnitStep a m)
    (hq : g.production? m i = some q) (hisop : q.isOperatorOn z = true)
    (hmissed : ¬ (m ∈ g.closureAt z ∧ g.Open z m)) :
    TransGen (g.stratify.LeftCorner first) a z := by
  obtain ⟨s, rest, hs⟩ := Production.isOperatorOn_iff.1 hisop
  have hzs : z < g.stratify.size := h.lt_size_stage hz (Nat.le_refl _)
  have hkept : ∀ k ≤ g.size, g.arranged k m i q = q := by
    intro k hk
    rcases h.arranged_of_isOperatorOn hk hq hisop with heq | ⟨-, j, op, hfinds, -⟩
    · exact heq
    · obtain ⟨-, hm, hopen, -⟩ := h.exists_of_finds hz hfinds
      exact absurd ⟨hm, hopen⟩ hmissed
  -- Along the path from its end: both for the non-terminal itself and for the atoms above it.
  suffices hboth : TransGen (g.stratify.LeftCorner first) a z ∧
      ∀ e < g.size, g.HasLadder e → a ∈ g.closureAt e →
        TransGen (g.stratify.LeftCorner first) (g.ladder e).atom z from hboth.1
  induction hpath using ReflTransGen.head_induction_on with
  | refl =>
      apply h.leftCorner_of_open (lt_size_of_production? hq)
      · intro e he hladder hm hopen
        have hnot : q.isOperatorOn e = false := by
          by_contra htrue
          rw [Bool.not_eq_false] at htrue
          obtain rfl := Production.eq_of_isOperatorOn hisop htrue
          exact hmissed ⟨hm, hopen⟩
        have hunit := Production.unitTarget?_of_isOperatorOn hisop
        have hatom : q ∈ g.atomsAt e := (h.mem_atomsAt_iff he).2
          (Or.inr ⟨m, hm, hopen, i, q, hq, hnot, hunit, (hkept e (Nat.le_of_lt he)).symm⟩)
        obtain ⟨rest', hs'⟩ := (g.ladder e).exists_symbols_atomProduction hs
        exact TransGen.single
          (leftCorner_of_symbols (h.mem_atom_of_mem_atomsAt hladder he hatom) hs' hzs)
      · intro hladder
        have hmem : q ∈ g.stratify.productionsOf m := by
          refine mem_productionsOf_iff.2 ⟨i, ?_⟩
          rw [h.production?_stratify (lt_size_of_production? hq) hladder, hq, Option.map_some,
            hkept g.size (Nat.le_refl _)]
        exact TransGen.single (leftCorner_of_symbols hmem hs hzs)
  | @head a b hab _ ih =>
      obtain ⟨p, hp, ht, hb⟩ := hab
      obtain ⟨i', hi'⟩ := mem_productionsOf_iff.1 hp
      have has := lt_size_of_production? hi'
      obtain ⟨hself, hatoms⟩ := ih hb
      apply h.leftCorner_of_open has
      · intro e he hladder hmem hopen
        exact hatoms e he hladder (h.mem_closureAt_of_unitStep he hmem hopen ⟨p, hp, ht, hb⟩)
      · intro hladder
        have hmem : p ∈ g.stratify.productionsOf a := by
          refine mem_productionsOf_iff.2 ⟨i', ?_⟩
          rw [h.production?_stratify has hladder, hi', Option.map_some,
            h.arranged_of_unitTarget? (Nat.le_refl _) hi' ht]
        have hsymbols := (Production.unitTarget?_eq_some_iff.1 ht).1
        apply TransGen.head
        · exact leftCorner_of_symbols hmem hsymbols (h.lt_size_stage hb (Nat.le_refl _))
        · exact hself

/-- The units that a step follows are units of the grammar that the steps began with. -/
theorem mem_unitClosure_of_mem_closureAt {x m : Nat} (hx : x < g.size) (hm : m ∈ g.closureAt x) :
    m ∈ g.unitClosure x := by
  apply h.closureAt_induction hx hm
  · exact self_mem_unitClosure g x
  · intro a b _ _ hab ha
    exact mem_unitClosure_iff.2 ((mem_unitClosure_iff.1 ha).tail hab)

variable {n : Nat} {first : FirstTable g.stratify.arena.size}
  (hrecursion : g.stratify.checkLeftRecursion first = .ok ())
include hrecursion

/-- Without left recursion, the step of a non-terminal finds every operator that units lead to. -/
theorem mem_closureAt_of_isOperatorOn {x m i : Nat} {q : Production} (hx : x < g.size)
    (hm : m ∈ g.unitClosure x) (hq : g.production? m i = some q) (hisop : q.isOperatorOn x = true) :
    m ∈ g.closureAt x ∧ g.Open x m := by
  by_contra hmissed
  refine not_path_self_of_checkLeftRecursion hrecursion (h.lt_size_stage hx (Nat.le_refl _)) ?_
  exact h.leftCorner_of_missed hx hx (mem_unitClosure_iff.1 hm) hq hisop hmissed

theorem mem_usesAt_iff_mem_operatorsOn {x : Nat} {op : OperatorUse} (hx : x < g.size) :
    op ∈ g.usesAt x ↔ op ∈ g.operatorsOn x := by
  rw [h.mem_usesAt_iff hx, mem_operatorsOn_iff]
  constructor
  · rintro ⟨m, i, q, hm, -, hq, hisop, rfl⟩
    exact ⟨m, i, q, h.mem_unitClosure_of_mem_closureAt hx hm, hq, hisop, rfl⟩
  · rintro ⟨m, i, q, hm, hq, hisop, rfl⟩
    obtain ⟨hm', hopen⟩ := h.mem_closureAt_of_isOperatorOn hrecursion hx hm hq hisop
    exact ⟨m, i, q, hm', hopen, hq, hisop, rfl⟩

/-- Without left recursion, the ladders are those of the non-terminals with operators. -/
theorem hasLadder_iff {x : Nat} (hx : x < g.size) : g.HasLadder x ↔ g.operatorsOn x ≠ [] := by
  rw [HasLadder, ne_eq, ne_eq, List.eq_nil_iff_forall_not_mem, List.eq_nil_iff_forall_not_mem]
  apply not_congr
  apply forall_congr'
  intro op
  exact not_congr (h.mem_usesAt_iff_mem_operatorsOn hrecursion hx)

end Staged

end Grammar

end SmallLang
