import SmallLang.Proofs.Extension.Holder
import SmallLang.Proofs.Lookahead.LeftRecursionExact

/-!
# What the declarations ask for

A production asks for the non-terminals that it mentions. The outer operands of an operator are the
exception: stratification asks for them by levels, so the loosest level, which goes by the name of the
non-terminal, need not be reached. What the start asks for is reached in the stratified grammar, or the
levels of some operators carry it (`Staged.mem_reachable_or_carried`): their atoms and tails hold its
productions, and its own number may be left over.

A number that is left over cannot come first in what it derives, unless units lead from it back to it
(`Staged.path_unitStep`).
-/

set_option autoImplicit false

namespace SmallLang

open Relation (TransGen ReflTransGen)

theorem mem_replaceLast_of_mem {α : Type} {xs : List α} {y : α} (hy : y ∈ xs)
    (hlast : xs.getLast? = some y → y ∈ xs.dropLast) (x : α) : y ∈ replaceLast xs x := by
  apply List.mem_append_left
  rcases List.eq_nil_or_concat' xs with rfl | ⟨init, last, rfl⟩
  · exact absurd hy List.not_mem_nil
  · rcases List.mem_append.1 hy with hy | hy
    · rwa [List.dropLast_concat]
    · obtain rfl := List.mem_singleton.1 hy
      -- The last element is replaced, so it has to occur before as well.
      exact hlast List.getLast?_concat

namespace Ladder

variable (l : Ladder) {s : Symbol}

/-- Only the last operand of an operator is replaced. -/
theorem mem_tailProduction_of_mem {op : OperatorUse} (hs : s ∈ op.rest)
    (hbase : s = .nonTerminal l.base → s ∈ op.rest.dropLast) :
    s ∈ (l.tailProduction op).symbols := by
  rw [tailProduction_symbols, operatorSymbols]
  apply List.mem_append_left
  split
  · rename_i hinfix
    apply mem_replaceLast_of_mem hs
    intro hlast
    exact hbase (Option.some.inj (hlast.symm.trans (eq_of_beq hinfix)))
  · exact hs

theorem mem_atomProduction_of_mem {p : Production} (hs : s ∈ p.symbols)
    (hbase : s ≠ .nonTerminal l.base) : s ∈ (l.atomProduction p).symbols := by
  rw [atomProduction]
  split
  · rename_i hprefix
    apply mem_replaceLast_of_mem hs
    intro hlast
    rw [hlast, Bool.and_eq_true, beq_iff_eq] at hprefix
    exact absurd (Option.some.inj hprefix.2) hbase
  · exact hs

end Ladder

/-- What an operator mentions besides its left operand comes after it. -/
theorem Production.mem_tail_of_isOperatorOn {x : Nat} {p : Production} {s : Symbol}
    (h : p.isOperatorOn x = true) (hs : s ∈ p.symbols) (hne : s ≠ .nonTerminal x) :
    s ∈ p.symbols.tail := by
  obtain ⟨t, rest, hsymbols⟩ := isOperatorOn_iff.1 h
  rw [hsymbols] at hs ⊢
  exact (List.mem_cons.1 hs).resolve_left hne

namespace Grammar

/-! ## Reaching -/

/-- All non-terminals of the production can be reached. -/
def Reaches (g : Grammar) (p : Production) : Prop :=
  ∀ i, .nonTerminal i ∈ p.symbols → i ∈ g.reachable

/-- All non-terminals in the productions of this one can be reached. -/
def Grounded (g : Grammar) (nt : Nat) : Prop := ∀ p ∈ g.productionsOf nt, g.Reaches p

section

variable {g : Grammar}

theorem WellFormed.grounded (hg : g.WellFormed) {nt : Nat} (hnt : nt ∈ g.reachable) :
    g.Grounded nt := by
  intro p hp i hi
  obtain ⟨j, hj⟩ := mem_productionsOf_iff.1 hp
  exact mem_reachable_of_symbol hnt hp hi (hg.hasSymbol hj hi)

theorem reaches_climbProduction_iff {l : Ladder} {k next : Nat} :
    g.Reaches (l.climbProduction k next) ↔ l.operand k ∈ g.reachable ∧ next ∈ g.reachable := by
  simp [Reaches, Ladder.climbProduction]

theorem Grounded.of_productionsOf {nt : Nat} {p : Production} (honly : g.productionsOf nt = [p])
    (hp : g.Reaches p) : g.Grounded nt := by
  intro p' hp'
  rw [honly] at hp'
  exact List.mem_singleton.1 hp' ▸ hp

theorem Grounded.mem_reachable_of_leftCorner {n : Nat} {first : FirstTable n} {a b : Nat} (ha : g.Grounded a)
    (hab : g.LeftCorner first a b) : b ∈ g.reachable := by
  obtain ⟨p, hp, hb⟩ := List.mem_flatMap.1 hab.1
  obtain ⟨before, after, hsymbols, -⟩ := exists_append_of_mem_leftCorners hb
  exact ha p hp b (hsymbols ▸ List.mem_append_right _ List.mem_cons_self)

/-- From what can be reached a path leads to what can be reached only. -/
theorem WellFormed.mem_reachable_of_path (hg : g.WellFormed) {n : Nat} {first : FirstTable n}
    {a b : Nat} (ha : g.Grounded a) (hpath : TransGen (g.LeftCorner first) a b) :
    b ∈ g.reachable := by
  induction hpath with
  | single hab => exact ha.mem_reachable_of_leftCorner hab
  | tail _ hbc ih => exact (hg.grounded ih).mem_reachable_of_leftCorner hbc

end

/-! ## Asking -/

/-- A production mentions the non-terminal, and not only as an outer operand of an operator on it. -/
structure AsksIn (g : Grammar) (nt : Nat) (p : Production) (target : Nat) : Prop where
  mem : .nonTerminal target ∈ p.symbols
  inner : p.isOperatorOn target = true → nt ∈ g.unitClosure target →
    .nonTerminal target ∈ p.symbols.tail.dropLast

/-- A production of the first non-terminal asks for the second one. -/
def Asks (g : Grammar) (nt target : Nat) : Prop :=
  ∃ p ∈ g.productionsOf nt, g.AsksIn nt p target

/-- The start asks for the non-terminal, directly or through others. -/
def Asked (g : Grammar) (nt : Nat) : Prop := ReflTransGen g.Asks g.start nt

/-- A step finds a production once. -/
theorem Finds.unique {g : Grammar} {x m i j j' : Nat} {op op' : OperatorUse}
    (hfinds : g.Finds x m i j op) (hfinds' : g.Finds x m i j' op') : j = j' ∧ op = op' := by
  obtain rfl := eq_of_declaredOperators hfinds.getElem? hfinds'.getElem? hfinds.origin hfinds'.origin
  exact ⟨rfl, Option.some.inj (hfinds.getElem?.symm.trans hfinds'.getElem?)⟩

/-- The levels of the non-terminal's operators can be reached, though perhaps not under its name. -/
structure InUse (g : Grammar) (x : Nat) : Prop where
  lt : x < g.size
  ladder : g.HasLadder x
  operand : (g.ladder x).operand 0 ∈ g.stratify.reachable
  tail : (g.ladder x).tail 0 ∈ g.stratify.reachable

/-- The levels of the first non-terminal are in use, and hold the productions of the second one. -/
structure Carries (g : Grammar) (x m : Nat) : Prop where
  inUse : g.InUse x
  mem : m ∈ g.closureAt x
  isOpen : g.Open x m

theorem InUse.carries_self {g : Grammar} {x : Nat} (hx : g.InUse x) : g.Carries x x :=
  ⟨hx, Staged.self_mem_closureAt g x, Open.self g x⟩

namespace Staged

variable {types : Nat} {g : Grammar} (h : g.Staged types g.size) (hg : g.stratify.WellFormed)
include h hg

/-! ## Levels in use -/

theorem inUse_of_mem_reachable {x : Nat} (hx : g.HasLadder x) (hxs : x < g.size)
    (hmem : x ∈ g.stratify.reachable) : g.InUse x := by
  have hclimb := hg.grounded hmem _ (h.climb_mem_head hx hxs hx.height_pos)
  obtain ⟨hoperand, htail⟩ := reaches_climbProduction_iff.1 hclimb
  exact ⟨hxs, hx, hoperand, htail⟩

/-- All levels are in use, from the loosest one to the tightest one. -/
theorem level_mem_reachable {x : Nat} (hx : g.InUse x) {k : Nat} (hk : k < (g.ladder x).height) :
    (g.ladder x).operand k ∈ g.stratify.reachable ∧
      (g.ladder x).tail k ∈ g.stratify.reachable := by
  induction k with
  | zero => exact ⟨hx.operand, hx.tail⟩
  | succ k ih =>
      have hhead := (ih (Nat.lt_of_succ_lt hk)).1
      rw [Ladder.operand, if_pos hk] at hhead
      exact reaches_climbProduction_iff.1 (hg.grounded hhead _ (h.climb_mem_head hx.ladder hx.lt hk))

theorem head_mem_reachable {x : Nat} (hx : g.InUse x) {k : Nat} (hpos : 0 < k)
    (hk : k < (g.ladder x).height) : (g.ladder x).head k ∈ g.stratify.reachable := by
  obtain ⟨j, rfl⟩ := Nat.exists_eq_succ_of_ne_zero (Nat.ne_of_gt hpos)
  have hoperand := (h.level_mem_reachable hg hx (Nat.lt_of_succ_lt hk)).1
  rwa [Ladder.operand, if_pos hk] at hoperand

theorem atom_mem_reachable {x : Nat} (hx : g.InUse x) :
    (g.ladder x).atom ∈ g.stratify.reachable := by
  have hpos := hx.ladder.height_pos
  have hoperand := (h.level_mem_reachable hg hx (k := (g.ladder x).height - 1) (by omega)).1
  rwa [Ladder.operand, if_neg (by omega)] at hoperand

theorem reaches_tailProduction {x : Nat} (hx : g.InUse x) {op : OperatorUse}
    (hop : op ∈ g.usesAt x) : g.stratify.Reaches ((g.ladder x).tailProduction op) := by
  have hlevel := Ladder.levelOf_lt (mem_levels_ladder_iff.2 ⟨op, hop, rfl⟩)
  exact hg.grounded (h.level_mem_reachable hg hx hlevel).2 _ (h.operator_mem_tail hx.lt hop)

theorem reaches_atomProduction {x : Nat} (hx : g.InUse x) {p : Production}
    (hp : p ∈ g.atomsAt x) : g.stratify.Reaches ((g.ladder x).atomProduction p) :=
  hg.grounded (h.atom_mem_reachable hg hx) _ (h.mem_atom_of_mem_atomsAt hx.ladder hx.lt hp)

omit hg in
/-- The name of the loosest level only leads into the levels. -/
theorem grounded_of_inUse {x : Nat} (hx : g.InUse x) : g.stratify.Grounded x := by
  apply Grounded.of_productionsOf (h.productionsOf_head_stratify hx.ladder hx.lt hx.ladder.height_pos)
  exact reaches_climbProduction_iff.2 ⟨hx.operand, hx.tail⟩

/-- A forced operator begins as it does in the tail of its level. -/
theorem grounded_forced {x m i j : Nat} {op : OperatorUse} (hx : g.InUse x)
    (hfinds : g.Finds x m i j op) : g.stratify.Grounded ((g.ladder x).forced j) :=
  Grounded.of_productionsOf (h.productionsOf_forced_stratify hx.lt hfinds)
    (h.reaches_tailProduction hg hx hfinds.mem_usesAt)

/-- What is in the closure of levels in use is carried by them, or by a ladder that is in their way. -/
theorem exists_carries {x m : Nat} (hx : g.InUse x) (hm : m ∈ g.closureAt x) :
    ∃ y, g.Carries y m := by
  by_cases hopen : g.Open x m
  · exact ⟨x, hx, hm, hopen⟩
  · rw [Open, not_not] at hopen
    obtain ⟨hladder, hlt⟩ := hopen
    -- The ladder that came first is an atom, which climbs as it does itself.
    have hclimb := hg.grounded (h.atom_mem_reachable hg hx) _
      (h.climb_mem_atom hx.ladder hx.lt hm hladder hlt)
    obtain ⟨hoperand, htail⟩ := reaches_climbProduction_iff.1 hclimb
    exact ⟨m, InUse.carries_self ⟨Nat.lt_trans hlt hx.lt, hladder, hoperand, htail⟩⟩

/-! ## What becomes of the productions that are carried -/

/-- A production that levels carry is one of their operators, a unit to what levels carry, or one of
their atoms. -/
theorem carried_production_cases {x m i : Nat} {q : Production} (hc : g.Carries x m)
    (hq : g.production? m i = some q) :
    (q.isOperatorOn x = true ∧ operatorUse x m i q ∈ g.usesAt x) ∨
      (∃ target, q.unitTarget? = some target ∧ g.UnitStep m target ∧ ∃ y, g.Carries y target) ∨
      (q.isOperatorOn x = false ∧ g.arranged x m i q ∈ g.atomsAt x) := by
  have hxs := hc.inUse.lt
  by_cases hisop : q.isOperatorOn x = true
  · exact Or.inl ⟨hisop, (h.mem_usesAt_iff hxs).2 ⟨m, i, q, hc.mem, hc.isOpen, hq, hisop, rfl⟩⟩
  rw [Bool.not_eq_true] at hisop
  cases hunit : q.unitTarget? with
  | some target =>
      have hmem : q ∈ g.productionsOf m := mem_productionsOf_iff.2 ⟨i, hq⟩
      have hlt := Nat.lt_of_lt_of_le
        (h.lt_of_unitTarget? (lt_size_of_production? hq) hmem hunit).2 h.types_le
      have hstep : g.UnitStep m target := ⟨q, hmem, hunit, hlt⟩
      have htarget := h.mem_closureAt_of_unitStep hxs hc.mem hc.isOpen hstep
      exact Or.inr (Or.inl ⟨target, rfl, hstep, h.exists_carries hg hc.inUse htarget⟩)
  | none =>
      have hatom := (h.mem_atomsAt_iff hxs).2 (Or.inr ⟨m, hc.mem, hc.isOpen, i, q, hq, hisop, hunit, rfl⟩)
      exact Or.inr (Or.inr ⟨hisop, hatom⟩)

/-- The levels that carry the declaration of an operator are its own, or hold it as an atom. -/
theorem carried_operator_cases {x m i z : Nat} {q : Production} (hc : g.Carries x m)
    (hq : g.production? m i = some q) (hisop : q.isOperatorOn z = true) :
    z = x ∨ z ≠ x ∧ g.arranged x m i q ∈ g.atomsAt x := by
  rcases h.carried_production_cases hg hc hq with ⟨hisop', -⟩ | ⟨target, ht, -⟩ | ⟨hnot, hatom⟩
  · exact Or.inl (Production.eq_of_isOperatorOn hisop hisop')
  · -- A unit is no operator.
    rw [Production.unitTarget?_of_isOperatorOn hisop] at ht
    exact absurd ht (by simp)
  · refine Or.inr ⟨?_, hatom⟩
    rintro rfl
    exact absurd (hisop.symm.trans hnot) (by simp)

/-! ## What the start asks for -/

/-- What a declared operator asks for is reached through the tail that begins with it. -/
theorem mem_reachable_of_forced {x m i j b : Nat} {op : OperatorUse} {q : Production}
    (hx : x < g.size) (hfinds : g.Finds x m i j op) (hq : g.production? m i = some q)
    (hp : g.stratify.Reaches (g.forcedProduction x j op)) (hb : g.AsksIn m q b) :
    b ∈ g.stratify.reachable := by
  obtain ⟨q', hm, -, hq', hisop, -, rfl⟩ := h.exists_of_finds hx hfinds
  obtain rfl : q = q' := Option.some.inj (hq.symm.trans hq')
  have hforced := (reaches_climbProduction_iff.1 hp).2
  have honly := h.productionsOf_forced_stratify hx hfinds
  apply hg.grounded hforced _ (honly ▸ List.mem_singleton.2 rfl)
  have hinner : b = x → .nonTerminal b ∈ q.symbols.tail.dropLast := by
    rintro rfl
    exact hb.inner hisop (h.mem_unitClosure_of_mem_closureAt hx hm)
  have htail : .nonTerminal b ∈ q.symbols.tail := by
    by_cases hbx : b = x
    · exact List.mem_of_mem_dropLast (hinner hbx)
    · apply Production.mem_tail_of_isOperatorOn hisop hb.mem
      exact fun heq => hbx (Symbol.nonTerminal.inj heq)
  apply Ladder.mem_tailProduction_of_mem _ htail
  intro hbase
  exact hinner (Symbol.nonTerminal.inj hbase)

/-- What a production asks for is reached through what the steps have made of it. -/
theorem mem_reachable_of_arranged {k m i b : Nat} {q : Production} (hk : k ≤ g.size)
    (hq : g.production? m i = some q) (hp : g.stratify.Reaches (g.arranged k m i q))
    (hb : g.AsksIn m q b) : b ∈ g.stratify.reachable := by
  rcases g.arranged_cases k m i q with ⟨heq, -⟩ | ⟨x, hx, j, op, hfinds, heq⟩
  · rw [heq] at hp
    exact hp b hb.mem
  · rw [heq] at hp
    exact h.mem_reachable_of_forced hg (Nat.lt_of_lt_of_le hx hk) hfinds hq hp hb

/-- What a production asks for that levels carry is reached or carried. -/
theorem mem_reachable_or_carried_of_carried {x m i b : Nat} {q : Production}
    (hc : g.Carries x m) (hq : g.production? m i = some q) (hb : g.AsksIn m q b) :
    b ∈ g.stratify.reachable ∨ ∃ y, g.Carries y b := by
  have hxs := hc.inUse.lt
  by_cases hbx : b = x
  · -- The non-terminal of the levels itself may be replaced by a level at both ends.
    rw [hbx]
    exact Or.inr ⟨x, hc.inUse.carries_self⟩
  have hne : Symbol.nonTerminal b ≠ .nonTerminal x := fun heq => hbx (Symbol.nonTerminal.inj heq)
  rcases h.carried_production_cases hg hc hq with ⟨hisop, hop⟩ | ⟨target, ht, -, hcarried⟩ | ⟨-, hatom⟩
  · have htail := Production.mem_tail_of_isOperatorOn hisop hb.mem hne
    exact Or.inl (h.reaches_tailProduction hg hc.inUse hop b
      (Ladder.mem_tailProduction_of_mem _ htail fun hbase => absurd hbase hne))
  · have hmem := hb.mem
    rw [(Production.unitTarget?_eq_some_iff.1 ht).1, List.mem_singleton] at hmem
    obtain rfl := Symbol.nonTerminal.inj hmem
    exact Or.inr hcarried
  · have hreaches := h.reaches_atomProduction hg hc.inUse hatom
    rcases g.arranged_cases x m i q with ⟨heq, -⟩ | ⟨y, hy, j, op, hfinds, heq⟩
    · rw [heq] at hreaches
      exact Or.inl (hreaches b (Ladder.mem_atomProduction_of_mem _ hb.mem hne))
    · have hys := Nat.lt_trans hy hxs
      rw [heq, h.atomProduction_forcedProduction hxs hys hfinds] at hreaches
      exact Or.inl (h.mem_reachable_of_forced hg hys hfinds hq hreaches hb)

omit hg in
/-- A non-terminal without a ladder has what the steps have made of its productions. -/
theorem arranged_mem_productionsOf {m i : Nat} {q : Production} (hladder : ¬ g.HasLadder m)
    (hq : g.production? m i = some q) :
    g.arranged g.size m i q ∈ g.stratify.productionsOf m := by
  refine mem_productionsOf_iff.2 ⟨i, ?_⟩
  rw [h.production?_stratify (lt_size_of_production? hq) hladder, hq, Option.map_some]

/-- What the start asks for is reached, or levels in use carry it. -/
theorem mem_reachable_or_carried {nt : Nat} (hnt : g.Asked nt) :
    nt ∈ g.stratify.reachable ∨ ∃ x, g.Carries x nt := by
  induction hnt with
  | refl =>
      have hstart := start_mem_reachable hg.1
      rw [stratify_eq_stage, stage_start, ← stratify_eq_stage] at hstart
      exact Or.inl hstart
  | @tail m b _ hmb ih =>
      obtain ⟨q, hmem, hb⟩ := hmb
      obtain ⟨i, hq⟩ := mem_productionsOf_iff.1 hmem
      have hms := lt_size_of_production? hq
      rcases ih with hm | ⟨x, hc⟩
      · by_cases hladder : g.HasLadder m
        · have hc := (h.inUse_of_mem_reachable hg hladder hms hm).carries_self
          exact h.mem_reachable_or_carried_of_carried hg hc hq hb
        · have hp := h.arranged_mem_productionsOf hladder hq
          exact Or.inl (h.mem_reachable_of_arranged hg (Nat.le_refl _) hq (hg.grounded hm _ hp) hb)
      · exact h.mem_reachable_or_carried_of_carried hg hc hq hb

/-! ## What is left over -/

/-- Levels whose atoms hold the declaration of another type's operator, as it is, reach this type. -/
theorem inUse_of_mem_atomsAt {x z : Nat} {q : Production} (hx : g.InUse x) (hq : q ∈ g.atomsAt x)
    (hisop : q.isOperatorOn z = true) (hne : z ≠ x) (hladder : g.HasLadder z) (hz : z < g.size) :
    g.InUse z := by
  obtain ⟨s, rest, hs⟩ := Production.isOperatorOn_iff.1 hisop
  apply h.inUse_of_mem_reachable hg hladder hz
  apply h.reaches_atomProduction hg hx hq
  apply Ladder.mem_atomProduction_of_mem
  · rw [hs]
    exact List.mem_cons_self
  · intro heq
    exact hne (Symbol.nonTerminal.inj heq)

/-- A ladder that is carried is in use: the levels hold its own operators as atoms. -/
theorem inUse_of_carries {x m : Nat} (hc : g.Carries x m) (hladder : g.HasLadder m) : g.InUse m := by
  have hxs := hc.inUse.lt
  have hms := h.lt_of_mem_closureAt hxs hc.mem
  by_cases hxm : x = m
  · exact hxm ▸ hc.inUse
  have hlt : x < m := by
    have hle : ¬ m < x := fun hlt => hc.isOpen ⟨hladder, hlt⟩
    omega
  -- One of its operators is carried as well, and is no operator for the levels that come before it.
  obtain ⟨op, hop⟩ := List.exists_mem_of_ne_nil _ hladder
  obtain ⟨m', i, q, hm', hopen, hq, hisop, -⟩ := (h.mem_usesAt_iff hms).1 hop
  have hc' : g.Carries x m' :=
    ⟨hc.inUse, h.mem_closureAt_trans (Nat.le_of_lt hlt) hms hc.mem hm', hopen.of_le (Nat.le_of_lt hlt)⟩
  obtain ⟨hne, hatom⟩ := (h.carried_operator_cases hg hc' hq hisop).resolve_left (Ne.symm hxm)
  rcases h.arranged_of_isOperatorOn (Nat.le_of_lt hxs) hq hisop with heq | ⟨hlt', -⟩
  · rw [heq] at hatom
    exact h.inUse_of_mem_atomsAt hg hc.inUse hatom hisop hne hladder hms
  · exact absurd hlt' (Nat.lt_asymm hlt)

theorem grounded_of_forcedProduction {x m i j c : Nat} {op : OperatorUse} (hx : g.InUse x)
    (hfinds : g.Finds x m i j op) (hmem : .nonTerminal c ∈ (g.forcedProduction x j op).symbols) :
    g.stratify.Grounded c := by
  simp only [forcedProduction, Ladder.climbProduction, List.mem_cons, Symbol.nonTerminal.injEq,
    List.not_mem_nil, or_false] at hmem
  rcases hmem with rfl | rfl
  · have hlevel := Ladder.levelOf_lt (mem_levels_ladder_iff.2 ⟨op, hfinds.mem_usesAt, rfl⟩)
    exact hg.grounded (h.level_mem_reachable hg hx hlevel).1
  · exact h.grounded_forced hg hx hfinds

/-- Where levels carry the declaration of an operator, what it was replaced by leads to what can be
reached. -/
theorem grounded_of_finds {x y m i j c : Nat} {op : OperatorUse} (hc : g.Carries y m) (hx : x < g.size)
    (hfinds : g.Finds x m i j op) (hmem : .nonTerminal c ∈ (g.forcedProduction x j op).symbols) :
    g.stratify.Grounded c := by
  have hys := hc.inUse.lt
  have hladder : g.HasLadder x := List.ne_nil_of_mem hfinds.mem_usesAt
  obtain ⟨q, -, -, hq, hisop, -, -⟩ := h.exists_of_finds hx hfinds
  rcases h.carried_operator_cases hg hc hq hisop with rfl | ⟨hne, hatom⟩
  · exact h.grounded_of_forcedProduction hg hc.inUse hfinds hmem
  · rcases h.arranged_of_isOperatorOn (Nat.le_of_lt hys) hq hisop with
      heq | ⟨-, j', op', hfinds', heq⟩
    · -- The atoms hold the declaration as it is, so the type that it is an operator on is reached.
      rw [heq] at hatom
      have hx' := h.inUse_of_mem_atomsAt hg hc.inUse hatom hisop hne hladder hx
      exact h.grounded_of_forcedProduction hg hx' hfinds hmem
    · have hreaches := h.reaches_atomProduction hg hc.inUse hatom
      obtain ⟨rfl, rfl⟩ := hfinds.unique hfinds'
      rw [heq, h.atomProduction_forcedProduction hys hx hfinds] at hreaches
      exact hg.grounded (hreaches c hmem)

/-- A non-terminal that is carried leads to what can be reached, or to what is carried by a unit. -/
theorem grounded_or_unitStep {x m c : Nat} {p : Production} (hc : g.Carries x m)
    (hladder : ¬ g.HasLadder m) (hp : p ∈ g.stratify.productionsOf m)
    (hmem : .nonTerminal c ∈ p.symbols) :
    g.stratify.Grounded c ∨ g.UnitStep m c ∧ ∃ y, g.Carries y c := by
  have hxs := hc.inUse.lt
  have hms := h.lt_of_mem_closureAt hxs hc.mem
  obtain ⟨i, hi⟩ := mem_productionsOf_iff.1 hp
  rw [h.production?_stratify hms hladder] at hi
  obtain ⟨q, hq, rfl⟩ := Option.map_eq_some_iff.1 hi
  rcases g.arranged_cases g.size m i q with ⟨heq, hnone⟩ | ⟨y, hy, j, op, hfinds, heq⟩
  · rw [heq] at hmem
    rcases h.carried_production_cases hg hc hq with ⟨-, hop⟩ | ⟨target, ht, hstep, hcarried⟩ | ⟨-, hatom⟩
    · -- The step of the levels would have found the operator.
      have hne : m ≠ x := fun heq => hladder (heq ▸ hc.inUse.ladder)
      obtain ⟨j, hfinds⟩ := exists_finds hop (if_neg hne)
      exact absurd hfinds (hnone x hxs j _)
    · rw [(Production.unitTarget?_eq_some_iff.1 ht).1, List.mem_singleton] at hmem
      obtain rfl := Symbol.nonTerminal.inj hmem
      exact Or.inr ⟨hstep, hcarried⟩
    · by_cases hcx : c = x
      · rw [hcx]
        exact Or.inl (h.grounded_of_inUse hc.inUse)
      have hreaches := h.reaches_atomProduction hg hc.inUse hatom
      have hkept : g.arranged x m i q = q := by
        rcases g.arranged_cases x m i q with ⟨heq, -⟩ | ⟨y, hy, j, op, hfinds, -⟩
        · exact heq
        · exact absurd hfinds (hnone y (Nat.lt_trans hy hxs) j op)
      rw [hkept] at hreaches
      refine Or.inl (hg.grounded (hreaches c (Ladder.mem_atomProduction_of_mem _ hmem ?_)))
      intro heq
      exact hcx (Symbol.nonTerminal.inj heq)
  · rw [heq] at hmem
    exact Or.inl (h.grounded_of_finds hg hc hy hfinds hmem)

/-- A non-terminal that is carried and cannot be reached comes first in what it derives only if units
lead from it back to it. -/
theorem path_unitStep {n : Nat} {first : FirstTable n} {x m : Nat} (hc : g.Carries x m)
    (hm : m ∉ g.stratify.reachable) (hpath : TransGen (g.stratify.LeftCorner first) m m) :
    TransGen g.UnitStep m m := by
  have hend : ¬ g.stratify.Grounded m := fun hground => hm (hg.mem_reachable_of_path hground hpath)
  -- Along the path everything is carried, and nothing leads to what can be reached.
  suffices hall : ∀ a, TransGen (g.stratify.LeftCorner first) a m → (∃ y, g.Carries y a) →
      TransGen g.UnitStep a m from hall m hpath ⟨x, hc⟩
  have hstep : ∀ a c, TransGen (g.stratify.LeftCorner first) a m → (∃ y, g.Carries y a) →
      g.stratify.LeftCorner first a c → ¬ g.stratify.Grounded c →
        g.UnitStep a c ∧ ∃ y, g.Carries y c := by
    rintro a c ham ⟨y, hy⟩ hac hnot
    have hladder : ¬ g.HasLadder a := fun hladder =>
      hm (hg.mem_reachable_of_path (h.grounded_of_inUse (h.inUse_of_carries hg hy hladder)) ham)
    obtain ⟨p, hp, hcorner⟩ := List.mem_flatMap.1 hac.1
    obtain ⟨before, after, hsymbols, -⟩ := exists_append_of_mem_leftCorners hcorner
    have hmem : .nonTerminal c ∈ p.symbols :=
      hsymbols ▸ List.mem_append_right _ List.mem_cons_self
    exact (h.grounded_or_unitStep hg hy hladder hp hmem).resolve_left hnot
  intro a ham
  induction ham using TransGen.head_induction_on with
  | single hac =>
      intro ha
      exact TransGen.single (hstep _ _ (.single hac) ha hac hend).1
  | head hac hcm ih =>
      intro ha
      have hnot : ¬ g.stratify.Grounded _ := fun hground =>
        hm (hg.mem_reachable_of_path hground hcm)
      obtain ⟨hunit, hcarried⟩ := hstep _ _ (.head hac hcm) ha hac hnot
      exact TransGen.head hunit (ih hcarried)

end Staged

end Grammar

end SmallLang
