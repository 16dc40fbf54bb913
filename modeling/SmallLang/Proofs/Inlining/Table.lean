import SmallLang.Proofs.Inlining.Follow
import SmallLang.Proofs.Lookahead.Resolved
import SmallLang.Proofs.Renumbering.Parse

/-!
# Cells with one more operator

After an infix operator was added on `e`, a cell of the atoms is the one that the own priorities of all
productions that were inlined give (`Grammar.Inlines.exists_candidates_atom_perm`). The priorities with which
the alternatives replaced `e` have no part in it. No other cell becomes ambiguous, so the table exists if
those of the atoms are not tied, and only then (`Grammar.Inlines.ofGrammar_inlineAt_ok_iff`).
-/

set_option autoImplicit false

namespace SmallLang

open Equiv (Perm)
open List (Forall₂)

namespace Cell

/-- The cell is not tied. -/
def Decided (c : Cell) : Prop := ∀ ps, c ≠ .tied ps

/-- Whether the cell is not tied. -/
def isDecided : Cell → Bool
  | .tied _ => false
  | _ => true

theorem isDecided_iff {c : Cell} : c.isDecided = true ↔ c.Decided := by
  cases c <;> simp [isDecided, Decided]

instance : DecidablePred Decided := fun _ => decidable_of_iff _ isDecided_iff

/-- The places of the productions that apply, with their priorities. -/
def choices (applies : Production → Bool) (ps : List Production) : List (Nat × Int32) :=
  ps.zipIdx.filterMap fun (p, i) => if applies p then some (i, p.prec.priority) else none

/-- The cell that the productions which apply give by their own priorities. -/
def among (applies : Production → Bool) (ps : List Production) : Cell :=
  ofCandidates (choices applies ps)

variable {applies applies' : Production → Bool} {ps : List Production}

theorem mem_choices_iff {i : Nat} {priority : Int32} :
    (i, priority) ∈ choices applies ps ↔
      ∃ p, ps[i]? = some p ∧ applies p = true ∧ p.prec.priority = priority := by
  simp only [choices, List.mem_filterMap, Prod.exists, List.mk_mem_zipIdx_iff_getElem?,
    Option.ite_none_right_eq_some, Option.some.injEq, Prod.mk.injEq]
  constructor
  · rintro ⟨p, j, hp, happlies, rfl, rfl⟩
    exact ⟨p, hp, happlies, rfl⟩
  · rintro ⟨p, hp, happlies, rfl⟩
    exact ⟨p, i, hp, happlies, rfl, rfl⟩

theorem decided_of_length_le {cs : List (Nat × Int32)} (h : cs.length ≤ 1) :
    (ofCandidates cs).Decided := by
  intro qs htied
  have hmany := (Cell.ofCandidates_eq_tied_iff.1 htied).1
  have hle := length_tops_le cs
  omega

theorem length_choices_le (applies : Production → Bool) (ps : List Production) :
    (choices applies ps).length ≤ ps.length :=
  Nat.le_trans (List.length_filterMap_le _ _) (Nat.le_of_eq List.length_zipIdx)

/-- One production is never tied. -/
theorem decided_among_singleton (applies : Production → Bool) (p : Production) :
    (among applies [p]).Decided :=
  decided_of_length_le (length_choices_le applies [p])

/-- A cell where nothing applies is not tied. -/
theorem decided_of_not_applies (h : ∀ p ∈ ps, applies p = false) : (among applies ps).Decided := by
  have hnone : choices applies ps = [] := by
    refine List.filterMap_eq_nil_iff.2 ?_
    rintro ⟨p, i⟩ hp
    simp only [h p (List.mem_of_getElem? (List.mk_mem_zipIdx_iff_getElem?.1 hp))]
    rfl
  exact decided_of_length_le (by rw [hnone]; exact Nat.zero_le 1)

theorem choices_congr (h : ∀ p ∈ ps, applies' p = applies p) :
    choices applies' ps = choices applies ps := by
  refine List.filterMap_congr ?_
  rintro ⟨p, i⟩ hp
  simp only [h p (List.mem_of_getElem? (List.mk_mem_zipIdx_iff_getElem?.1 hp))]

/-- What applies does not depend on how the productions are listed, nor on what else they are. -/
theorem choices_perm {f : Production → Production} {qs : List Production} {σ : Perm Nat}
    (hσ : ∀ i, qs[σ i]? = ps[i]?.map f) (happlies : ∀ p ∈ ps, applies' (f p) = applies p)
    (hpriority : ∀ p, (f p).prec.priority = p.prec.priority) :
    (choices applies' qs).Perm ((choices applies ps).map fun c => (σ c.1, c.2)) := by
  refine ((zipIdx_perm hσ).filterMap _).trans (List.Perm.of_eq ?_)
  rw [choices, List.filterMap_map, List.map_filterMap]
  refine List.filterMap_congr ?_
  rintro ⟨p, i⟩ hp
  have happ := happlies p (List.mem_of_getElem? (List.mk_mem_zipIdx_iff_getElem?.1 hp))
  simp only [Function.comp_def, happ, hpriority]
  split <;> rfl

/-- Candidates with different priorities are not tied. -/
theorem decided_of_ne {cs : List (Nat × Int32)} (hne : cs.Pairwise fun c d => c.2 ≠ d.2) :
    (ofCandidates cs).Decided := by
  intro qs htied
  have hmany := (Cell.ofCandidates_eq_tied_iff.1 htied).1
  have hsub : (tops cs).Sublist cs := List.filter_sublist
  match hcs : tops cs, hmany with
  | c :: d :: rest, _ =>
      have hpair := (List.pairwise_cons.1 (hcs ▸ hne.sublist hsub)).1 d List.mem_cons_self
      have hc : c ∈ tops cs := hcs ▸ List.mem_cons_self
      have hd : d ∈ tops cs := hcs ▸ List.mem_cons_of_mem _ List.mem_cons_self
      have hle := (mem_tops_iff.1 hc).2 d (mem_tops_iff.1 hd).1
      have hle' := (mem_tops_iff.1 hd).2 c (mem_tops_iff.1 hc).1
      exact hpair (Int32.le_antisymm hle' hle)

theorem decided_perm {cs cs' : List (Nat × Int32)} {σ : Perm Nat}
    (h : cs'.Perm (cs.map fun c => (σ c.1, c.2))) :
    (ofCandidates cs').Decided ↔ (ofCandidates cs).Decided := by
  have hback : cs.Perm (cs'.map fun c => (σ.symm c.1, c.2)) := by
    have hmap := (h.map fun c : Nat × Int32 => (σ.symm c.1, c.2)).symm
    rw [List.map_map] at hmap
    refine (List.Perm.of_eq ?_).trans hmap
    simp [Function.comp_def]
  constructor
  · intro hdecided qs hqs
    obtain ⟨qs', hqs'⟩ := (ofCandidates_perm hback).2 ⟨qs, hqs⟩
    exact hdecided qs' hqs'
  · intro hdecided qs hqs
    obtain ⟨qs', hqs'⟩ := (ofCandidates_perm h).2 ⟨qs, hqs⟩
    exact hdecided qs' hqs'

/-- A decided cell gives the production that applies and has the highest priority, if there is one. -/
theorem production?_among_eq_some_iff (h : (among applies ps).Decided) {i : Nat} :
    (among applies ps).production? = some i ↔
      ∃ p, ps[i]? = some p ∧ applies p = true ∧
        ∀ q ∈ ps, applies q = true → q.prec.priority ≤ p.prec.priority := by
  have hfew : (tops (choices applies ps)).length < 2 := by
    by_contra hmany
    exact h _ (Cell.ofCandidates_eq_tied_iff.2 ⟨Nat.le_of_not_lt hmany, rfl⟩)
  rw [among, production?_eq_some_iff hfew]
  simp only [List.mem_map, Prod.exists, exists_and_right, exists_eq_right, mem_tops_iff, Prod.forall,
    mem_choices_iff]
  constructor
  · rintro ⟨_, ⟨p, hp, happlies, rfl⟩, hmax⟩
    refine ⟨p, hp, happlies, fun q hq hq' => ?_⟩
    obtain ⟨j, hj⟩ := List.mem_iff_getElem?.1 hq
    exact hmax j _ ⟨q, hj, hq', rfl⟩
  · rintro ⟨p, hp, happlies, hmax⟩
    refine ⟨_, ⟨p, hp, happlies, rfl⟩, ?_⟩
    rintro j _ ⟨q, hq, hq', rfl⟩
    exact hmax q (List.mem_of_getElem? hq) hq'

end Cell

namespace Grammar

variable {g : Grammar} {e types size : Nat} {o : AddedInfix}

/-- Whether the production can begin with the terminal. -/
def canBegin (g : Grammar) (t : Nat) (p : Production) : Bool :=
  (g.firstTable.ofSymbols p.symbols).terminals.contains t

/-- Whether the production can be empty. -/
def canBeEmpty (g : Grammar) (p : Production) : Bool := (g.firstTable.ofSymbols p.symbols).empty

/-- The cell that the atoms of `e` have for a terminal by their own priorities. -/
def atomCell (g : Grammar) (e t : Nat) : Cell := .among (g.canBegin t) (g.atomsOf e)

/-- No two productions that can be empty share the highest priority among those of their
non-terminal. -/
def Settled (g : Grammar) : Prop :=
  ∀ nt < g.size, (Cell.among g.canBeEmpty (g.productionsOf nt)).Decided

instance (g : Grammar) : Decidable g.Settled :=
  decidable_of_iff
    (((List.range g.size).all fun nt => (Cell.among g.canBeEmpty (g.productionsOf nt)).isDecided) = true)
    (by simp only [List.all_eq_true, List.mem_range, Cell.isDecided_iff]; rfl)

/-- The candidates for a cell, by the FIRST and FOLLOW sets of the grammar. -/
def cellCandidates (g : Grammar) (nt : Nat) (la : Lookahead) : List (Nat × Int32) :=
  g.candidates g.firstTable (g.followTable g.firstTable) nt la

/-- Whether the production applies where its non-terminal has the lookahead. -/
def canApply (g : Grammar) (nt : Nat) (la : Lookahead) (p : Production) : Bool :=
  la.admits (g.firstTable.ofSymbols p.symbols) ((g.followTable g.firstTable).get nt)

theorem cellCandidates_eq (g : Grammar) (nt : Nat) (la : Lookahead) :
    g.cellCandidates nt la = Cell.choices (g.canApply nt la) (g.productionsOf nt) := rfl

theorem canApply_of_not_canBeEmpty {p : Production} (h : g.canBeEmpty p = false) (nt t : Nat) :
    g.canApply nt (.terminal t) p = g.canBegin t p := by
  show (_ || g.canBeEmpty p && _) = _
  rw [h, Bool.false_and, Bool.or_false]
  rfl

theorem exists_parseTable_iff_decided :
    (∃ table, g.parseTable g.firstTable (g.followTable g.firstTable) = .ok table) ↔
      ∀ nt < g.size, ∀ la : Lookahead, la.column ≤ g.arena.size →
        (Cell.ofCandidates (g.cellCandidates nt la)).Decided := by
  constructor
  · rintro ⟨table, htable⟩
    exact (parseTable_eq_ok_iff.1 htable).2
  · intro h
    exact ⟨_, parseTable_eq_ok_iff.2 ⟨rfl, h⟩⟩

/-- A production begins with terminals of the grammar. -/
theorem WellFormed.lt_of_canBegin (hg : g.WellFormed) {nt t : Nat} {p : Production}
    (hp : p ∈ g.productionsOf nt) (h : g.canBegin t p = true) : t < g.arena.size := by
  have hexact := (least_firstTable g).isFirstOf hg.symbolsExist fun s hs => hg.hasSymbol_of_mem hp hs
  exact (IndexSet.mem_toList_iff.1 ((hexact.listed t).2 h)).1

namespace Inlines

variable (h : g.Inlines types size e o)
include h

/-- An atom begins with what it began with before, and is not empty. -/
theorem ofSymbols_atomProduction {p : Production} (hp : p ∈ g.atomsOf e) :
    (g.inlineAt e o).canBeEmpty ((g.inlineLadder e o).atomProduction p) = false ∧
      ∀ t, (g.inlineAt e o).canBegin t ((g.inlineLadder e o).atomProduction p) = g.canBegin t p := by
  obtain ⟨m, -, hpm, -⟩ := mem_atomsOf_iff.1 hp
  have hss : ∀ s ∈ p.symbols, g.HasSymbol s := fun s hs => h.wellFormed.hasSymbol_of_mem hpm hs
  have hturned := h.forall₂_atomProduction (o := o) (R := g.Turned e) p (fun s _ => Or.inl rfl)
    (Or.inr ⟨rfl, rfl⟩)
  refine ⟨?_, fun t => h.contains_ofSymbols_inlineAt hss hturned t⟩
  rw [canBeEmpty, h.empty_ofSymbols_inlineAt hss hturned, Bool.eq_false_iff, ne_eq,
    FirstTable.empty_ofSymbols_iff]
  exact h.wellFormed.not_nullRow_of_mem_atomsOf h.nonempty hp

/-- **The candidates for a cell of the atoms are those of the inlined productions that apply, with their
own priorities.** -/
theorem exists_candidates_atom_perm :
    ∃ σ : Perm Nat,
      (∀ i, ((g.inlineAt e o).productionsOf (g.size + 2))[σ i]? =
        (g.atomsOf e)[i]?.map (g.inlineLadder e o).atomProduction) ∧
      ∀ t, ((g.inlineAt e o).cellCandidates (g.size + 2) (.terminal t)).Perm
        ((Cell.choices (g.canBegin t) (g.atomsOf e)).map fun c => (σ c.1, c.2)) := by
  -- The step lists the atoms in the order of its closure, which need not be that of the closure before.
  obtain ⟨σ, hσ⟩ := exists_perm_getElem? (h.productionsOf_inlineAt_atom (o := o))
  have hσ' : ∀ i, ((g.inlineAt e o).productionsOf (g.size + 2))[σ i]? =
      (g.atomsOf e)[i]?.map (g.inlineLadder e o).atomProduction := fun i =>
    (hσ i).trans List.getElem?_map
  refine ⟨σ, hσ', fun t => ?_⟩
  rw [cellCandidates_eq]
  refine Cell.choices_perm hσ' (fun p hp => ?_) fun p => by rw [Ladder.prec_atomProduction]
  obtain ⟨hempty, hbegin⟩ := h.ofSymbols_atomProduction (o := o) hp
  rw [canApply_of_not_canBeEmpty hempty, hbegin]

/-- The table gives for the atoms what their own priorities give. -/
theorem exists_get?_inlineAt_atom :
    ∃ σ : Perm Nat,
      (∀ i, (g.inlineAt e o).production? (g.size + 2) (σ i) =
        (g.atomsOf e)[i]?.map (g.inlineLadder e o).atomProduction) ∧
      ∀ t < g.arena.size,
        ((g.inlineAt e o).allCells (g.inlineAt e o).firstTable
            ((g.inlineAt e o).followTable (g.inlineAt e o).firstTable)).get? (g.size + 2)
              (.terminal t) =
          (g.atomCell e t).production?.map σ := by
  obtain ⟨σ, hσ, hperm⟩ := h.exists_candidates_atom_perm (o := o)
  refine ⟨σ, hσ, fun t ht => ?_⟩
  have hnt : g.size + 2 < (g.inlineAt e o).size := by
    rw [h.size_inlineAt]
    omega
  have hla : (Lookahead.terminal t).column ≤ (g.inlineAt e o).arena.size := by
    rw [Operatorless.arena_inlineAt, arena_size_addInfix]
    exact Nat.succ_le_succ (Nat.le_of_lt ht)
  rw [get?_allCells hnt hla]
  exact (Cell.ofCandidates_perm (hperm t)).1

/-! ## The other cells -/

/-- A production of another non-terminal applies as before, unless the literal comes next. -/
theorem canApply_inlineAt_old {nt : Nat} (hnt : nt < g.size) {p : Production}
    (hp : p ∈ g.productionsOf nt) {la : Lookahead} (hla : la ≠ .terminal g.arena.size) :
    (g.inlineAt e o).canApply nt la p = g.canApply nt la p := by
  have hss : ∀ s ∈ p.symbols, g.HasSymbol s := fun s hs => h.wellFormed.hasSymbol_of_mem hp hs
  have hturned : Forall₂ (g.Turned e) p.symbols p.symbols := forall₂_self fun s _ => Or.inl rfl
  have hempty : (g.inlineAt e o).canBeEmpty p = g.canBeEmpty p := h.empty_ofSymbols_inlineAt hss hturned
  by_cases hnull : g.canBeEmpty p = true
  · -- Alternatives of `e` cannot be empty, so the non-terminal is followed by what followed it.
    have hout : nt ∉ g.unitClosure e := by
      intro hin
      obtain ⟨i, hi⟩ := mem_productionsOf_iff.1 hp
      refine h.nonempty (h.wellFormed.nullable_of_mem_unitClosure hin ?_)
      exact h.wellFormed.firstClosed_firstTable.nullable nt i p hi (FirstTable.empty_ofSymbols_iff.1 hnull)
    cases la with
    | endOfInput =>
        have hend := h.canEnd_inlineAt_iff (o := o) hnt hout
        show ((g.inlineAt e o).canBeEmpty p && _) = (g.canBeEmpty p && _)
        rw [hempty]
        exact congrArg _ (Bool.eq_iff_iff.2 hend)
    | terminal t =>
        have hne : t ≠ g.arena.size := fun heq => hla (congrArg Lookahead.terminal heq)
        have hnext := h.next_inlineAt_iff (o := o) hnt hout hne
        show ((g.inlineAt e o).canBegin t p || (g.inlineAt e o).canBeEmpty p && _) =
          (g.canBegin t p || g.canBeEmpty p && _)
        rw [hempty, canBegin, canBegin, h.contains_ofSymbols_inlineAt hss hturned]
        exact congrArg _ (congrArg _ (Bool.eq_iff_iff.2 hnext))
  · rw [Bool.not_eq_true] at hnull
    cases la with
    | endOfInput =>
        show ((g.inlineAt e o).canBeEmpty p && _) = (g.canBeEmpty p && _)
        rw [hempty, hnull, Bool.false_and, Bool.false_and]
    | terminal t =>
        rw [canApply_of_not_canBeEmpty hnull, canApply_of_not_canBeEmpty (hempty.trans hnull)]
        exact h.contains_ofSymbols_inlineAt hss hturned t

/-- Before the literal no other production but those that can be empty applies. -/
theorem canApply_inlineAt_literal {nt : Nat} {p : Production} (hp : p ∈ g.productionsOf nt) :
    (g.inlineAt e o).canApply nt (.terminal g.arena.size) p =
      (g.canBeEmpty p &&
        (((g.inlineAt e o).followTable (g.inlineAt e o).firstTable).get nt).terminals.contains
          g.arena.size) := by
  have hss : ∀ s ∈ p.symbols, g.HasSymbol s := fun s hs => h.wellFormed.hasSymbol_of_mem hp hs
  have hturned : Forall₂ (g.Turned e) p.symbols p.symbols := forall₂_self fun s _ => Or.inl rfl
  have hbegin : (g.inlineAt e o).canBegin g.arena.size p = false := by
    rw [canBegin, h.contains_ofSymbols_inlineAt hss hturned, Bool.eq_false_iff]
    exact fun hcontains => Nat.lt_irrefl _ (h.wellFormed.lt_of_canBegin hp hcontains)
  have hempty : (g.inlineAt e o).canBeEmpty p = g.canBeEmpty p := h.empty_ofSymbols_inlineAt hss hturned
  show ((g.inlineAt e o).canBegin _ p || (g.inlineAt e o).canBeEmpty p && _) = _
  rw [hbegin, hempty, Bool.false_or]

/-- The cells of the other non-terminals stay decided. -/
theorem decided_inlineAt_old (hsettled : g.Settled) {nt : Nat} (hnt : nt < g.size) (hne : nt ≠ e)
    (hdecided : ∀ la : Lookahead, la.column ≤ g.arena.size →
      (Cell.ofCandidates (g.cellCandidates nt la)).Decided) {la : Lookahead}
    (hla : la.column ≤ g.arena.size + 1) :
    (Cell.ofCandidates ((g.inlineAt e o).cellCandidates nt la)).Decided := by
  rw [cellCandidates_eq, h.productionsOf_inlineAt_old hnt hne]
  by_cases hlit : la = .terminal g.arena.size
  · -- The operands may now be followed by the literal, where only what can be empty applies.
    subst hlit
    rw [Cell.choices_congr fun p hp => h.canApply_inlineAt_literal (o := o) hp]
    cases (((g.inlineAt e o).followTable (g.inlineAt e o).firstTable).get nt).terminals.contains
        g.arena.size with
    | true =>
        simp only [Bool.and_true]
        exact hsettled nt hnt
    | false => exact Cell.decided_of_not_applies fun p _ => Bool.and_false _
  · rw [Cell.choices_congr fun p hp => h.canApply_inlineAt_old (o := o) hnt hp hlit]
    refine hdecided la ?_
    cases la with
    | endOfInput => exact Nat.zero_le _
    | terminal t =>
        have ht : t ≠ g.arena.size := fun heq => hlit (congrArg Lookahead.terminal heq)
        simp only [Lookahead.column] at hla ⊢
        omega

/-- A tail is decided by the operator's priority. -/
theorem decided_inlineAt_tail (hprec : Prec.lowest.priority < o.prec.priority) (la : Lookahead) :
    (Cell.ofCandidates ((g.inlineAt e o).cellCandidates (g.size + 1) la)).Decided := by
  refine Cell.decided_of_ne ?_
  rw [cellCandidates_eq, h.productionsOf_inlineAt_tail]
  refine List.Pairwise.filterMap _ ?_ (?_ : List.Pairwise
    (fun x y : Production × Nat => x.1.prec.priority ≠ y.1.prec.priority) _)
  · rintro ⟨p, i⟩ ⟨q, j⟩ hne c hc d hd
    simp only [Option.ite_none_right_eq_some, Option.some.injEq] at hc hd
    rw [← hc.2, ← hd.2]
    exact hne
  · have hne : o.prec.priority ≠ Prec.lowest.priority := fun heq => by
      rw [heq] at hprec
      exact Int32.lt_irrefl hprec
    exact List.pairwise_pair.2 hne

/-- A cell of the atoms is decided as their own priorities are. -/
theorem decided_inlineAt_atom_iff (t : Nat) :
    (Cell.ofCandidates ((g.inlineAt e o).cellCandidates (g.size + 2) (.terminal t))).Decided ↔
      (g.atomCell e t).Decided := by
  obtain ⟨σ, -, hperm⟩ := h.exists_candidates_atom_perm (o := o)
  exact Cell.decided_perm (hperm t)

/-- The atoms have no candidates at the end of the input. -/
theorem decided_inlineAt_atom_endOfInput :
    (Cell.ofCandidates ((g.inlineAt e o).cellCandidates (g.size + 2) .endOfInput)).Decided := by
  rw [cellCandidates_eq]
  refine Cell.decided_of_not_applies fun p hp => ?_
  obtain ⟨q, hq, rfl⟩ := List.mem_map.1 (h.productionsOf_inlineAt_atom.mem_iff.1 hp)
  show ((g.inlineAt e o).canBeEmpty _ && _) = false
  rw [(h.ofSymbols_atomProduction hq).1, Bool.false_and]

theorem decided_atomCell_of_le {t : Nat} (ht : g.arena.size ≤ t) : (g.atomCell e t).Decided := by
  refine Cell.decided_of_not_applies fun p hp => ?_
  obtain ⟨m, -, hpm, -⟩ := mem_atomsOf_iff.1 hp
  rw [Bool.eq_false_iff]
  exact fun hbegin => Nat.not_lt.2 ht (h.wellFormed.lt_of_canBegin hpm hbegin)

/-- **The table exists with the operator if no cell of the atoms is tied, and only then.** -/
theorem exists_parseTable_inlineAt_iff (hsettled : g.Settled)
    (hprec : Prec.lowest.priority < o.prec.priority)
    (htable : ∃ table, g.parseTable g.firstTable (g.followTable g.firstTable) = .ok table) :
    (∃ table, (g.inlineAt e o).parseTable (g.inlineAt e o).firstTable
        ((g.inlineAt e o).followTable (g.inlineAt e o).firstTable) = .ok table) ↔
      ∀ t < g.arena.size, (g.atomCell e t).Decided := by
  have hdecided := exists_parseTable_iff_decided.1 htable
  have harena : (g.inlineAt e o).arena.size = g.arena.size + 1 := by
    rw [Operatorless.arena_inlineAt]
    exact arena_size_addInfix g e o
  rw [exists_parseTable_iff_decided, h.size_inlineAt, harena]
  constructor
  · intro hall t ht
    refine (h.decided_inlineAt_atom_iff (o := o) t).1 (hall _ (by omega) _ ?_)
    exact Nat.succ_le_succ (Nat.le_of_lt ht)
  · intro hall nt hnt la hla
    by_cases hold : nt < g.size ∧ nt ≠ e
    · exact h.decided_inlineAt_old hsettled hold.1 hold.2 (hdecided nt hold.1) hla
    have hlt := h.lt
    obtain rfl | rfl | rfl | rfl | rfl :
        nt = e ∨ nt = g.size ∨ nt = g.size + 1 ∨ nt = g.size + 2 ∨ nt = g.size + 3 := by omega
    · rw [cellCandidates_eq, h.productionsOf_inlineAt_self]
      exact Cell.decided_among_singleton _ _
    · rw [cellCandidates_eq, h.productionsOf_inlineAt_type]
      exact Cell.decided_among_singleton _ _
    · exact h.decided_inlineAt_tail hprec la
    · cases la with
      | endOfInput => exact h.decided_inlineAt_atom_endOfInput
      | terminal t =>
          refine (h.decided_inlineAt_atom_iff t).2 ?_
          rcases Nat.lt_or_ge t g.arena.size with ht | ht
          · exact hall t ht
          · exact h.decided_atomCell_of_le ht
    · rw [cellCandidates_eq, h.productionsOf_inlineAt_forced]
      exact Cell.decided_among_singleton _ _

/-- **The grammar with the operator can be compiled if the old one can be and no cell of the atoms is
tied, and only then.** -/
theorem ofGrammar_inlineAt_ok_iff (hsettled : g.Settled)
    (hprec : Prec.lowest.priority < o.prec.priority) (hsign : ∀ c, o.sign ≠ .ofClass c)
    (hok : ∃ compiled, Compiled.ofGrammar g = .ok compiled) :
    (∃ compiled, Compiled.ofGrammar (g.inlineAt e o) = .ok compiled) ↔
      ∀ t < g.arena.size, (g.atomCell e t).Decided := by
  obtain ⟨hrecursion, htable, hpatterns⟩ := Compiled.ofGrammar_ok_iff.1 hok
  rw [Compiled.ofGrammar_ok_iff, h.exists_parseTable_inlineAt_iff hsettled hprec htable,
    Operatorless.arena_inlineAt]
  refine ⟨fun hall => hall.2.1, fun hall => ⟨h.checkLeftRecursion_inlineAt hrecursion, hall, ?_⟩⟩
  intro c hc
  rcases List.mem_append.1 hc with hc | hc
  · exact hpatterns c hc
  · exact absurd (List.mem_singleton.1 hc).symm (hsign c)

/-! ## The cells by other numbers -/

/-- **By other numbers too, a decided cell of the atoms holds the atom that applies and has the highest
priority of its own.** -/
theorem exists_get?_iff {s : Renumbering} {g' : Grammar} (hs : Renumbers s (g.inlineAt e o) g')
    (hterminal : s.terminal = Equiv.refl Nat) {t : Nat} (ht : t < g.arena.size)
    (hdecided : (g.atomCell e t).Decided) {p : Production} (hp : p ∈ g.atomsOf e) :
    (∃ i, (g'.allCells g'.firstTable (g'.followTable g'.firstTable)).get? (s.nonTerminal (g.size + 2))
          (.terminal t) = some i ∧
        g'.production? (s.nonTerminal (g.size + 2)) i =
          some (s.production ((g.inlineLadder e o).atomProduction p))) ↔
      g.canBegin t p = true ∧ ∀ q ∈ g.atomsOf e, g.canBegin t q = true →
        q.prec.priority ≤ p.prec.priority := by
  obtain ⟨σ, hσ, hget⟩ := h.exists_get?_inlineAt_atom (o := o)
  obtain ⟨τ, hτ⟩ := hs.exists_production?_eq
  have hcell := hs.get?_allCells hτ h.wellFormed_inlineAt (g.size + 2) (.terminal t)
  have hlookahead : s.lookahead (.terminal t) = .terminal t := by
    rw [Renumbering.lookahead, hterminal]
    rfl
  rw [hlookahead, hget t ht] at hcell
  have hproduction : ∀ i, g'.production? (s.nonTerminal (g.size + 2)) (τ (g.size + 2) (σ i)) =
      (g.atomsOf e)[i]?.map fun q => s.production ((g.inlineLadder e o).atomProduction q) := fun i => by
    rw [hτ, hσ, Option.map_map]
    rfl
  rw [hcell]
  constructor
  · rintro ⟨k, hk, hpi⟩
    obtain ⟨j, hj, rfl⟩ := Option.map_eq_some_iff.1 hk
    obtain ⟨i, hi, rfl⟩ := Option.map_eq_some_iff.1 hj
    obtain ⟨q, hq, hbegin, hmax⟩ := (Cell.production?_among_eq_some_iff hdecided).1 hi
    rw [hproduction, hq, Option.map_some, Option.some.injEq] at hpi
    -- One production stands for both, so both begin alike and have one priority.
    have heq : (g.inlineLadder e o).atomProduction q = (g.inlineLadder e o).atomProduction p := by
      rw [← s.production_symm_production ((g.inlineLadder e o).atomProduction q), hpi,
        s.production_symm_production]
    have hprec : q.prec = p.prec := by
      rw [← Ladder.prec_atomProduction (g.inlineLadder e o) q, heq, Ladder.prec_atomProduction]
    rw [← hprec]
    refine ⟨?_, hmax⟩
    rw [← (h.ofSymbols_atomProduction (o := o) hp).2 t, ← heq,
      (h.ofSymbols_atomProduction (List.mem_of_getElem? hq)).2 t]
    exact hbegin
  · rintro ⟨hbegin, hmax⟩
    obtain ⟨i, hi⟩ := List.mem_iff_getElem?.1 hp
    have hchosen : (g.atomCell e t).production? = some i :=
      (Cell.production?_among_eq_some_iff hdecided).2 ⟨p, hi, hbegin, hmax⟩
    refine ⟨τ (g.size + 2) (σ i), ?_, ?_⟩
    · rw [hchosen]
      rfl
    · rw [hproduction, hi]
      rfl

end Inlines

end Grammar

end SmallLang
