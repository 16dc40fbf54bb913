import SmallLang.Proofs.Lookahead.FollowExact
import SmallLang.Proofs.Lookahead.LeftRecursion
import SmallLang.Proofs.Renumbering.Grammar

/-!
# Lookaheads under other numbers

FIRST and FOLLOW sets are the least ones closed under the productions, so they do not depend on the
numbers: with other numbers a grammar has the same sets of the other numbers
(`Grammar.Renumbers.contains_firstTable`, `Grammar.Renumbers.contains_followTable`). It is left recursive
as before (`Grammar.Renumbers.checkLeftRecursion_eq_ok`).
-/

set_option autoImplicit false

namespace SmallLang

open Relation (TransGen)

/-! ## The sets of a row, by those of its symbols -/

namespace FirstTable

variable {n : Nat} {first : FirstTable n}

theorem empty_ofSymbols_iff {ss : List Symbol} :
    (first.ofSymbols ss).empty = true ↔
      Grammar.NullRow (fun nt => (first.get nt).empty = true) ss := by
  constructor
  · exact (Grammar.within_ofSymbols (fun nt => ⟨fun h => h, fun t h => h⟩) ss).1
  · intro h
    induction ss with
    | nil => rfl
    | cons s ss ih =>
        obtain ⟨i, rfl, hi⟩ := h s List.mem_cons_self
        have hrest := ih fun s hs => h s (List.mem_cons_of_mem _ hs)
        rw [ofSymbols, ofSymbol, FirstSet.followedBy, if_pos hi]
        exact hrest

theorem contains_ofSymbols_iff {ss : List Symbol} (hss : ∀ i, .terminal i ∈ ss → i < n) {t : Nat} :
    (first.ofSymbols ss).terminals.contains t = true ↔
      Grammar.FirstInRow (fun nt => (first.get nt).empty = true)
        (fun nt t => (first.get nt).terminals.contains t = true) ss t := by
  constructor
  · exact (Grammar.within_ofSymbols (fun nt => ⟨fun h => h, fun t h => h⟩) ss).2 t
  · intro h
    induction ss with
    | nil => exact h.elim
    | cons s ss ih =>
        cases s with
        | terminal i =>
            obtain rfl : t = i := h
            have hlt := IndexSet.lt_wordBits (hss t List.mem_cons_self)
            show ((FirstSet.single t : FirstSet n).terminals.contains t) = true
            simp [FirstSet.single, IndexSet.contains_insert_empty, hlt]
        | nonTerminal i =>
            rw [ofSymbols, ofSymbol, FirstSet.followedBy]
            rcases h with h | ⟨hempty, h⟩
            · split
              · simp [IndexSet.contains_union, h]
              · exact h
            · have hrest := ih (fun i hi => hss i (List.mem_cons_of_mem _ hi)) h
              rw [if_pos hempty]
              simp [IndexSet.contains_union, hrest]

end FirstTable

namespace Grammar

variable {g g' : Grammar} {r : Renumbering}

/-! ## The sets are closed under the productions -/

/-- FIRST sets are closed under the productions themselves. -/
theorem WellFormed.firstClosed_firstTable (hg : g.WellFormed) :
    g.FirstClosed (fun nt => (g.firstTable.get nt).empty = true)
      (fun nt t => (g.firstTable.get nt).terminals.contains t = true) := by
  refine ⟨fun nt i p hp hrow => ?_, fun nt i p t hp hrow => ?_⟩
  · have hincludes := FirstSet.includes_iff.1 (g.least_firstTable.closed nt i p hp)
    exact hincludes.1 (FirstTable.empty_ofSymbols_iff.2 hrow)
  · have hincludes := FirstSet.includes_iff.1 (g.least_firstTable.closed nt i p hp)
    apply hincludes.2
    exact (FirstTable.contains_ofSymbols_iff fun i hi => hg.hasSymbol hp hi).2 hrow

/-! ## Rows by other numbers -/

theorem nullRow_map_iff {empty : Nat → Prop} {ss : List Symbol} :
    NullRow (fun nt => empty (r.nonTerminal.symm nt)) (ss.map r.symbol) ↔ NullRow empty ss := by
  constructor
  · intro h s hs
    obtain ⟨i, hi, hempty⟩ := h _ (List.mem_map_of_mem hs)
    cases s with
    | terminal j => exact absurd hi (by simp [Renumbering.symbol])
    | nonTerminal j =>
        obtain rfl : r.nonTerminal j = i := Symbol.nonTerminal.inj hi
        rw [Equiv.symm_apply_apply] at hempty
        exact ⟨j, rfl, hempty⟩
  · intro h s' hs'
    obtain ⟨s, hs, rfl⟩ := List.mem_map.1 hs'
    obtain ⟨i, rfl, hempty⟩ := h s hs
    refine ⟨r.nonTerminal i, rfl, ?_⟩
    simp only [Equiv.symm_apply_apply]
    exact hempty

theorem firstInRow_map_iff {empty : Nat → Prop} {first : Nat → Nat → Prop} {ss : List Symbol}
    {t : Nat} :
    FirstInRow (fun nt => empty (r.nonTerminal.symm nt))
        (fun nt t => first (r.nonTerminal.symm nt) (r.terminal.symm t)) (ss.map r.symbol) t ↔
      FirstInRow empty first ss (r.terminal.symm t) := by
  induction ss with
  | nil => exact Iff.rfl
  | cons s ss ih =>
      cases s with
      | terminal i =>
          show t = r.terminal i ↔ r.terminal.symm t = i
          rw [Equiv.symm_apply_eq]
      | nonTerminal i =>
          rw [List.map_cons, Renumbering.symbol, FirstInRow, FirstInRow, ih,
            Equiv.symm_apply_apply]

/-- The symbols of a production around one of its non-terminals, by their first numbers. -/
theorem exists_of_map_symbols {ss before after : List Symbol} {nt : Nat}
    (h : ss.map r.symbol = before ++ .nonTerminal nt :: after) :
    ∃ before' i after', ss = before' ++ .nonTerminal i :: after' ∧ nt = r.nonTerminal i ∧
      after = after'.map r.symbol := by
  obtain ⟨before', rest, rfl, -, hrest⟩ := List.map_eq_append_iff.1 h
  obtain ⟨s, after', rfl, hs, hafter⟩ := List.map_eq_cons_iff.1 hrest
  cases s with
  | terminal i => exact absurd hs (by simp [Renumbering.symbol])
  | nonTerminal i => exact ⟨before', i, after', rfl, (Symbol.nonTerminal.inj hs).symm, hafter.symm⟩

/-! ## The sets of the other numbers -/

namespace Renumbers

variable (h : Renumbers r g g')
include h

theorem wellFormed (hg : g.WellFormed) : g'.WellFormed := by
  refine ⟨?_, fun nt hnt p hp x hx => ?_⟩
  · rw [h.start_eq, h.size_eq, h.lt_size_iff]
    exact hg.1
  · obtain ⟨i, hi⟩ := List.mem_iff_getElem?.1 hnt
    obtain ⟨j, rfl⟩ := r.nonTerminal.surjective i
    have hmem : p ∈ g'.productionsOf (r.nonTerminal j) := by
      rw [Grammar.productionsOf, hi]
      exact hp
    obtain ⟨q, hq, rfl⟩ := h.exists_of_mem_productionsOf hmem
    obtain ⟨y, hy, rfl⟩ := List.mem_map.1 hx
    obtain ⟨k, hk⟩ := mem_productionsOf_iff.1 hq
    exact (h.hasSymbol_iff y).2 (hg.hasSymbol hk hy)

/-- Sets that are closed under the productions are so by the other numbers. -/
theorem firstClosed {empty : Nat → Prop} {first : Nat → Nat → Prop}
    (hclosed : g.FirstClosed empty first) :
    g'.FirstClosed (fun nt => empty (r.nonTerminal.symm nt))
      (fun nt t => first (r.nonTerminal.symm nt) (r.terminal.symm t)) := by
  have hold : ∀ nt i p', g'.production? nt i = some p' →
      ∃ j p, g.production? (r.nonTerminal.symm nt) j = some p ∧ p' = r.production p := by
    intro nt i p' hp'
    obtain ⟨m, rfl⟩ := r.nonTerminal.surjective nt
    obtain ⟨p, hp, rfl⟩ := h.exists_of_mem_productionsOf (List.mem_of_getElem? hp')
    obtain ⟨j, hj⟩ := mem_productionsOf_iff.1 hp
    rw [Equiv.symm_apply_apply]
    exact ⟨j, p, hj, rfl⟩
  refine ⟨fun nt i p' hp' hrow => ?_, fun nt i p' t hp' hrow => ?_⟩
  · obtain ⟨j, p, hp, rfl⟩ := hold nt i p' hp'
    exact hclosed.nullable _ j p hp (nullRow_map_iff.1 hrow)
  · obtain ⟨j, p, hp, rfl⟩ := hold nt i p' hp'
    exact hclosed.terminal _ j p _ hp (firstInRow_map_iff.1 hrow)

theorem firstTable_le (hg : g.WellFormed) (nt : Nat) :
    Within (g'.firstTable.get (r.nonTerminal nt)) ((g.firstTable.get nt).empty = true)
      (fun t => (g.firstTable.get nt).terminals.contains (r.terminal.symm t) = true) := by
  have hwithin := (h.firstClosed hg.firstClosed_firstTable).within_firstTable (r.nonTerminal nt)
  rwa [Equiv.symm_apply_apply] at hwithin

theorem empty_firstTable (hg : g.WellFormed) (nt : Nat) :
    (g'.firstTable.get (r.nonTerminal nt)).empty = (g.firstTable.get nt).empty := by
  refine Bool.eq_iff_iff.2 ⟨(h.firstTable_le hg nt).1, ?_⟩
  have hback := (h.symm.firstTable_le (h.wellFormed hg) (r.nonTerminal nt)).1
  rwa [Renumbering.symm_nonTerminal_apply] at hback

/-- FIRST sets are those of the other numbers. -/
theorem contains_firstTable (hg : g.WellFormed) (nt t : Nat) :
    (g'.firstTable.get (r.nonTerminal nt)).terminals.contains (r.terminal t) =
      (g.firstTable.get nt).terminals.contains t := by
  refine Bool.eq_iff_iff.2 ⟨fun ht => ?_, fun ht => ?_⟩
  · have hold := (h.firstTable_le hg nt).2 _ ht
    simp only [Equiv.symm_apply_apply] at hold
    exact hold
  · have hback := (h.symm.firstTable_le (h.wellFormed hg) (r.nonTerminal nt)).2 t
    rw [Renumbering.symm_nonTerminal_apply] at hback
    exact hback ht

theorem empty_eq (hg : g.WellFormed) : (fun nt => (g'.firstTable.get nt).empty = true) =
    fun nt => (g.firstTable.get (r.nonTerminal.symm nt)).empty = true := by
  funext nt
  obtain ⟨m, rfl⟩ := r.nonTerminal.surjective nt
  rw [Equiv.symm_apply_apply, h.empty_firstTable hg]

theorem contains_eq (hg : g.WellFormed) :
    (fun nt t => (g'.firstTable.get nt).terminals.contains t = true) = fun nt t =>
      (g.firstTable.get (r.nonTerminal.symm nt)).terminals.contains (r.terminal.symm t) = true := by
  funext nt t
  obtain ⟨m, rfl⟩ := r.nonTerminal.surjective nt
  obtain ⟨u, rfl⟩ := r.terminal.surjective t
  rw [Equiv.symm_apply_apply, Equiv.symm_apply_apply, h.contains_firstTable hg]

theorem empty_ofSymbols (hg : g.WellFormed) (ss : List Symbol) :
    (g'.firstTable.ofSymbols (ss.map r.symbol)).empty = (g.firstTable.ofSymbols ss).empty := by
  refine Bool.eq_iff_iff.2 ?_
  rw [FirstTable.empty_ofSymbols_iff, FirstTable.empty_ofSymbols_iff, h.empty_eq hg]
  exact @nullRow_map_iff r (fun nt => (g.firstTable.get nt).empty = true) ss

theorem contains_ofSymbols (hg : g.WellFormed) {ss : List Symbol}
    (hss : ∀ s ∈ ss, g.HasSymbol s) (t : Nat) :
    (g'.firstTable.ofSymbols (ss.map r.symbol)).terminals.contains (r.terminal t) =
      (g.firstTable.ofSymbols ss).terminals.contains t := by
  have hss' : ∀ i, .terminal i ∈ ss.map r.symbol → i < g'.arena.size := by
    intro i hi
    obtain ⟨s, hs, heq⟩ := List.mem_map.1 hi
    have hsymbol := (h.hasSymbol_iff s).2 (hss s hs)
    rw [heq] at hsymbol
    exact hsymbol
  refine Bool.eq_iff_iff.2 ?_
  rw [FirstTable.contains_ofSymbols_iff fun i hi => hss _ hi,
    FirstTable.contains_ofSymbols_iff hss']
  have hmap := @firstInRow_map_iff r (fun nt => (g.firstTable.get nt).empty = true)
    (fun nt t => (g.firstTable.get nt).terminals.contains t = true) ss (r.terminal t)
  rw [Equiv.symm_apply_apply] at hmap
  rw [← hmap, h.empty_eq hg, h.contains_eq hg]

/-! ## What can follow -/

theorem mem_reachable {nt : Nat} (hnt : nt ∈ g.reachable) : r.nonTerminal nt ∈ g'.reachable := by
  rw [reachable] at hnt ⊢
  by_cases hstart : g.start < g.size
  · have hstart' : g'.start < g'.size := by
      rw [h.start_eq, h.size_eq, h.lt_size_iff]
      exact hstart
    rw [if_pos hstart, Reach.mem_reachable_iff] at hnt
    rw [if_pos hstart', Reach.mem_reachable_iff, h.start_eq]
    refine Relation.ReflTransGen.lift r.nonTerminal ?_ _ _ hnt
    rintro a b ⟨hmem, hlt⟩
    obtain ⟨p, hp, hb⟩ := mem_mentioned_iff.1 hmem
    refine ⟨mem_mentioned_iff.2 ⟨r.production p, h.mem_productionsOf hp, ?_⟩, ?_⟩
    · exact List.mem_map.2 ⟨_, hb, rfl⟩
    · rw [h.size_eq, h.lt_size_iff]
      exact hlt
  · rw [if_neg hstart] at hnt
    exact absurd hnt List.not_mem_nil

theorem mem_reachable_iff (nt : Nat) : r.nonTerminal nt ∈ g'.reachable ↔ nt ∈ g.reachable := by
  refine ⟨fun hnt => ?_, h.mem_reachable⟩
  have hback := h.symm.mem_reachable hnt
  rwa [Renumbering.symm_nonTerminal_apply] at hback

theorem followClosed (hg : g.WellFormed) {atEnd : Nat → Prop} {next : Nat → Nat → Prop}
    (hclosed : g.FollowClosed g.firstTable atEnd next) :
    g'.FollowClosed g'.firstTable (fun nt => atEnd (r.nonTerminal.symm nt))
      (fun nt t => next (r.nonTerminal.symm nt) (r.terminal.symm t)) := by
  -- Each occurrence of a non-terminal comes from one in the grammar with the old numbers.
  have hold : ∀ head ∈ g'.reachable, ∀ p' ∈ g'.productionsOf head, ∀ before nt after,
      p'.symbols = before ++ .nonTerminal nt :: after →
        r.nonTerminal.symm head ∈ g.reachable ∧
          ∃ p ∈ g.productionsOf (r.nonTerminal.symm head), ∃ before' after',
            p.symbols = before' ++ .nonTerminal (r.nonTerminal.symm nt) :: after' ∧
              after = after'.map r.symbol ∧ ∀ s ∈ after', g.HasSymbol s := by
    intro head hhead p' hp' before nt after hsymbols
    obtain ⟨m, rfl⟩ := r.nonTerminal.surjective head
    rw [h.mem_reachable_iff] at hhead
    rw [Equiv.symm_apply_apply]
    obtain ⟨p, hp, rfl⟩ := h.exists_of_mem_productionsOf hp'
    obtain ⟨before', i, after', hp'', rfl, rfl⟩ := exists_of_map_symbols hsymbols
    obtain ⟨j, hj⟩ := mem_productionsOf_iff.1 hp
    refine ⟨hhead, p, hp, before', after', ?_, rfl, fun s hs => hg.hasSymbol hj ?_⟩
    · rw [Equiv.symm_apply_apply]
      exact hp''
    · rw [hp'']
      exact List.mem_append_right _ (List.mem_cons_of_mem _ hs)
  refine ⟨?_, ?_, ?_⟩
  · rw [h.start_eq, Equiv.symm_apply_apply]
    exact hclosed.start
  · intro head hhead p' hp' before nt after hsymbols t ht
    obtain ⟨hreach, p, hp, before', after', hp'', rfl, hafter⟩ :=
      hold head hhead p' hp' before nt after hsymbols
    obtain ⟨u, rfl⟩ := r.terminal.surjective t
    rw [h.contains_ofSymbols hg hafter] at ht
    rw [Equiv.symm_apply_apply]
    exact hclosed.rest _ hreach p hp before' _ after' hp'' u ht
  · intro head hhead p' hp' before nt after hsymbols hempty
    obtain ⟨hreach, p, hp, before', after', hp'', rfl, -⟩ :=
      hold head hhead p' hp' before nt after hsymbols
    rw [h.empty_ofSymbols hg] at hempty
    obtain ⟨hend, hnext⟩ := hclosed.last _ hreach p hp before' _ after' hp'' hempty
    exact ⟨hend, fun t ht => hnext _ ht⟩

theorem followTable_le (hg : g.WellFormed) (nt : Nat) :
    FollowWithin ((g'.followTable g'.firstTable).get (r.nonTerminal nt))
      (((g.followTable g.firstTable).get nt).atEnd = true) (fun t =>
        ((g.followTable g.firstTable).get nt).terminals.contains (r.terminal.symm t) = true) := by
  have hwithin := (h.followClosed hg hg.leastFollow_followTable.closed).within_followTable
    (r.nonTerminal nt)
  rwa [Equiv.symm_apply_apply] at hwithin

theorem atEnd_followTable (hg : g.WellFormed) (nt : Nat) :
    ((g'.followTable g'.firstTable).get (r.nonTerminal nt)).atEnd =
      ((g.followTable g.firstTable).get nt).atEnd := by
  refine Bool.eq_iff_iff.2 ⟨(h.followTable_le hg nt).1, ?_⟩
  have hback := (h.symm.followTable_le (h.wellFormed hg) (r.nonTerminal nt)).1
  rwa [Renumbering.symm_nonTerminal_apply] at hback

/-- FOLLOW sets are those of the other numbers. -/
theorem contains_followTable (hg : g.WellFormed) (nt t : Nat) :
    ((g'.followTable g'.firstTable).get (r.nonTerminal nt)).terminals.contains (r.terminal t) =
      ((g.followTable g.firstTable).get nt).terminals.contains t := by
  refine Bool.eq_iff_iff.2 ⟨fun ht => ?_, fun ht => ?_⟩
  · have hold := (h.followTable_le hg nt).2 _ ht
    simp only [Equiv.symm_apply_apply] at hold
    exact hold
  · have hback := (h.symm.followTable_le (h.wellFormed hg) (r.nonTerminal nt)).2 t
    rw [Renumbering.symm_nonTerminal_apply] at hback
    exact hback ht

/-! ## What comes first -/

theorem leftCorners_map (hg : g.WellFormed) (ss : List Symbol) :
    leftCorners g'.firstTable (ss.map r.symbol) =
      (leftCorners g.firstTable ss).map r.nonTerminal := by
  induction ss with
  | nil => rfl
  | cons s ss ih =>
      cases s with
      | terminal i => rfl
      | nonTerminal i =>
          have hnullable : g'.firstTable.nullable (r.nonTerminal i) = g.firstTable.nullable i :=
            h.empty_firstTable hg i
          rw [List.map_cons, Renumbering.symbol, leftCorners, leftCorners, hnullable, ih]
          split <;> rfl

theorem leftCorner (hg : g.WellFormed) {v w : Nat}
    (hvw : Reach.Edge g.size (g.leftCornersOf g.firstTable) v w) :
    Reach.Edge g'.size (g'.leftCornersOf g'.firstTable) (r.nonTerminal v) (r.nonTerminal w) := by
  obtain ⟨hmem, hlt⟩ := hvw
  obtain ⟨p, hp, hw⟩ := List.mem_flatMap.1 hmem
  refine ⟨List.mem_flatMap.2 ⟨r.production p, h.mem_productionsOf hp, ?_⟩, ?_⟩
  · show _ ∈ leftCorners _ (p.symbols.map r.symbol)
    rw [h.leftCorners_map hg]
    exact List.mem_map_of_mem hw
  · rw [h.size_eq, h.lt_size_iff]
    exact hlt

/-- A grammar is left recursive as before. -/
theorem checkLeftRecursion_eq_ok (hg : g.WellFormed)
    (hrecursion : g'.checkLeftRecursion g'.firstTable = .ok ()) :
    g.checkLeftRecursion g.firstTable = .ok () := by
  refine (checkLeftRecursion_eq_ok_iff fun v w hw => hg.symbolsExist.lt_of_mem_leftCornersOf hw).2 ?_
  intro v hv hcycle
  have hv' : r.nonTerminal v < g'.size := by
    rw [h.size_eq, h.lt_size_iff]
    exact hv
  refine not_path_self_of_checkLeftRecursion hrecursion hv' ?_
  exact TransGen.lift r.nonTerminal (fun a b hab => h.leftCorner hg hab) _ _ hcycle

end Renumbers

end Grammar

end SmallLang
