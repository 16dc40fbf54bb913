import SmallLang.Lookahead.ParseTable
import SmallLang.Proofs.Lookahead.Follow
import SmallLang.Proofs.Parsing.Guided

/-!
# What a parse table leads to

A table leads to the production of the highest priority among those that admit the lookahead. So a
derivation tree is the one that the table leads to if at each of its nodes no other production that
admits the lookahead has a higher priority (`Grammar.Preferred.guided`): FIRST and FOLLOW sets cover
what derivation trees begin with and what comes after them.

A table decides nothing by priority if each of its cells has one candidate at most. Such a table gives
for each lookahead the only production that admits it (`Grammar.Undecided`), so every derivation tree
of the start symbol is the one that the table leads to (`Grammar.guided_of_derives`), and the parser
returns exactly the derivation trees (`Grammar.parse_eq_ok_iff`).
-/

set_option autoImplicit false

namespace SmallLang

open List (Forall₂)
open ParseTree (Guided GuidedAll)
open Parser.Setup (lookahead)

/-! ## Cells -/

namespace Cell

/-- A cell that is neither tied nor decided by priority has one candidate at most. -/
theorem length_le_one {cs : List (Nat × Int32)} (h : ∀ ps, ofCandidates cs ≠ .tied ps)
    (h' : ∀ c ps, ofCandidates cs ≠ .resolved c ps) : cs.length ≤ 1 := by
  match cs with
  | [] => exact Nat.zero_le 1
  | [c] => exact Nat.le_refl 1
  | c :: d :: cs =>
      exfalso
      unfold ofCandidates at h h'
      simp only at h h'
      split at h
      · rename_i winner hwinner
        rw [hwinner] at h'
        exact h' _ _ rfl
      · exact h _ rfl

/-- A priority that no other one exceeds is the highest. -/
theorem highest_eq {ps : List Int32} {p : Int32} (hp : p ∈ ps) (hmax : ∀ q ∈ ps, q ≤ p) :
    highest ps = p := by
  suffices hfold : ∀ a ≤ p, p ∈ a :: ps → ps.foldl (fun a b => if a < b then b else a) a = p from
    hfold _ (Int32.minValue_le p) (List.mem_cons_of_mem _ hp)
  clear hp
  induction ps with
  | nil =>
      intro a _ hmem
      exact (List.mem_singleton.1 hmem).symm
  | cons q qs ih =>
      intro a ha hmem
      have hq := hmax q List.mem_cons_self
      have ih := ih fun r hr => hmax r (List.mem_cons_of_mem _ hr)
      rw [List.foldl_cons]
      split
      · rename_i hlt
        refine ih q hq ?_
        rcases List.mem_cons.1 hmem with rfl | hmem
        · exact absurd hq (Int32.not_le.2 hlt)
        · exact hmem
      · rename_i hle
        refine ih a ha ?_
        rcases List.mem_cons.1 hmem with rfl | hmem
        · exact List.mem_cons_self
        rcases List.mem_cons.1 hmem with rfl | hmem
        · rw [Int32.le_antisymm ha (Int32.not_lt.1 hle)]
          exact List.mem_cons_self
        · exact List.mem_cons_of_mem _ hmem

/-- A cell that is not tied gives the candidate that no other one exceeds. -/
theorem production?_ofCandidates {cs : List (Nat × Int32)} {c : Nat × Int32} (hc : c ∈ cs)
    (hmax : ∀ d ∈ cs, d.2 ≤ c.2) (htie : ∀ ps, ofCandidates cs ≠ .tied ps) :
    (ofCandidates cs).production? = some c.1 := by
  match cs with
  | [] => exact absurd hc List.not_mem_nil
  | [d] =>
      rw [List.mem_singleton.1 hc]
      rfl
  | d :: d' :: cs =>
      have htop : highest ((d :: d' :: cs).map Prod.snd) = c.2 := by
        refine highest_eq (List.mem_map_of_mem hc) fun q hq => ?_
        obtain ⟨e, he, rfl⟩ := List.mem_map.1 hq
        exact hmax e he
      have hwins : c ∈ (d :: d' :: cs).filter (·.2 == c.2) :=
        List.mem_filter.2 ⟨hc, beq_self_eq_true _⟩
      unfold ofCandidates at htie ⊢
      simp only [htop] at htie ⊢
      split
      · rename_i winner hwinner
        rw [hwinner, List.mem_singleton] at hwins
        rw [hwins]
        rfl
      · rename_i hmany
        split at htie
        · exact absurd ‹_› (hmany _)
        · exact absurd rfl (htie _)

end Cell

namespace Lookahead

theorem getElem?_all {n : Nat} {la : Lookahead} (h : la.column ≤ n) :
    (all n)[la.column]? = some la := by
  cases la with
  | endOfInput => rfl
  | terminal i =>
      have hi : i < n := h
      simp [all, column, hi]

/-- The lookahead at the beginning of some tokens is admitted where their first terminal can begin the
production, or the production can be empty and the tokens can follow. -/
theorem admits_of_starts {n : Nat} {first : FirstSet n} {follow : FollowSet n}
    {ts rest : List Token} (h : first.Starts ts) (hrest : follow.Covers rest) :
    (lookahead (ts ++ rest)).admits first follow = true ∧ (lookahead (ts ++ rest)).column ≤ n := by
  cases ts with
  | nil =>
      have hempty : first.empty = true := h
      cases rest with
      | nil =>
          have hend : follow.atEnd = true := hrest
          refine ⟨?_, Nat.zero_le n⟩
          show (first.empty && follow.atEnd) = true
          rw [hempty, hend, Bool.and_self]
      | cons t rest =>
          refine ⟨?_, hrest.1⟩
          show (first.terminals.contains t.terminal ||
            first.empty && follow.terminals.contains t.terminal) = true
          rw [hempty, hrest.2, Bool.and_self, Bool.or_true]
  | cons t ts =>
      refine ⟨?_, h.1⟩
      show (first.terminals.contains t.terminal ||
        first.empty && follow.terminals.contains t.terminal) = true
      rw [h.2, Bool.true_or]

/-- A lookahead is admitted as a first terminal of the production, or as what follows if the production
can be empty. -/
theorem cases_of_admits {n : Nat} {first : FirstSet n} {follow : FollowSet n} {la : Lookahead}
    (h : la.admits first follow = true) {empty atEnd : Prop} {starts next : Nat → Prop}
    (hfirst : Grammar.Within first empty starts) (hfollow : Grammar.FollowWithin follow atEnd next) :
    (∃ t, la = .terminal t ∧ (starts t ∨ empty ∧ next t)) ∨ empty := by
  cases la with
  | endOfInput =>
      have hboth : (first.empty && follow.atEnd) = true := h
      rw [Bool.and_eq_true] at hboth
      exact Or.inr (hfirst.1 hboth.1)
  | terminal t =>
      have heither : (first.terminals.contains t ||
          first.empty && follow.terminals.contains t) = true := h
      rw [Bool.or_eq_true, Bool.and_eq_true] at heither
      refine Or.inl ⟨t, rfl, ?_⟩
      rcases heither with ht | ⟨hempty, ht⟩
      · exact Or.inl (hfirst.2 t ht)
      · exact Or.inr ⟨hfirst.1 hempty, hfollow.2 t ht⟩

/-- What begins with a terminal admits this one only. -/
theorem eq_of_admits_terminal {n : Nat} {first : FirstTable n} {follow : FollowSet n} {i : Nat}
    {ss : List Symbol} {la : Lookahead}
    (h : la.admits (first.ofSymbols (.terminal i :: ss)) follow = true) : la = .terminal i := by
  have hset : first.ofSymbols (.terminal i :: ss) = .single i := rfl
  rw [hset] at h
  cases la with
  | endOfInput => exact absurd h Bool.false_ne_true
  | terminal t =>
      simp only [admits, FirstSet.single, Bool.false_and, Bool.or_false,
        IndexSet.contains_insert_empty, Bool.and_eq_true, decide_eq_true_eq] at h
      rw [h.2]

end Lookahead

namespace Grammar

variable {g : Grammar} {first : FirstTable g.arena.size} {follow : FollowTable g.arena.size}

/-! ## Candidates -/

/-- A production that admits the lookahead is a candidate. -/
theorem mem_candidates_iff {nt p : Nat} {la : Lookahead} {priority : Int32} :
    (p, priority) ∈ g.candidates first follow nt la ↔
      ∃ production, g.production? nt p = some production ∧
        la.admits (first.ofSymbols production.symbols) (follow.get nt) = true ∧
          production.prec.priority = priority := by
  unfold candidates production?
  simp only [List.mem_filterMap, Prod.exists, List.mem_zipIdx_iff_getElem?]
  constructor
  · rintro ⟨production, i, hp, h⟩
    split at h
    · rename_i hadmits
      simp only [Option.some.injEq, Prod.mk.injEq] at h
      obtain ⟨rfl, rfl⟩ := h
      exact ⟨production, hp, hadmits, rfl⟩
    · simp at h
  · rintro ⟨production, hp, hadmits, rfl⟩
    exact ⟨production, p, hp, by rw [if_pos hadmits]⟩

/-- Every cell has one candidate at most, and the table holds it. -/
structure Undecided (g : Grammar) (first : FirstTable g.arena.size)
    (follow : FollowTable g.arena.size) (table : ParseTable) : Prop where
  unique : ∀ nt < g.size, ∀ la : Lookahead, la.column ≤ g.arena.size →
    (g.candidates first follow nt la).length ≤ 1
  table : table = g.allCells first follow

theorem getElem?_allCells {nt : Nat} (hnt : nt < g.size) :
    (g.allCells first follow).rows[nt]? =
      some ((Lookahead.all g.arena.size).map fun la =>
        Cell.ofCandidates (g.candidates first follow nt la)) := by
  simp [allCells, hnt]

theorem get?_allCells {nt : Nat} (hnt : nt < g.size) {la : Lookahead}
    (hla : la.column ≤ g.arena.size) :
    (g.allCells first follow).get? nt la =
      (Cell.ofCandidates (g.candidates first follow nt la)).production? := by
  unfold ParseTable.get?
  rw [getElem?_allCells hnt, Option.bind_some, List.getElem?_map, Lookahead.getElem?_all hla]
  rfl

/-- There is no cell for a non-terminal or a lookahead that does not exist. -/
theorem get?_allCells_of_not {nt : Nat} {la : Lookahead}
    (h : ¬ (nt < g.size ∧ la.column ≤ g.arena.size)) :
    (g.allCells first follow).get? nt la = none := by
  unfold ParseTable.get?
  by_cases hnt : nt < g.size
  · have hla : ¬ la.column ≤ g.arena.size := fun hla => h ⟨hnt, hla⟩
    rw [getElem?_allCells hnt, Option.bind_some, List.getElem?_eq_none]
    · rfl
    · simp only [List.length_map, Lookahead.all, List.length_cons, List.length_range]
      omega
  · rw [List.getElem?_eq_none (by simpa [allCells] using hnt)]
    rfl

theorem mem_cells (first : FirstTable g.arena.size) (follow : FollowTable g.arena.size) {nt : Nat}
    (hnt : nt < g.size) {la : Lookahead} (hla : la.column ≤ g.arena.size) :
    (nt, la, Cell.ofCandidates (g.candidates first follow nt la)) ∈
      (g.allCells first follow).cells := by
  have hcell : ((Lookahead.all g.arena.size).map fun la =>
      Cell.ofCandidates (g.candidates first follow nt la))[la.column]? =
      some (Cell.ofCandidates (g.candidates first follow nt la)) := by
    rw [List.getElem?_map, Lookahead.getElem?_all hla]
    rfl
  unfold ParseTable.cells
  refine List.mem_flatMap.2 ⟨(_, nt), List.mem_zipIdx_iff_getElem?.2 (getElem?_allCells hnt), ?_⟩
  refine List.mem_map.2 ⟨(Cell.ofCandidates (g.candidates first follow nt la), la.column),
    List.mem_zipIdx_iff_getElem?.2 hcell, ?_⟩
  cases la <;> simp [Lookahead.column]

theorem parseTable_eq_ok {table : ParseTable} (h : g.parseTable first follow = .ok table) :
    table = g.allCells first follow ∧ table.firstTie? = none := by
  unfold parseTable at h
  simp only at h
  split at h
  · rename_i htie
    simp only [Except.ok.injEq] at h
    subst h
    exact ⟨rfl, htie⟩
  · simp at h

/-- There are no cells but those of the candidates. -/
theorem exists_of_mem_cells {nt : Nat} {la : Lookahead} {c : Cell}
    (h : (nt, la, c) ∈ (g.allCells first follow).cells) :
    nt < g.size ∧ ∃ la' : Lookahead, la'.column ≤ g.arena.size ∧
      c = Cell.ofCandidates (g.candidates first follow nt la') := by
  unfold ParseTable.cells at h
  obtain ⟨⟨row, i⟩, hrow, hmem⟩ := List.mem_flatMap.1 h
  obtain ⟨⟨c', column⟩, hc', heq⟩ := List.mem_map.1 hmem
  simp only [Prod.mk.injEq] at heq
  obtain ⟨rfl, -, rfl⟩ := heq
  rw [List.mem_zipIdx_iff_getElem?] at hrow hc'
  unfold allCells at hrow
  simp only [List.getElem?_map, Option.map_eq_some_iff] at hrow
  obtain ⟨nt, hnt, rfl⟩ := hrow
  obtain ⟨hlt, rfl⟩ := List.getElem?_eq_some_iff.1 hnt
  rw [List.length_range] at hlt
  rw [List.getElem_range] at hc'
  simp only [List.getElem?_map, Option.map_eq_some_iff] at hc'
  obtain ⟨la', hla', rfl⟩ := hc'
  refine ⟨hlt, la', ?_, rfl⟩
  rcases List.mem_cons.1 (List.mem_of_getElem? hla') with rfl | hmem
  · exact Nat.zero_le _
  · obtain ⟨i, hi, rfl⟩ := List.mem_map.1 hmem
    exact List.mem_range.1 hi

/-- There is a table where no cell is tied. -/
theorem parseTable_eq_ok_iff {table : ParseTable} :
    g.parseTable first follow = .ok table ↔ table = g.allCells first follow ∧
      ∀ nt < g.size, ∀ la : Lookahead, la.column ≤ g.arena.size →
        ∀ ps, Cell.ofCandidates (g.candidates first follow nt la) ≠ .tied ps := by
  constructor
  · intro h
    obtain ⟨rfl, htie⟩ := parseTable_eq_ok h
    refine ⟨rfl, fun nt hnt la hla ps hcell => ?_⟩
    have hmem := mem_cells first follow hnt hla
    rw [hcell] at hmem
    have := List.findSome?_eq_none_iff.1 htie _ hmem
    simp at this
  · rintro ⟨rfl, hties⟩
    have htie : (g.allCells first follow).firstTie? = none := by
      refine List.findSome?_eq_none_iff.2 ?_
      rintro ⟨nt, la, c⟩ hmem
      obtain ⟨hnt, la', hla, heq⟩ := exists_of_mem_cells hmem
      cases c with
      | tied ps => exact absurd heq.symm (hties nt hnt la' hla ps)
      | _ => rfl
    unfold parseTable
    simp only [htie]

/-- Without decisions by priority every cell has one candidate at most. -/
theorem undecided_of_resolutions {table : ParseTable} (h : g.parseTable first follow = .ok table)
    (hres : table.resolutions = []) : g.Undecided first follow table := by
  obtain ⟨rfl, hties⟩ := parseTable_eq_ok_iff.1 h
  refine ⟨fun nt hnt la hla => Cell.length_le_one (hties nt hnt la hla) fun c ps hcell => ?_, rfl⟩
  have hmem := mem_cells first follow hnt hla
  rw [hcell] at hmem
  have : (⟨nt, la, c, ps⟩ : Resolution) ∈ (g.allCells first follow).resolutions :=
    List.mem_filterMap.2 ⟨_, hmem, rfl⟩
  rw [hres] at this
  simp at this

/-- Where every cell has one candidate at most there is a table, and it decides nothing. -/
theorem parseTable_eq_ok_of_unique
    (h : ∀ nt < g.size, ∀ la : Lookahead, la.column ≤ g.arena.size →
      (g.candidates first follow nt la).length ≤ 1) :
    g.parseTable first follow = .ok (g.allCells first follow) ∧
      (g.allCells first follow).resolutions = [] := by
  have hcell : ∀ nt < g.size, ∀ la : Lookahead, la.column ≤ g.arena.size →
      Cell.ofCandidates (g.candidates first follow nt la) = .empty ∨
        ∃ p, Cell.ofCandidates (g.candidates first follow nt la) = .only p := by
    intro nt hnt la hla
    have hlen := h nt hnt la hla
    match hcs : g.candidates first follow nt la with
    | [] => exact Or.inl rfl
    | [c] => exact Or.inr ⟨c.1, rfl⟩
    | c :: d :: cs =>
        rw [hcs] at hlen
        simp at hlen
  refine ⟨parseTable_eq_ok_iff.2 ⟨rfl, fun nt hnt la hla ps htied => ?_⟩, ?_⟩
  · rcases hcell nt hnt la hla with hempty | ⟨p, honly⟩
    · simp [hempty] at htied
    · simp [honly] at htied
  · refine List.filterMap_eq_nil_iff.2 ?_
    rintro ⟨nt, la, c⟩ hmem
    obtain ⟨hnt, la', hla, rfl⟩ := exists_of_mem_cells hmem
    rcases hcell nt hnt la' hla with hempty | ⟨p, honly⟩
    · rw [hempty]
    · rw [honly]

/-- Two productions that admit the same lookahead are the same one. -/
theorem Undecided.eq_of_admits {table : ParseTable} (h : g.Undecided first follow table)
    {nt p q : Nat} {production production' : Production}
    (hp : g.production? nt p = some production) (hq : g.production? nt q = some production')
    {la : Lookahead} (hla : la.column ≤ g.arena.size)
    (hadmits : la.admits (first.ofSymbols production.symbols) (follow.get nt) = true)
    (hadmits' : la.admits (first.ofSymbols production'.symbols) (follow.get nt) = true) :
    p = q := by
  have hlen := h.unique nt (lt_size_of_production? hp) la hla
  have hmem := mem_candidates_iff.2 ⟨production, hp, hadmits, rfl⟩
  have hmem' := mem_candidates_iff.2 ⟨production', hq, hadmits', rfl⟩
  match hcs : g.candidates first follow nt la with
  | [] => simp [hcs] at hmem
  | [c] =>
      rw [hcs, List.mem_singleton] at hmem hmem'
      exact (Prod.mk.inj (hmem.trans hmem'.symm)).1
  | c :: d :: cs => simp [hcs] at hlen

/-- The productions of a table exist. -/
theorem fits_allCells (g : Grammar) (first : FirstTable g.arena.size)
    (follow : FollowTable g.arena.size) : (g.allCells first follow).Fits g := by
  intro nt la p h
  by_cases hin : nt < g.size ∧ la.column ≤ g.arena.size
  · rw [get?_allCells hin.1 hin.2] at h
    have hmem : ∃ priority, (p, priority) ∈ g.candidates first follow nt la := by
      generalize g.candidates first follow nt la = cs at h
      unfold Cell.ofCandidates at h
      split at h
      · simp [Cell.production?] at h
      · rename_i c
        simp only [Cell.production?, Option.some.injEq] at h
        exact ⟨c.2, by simp [← h]⟩
      · simp only at h
        split at h
        · rename_i winner hwinner
          simp only [Cell.production?, Option.some.injEq] at h
          have hwin : winner ∈ [winner] := List.mem_singleton.2 rfl
          rw [← hwinner] at hwin
          exact ⟨winner.2, by rw [← h]; exact (List.mem_filter.1 hwin).1⟩
        · simp [Cell.production?] at h
    obtain ⟨priority, hmem⟩ := hmem
    obtain ⟨production, hp, -⟩ := mem_candidates_iff.1 hmem
    exact ⟨production, hp⟩
  · rw [get?_allCells_of_not hin] at h
    simp at h

/-! ## Derivation trees -/

/-- The tokens can come after the symbol: a non-terminal can be reached, and its FOLLOW set covers
them. -/
def CanPrecede (g : Grammar) (s : Symbol) (rest : List Token) : Prop :=
  ∀ nt, s = .nonTerminal nt →
    nt ∈ g.reachable ∧ ((g.followTable g.firstTable).get nt).Covers rest

/-- What comes after a symbol of a production is known from the trees of the symbols after it. -/
theorem canPrecede_of_mem_symbols (hg : g.WellFormed) {nt p : Nat} {production : Production}
    (hp : g.production? nt p = some production) {rest : List Token}
    (hrest : g.CanPrecede (.nonTerminal nt) rest) {before after : List Symbol} {s : Symbol}
    (hsymbols : production.symbols = before ++ s :: after) {ts : List ParseTree}
    (hts : g.DerivesRow after ts) : g.CanPrecede s (ts.flatMap ParseTree.tokens ++ rest) := by
  rintro i rfl
  obtain ⟨hreach, hfollow⟩ := hrest nt rfl
  have hmem := List.mem_of_getElem? hp
  have hi : g.HasSymbol (.nonTerminal i) := hg.hasSymbol hp (by simp [hsymbols])
  have hstarts := starts_of_derivesRow hg hts fun s hs => hg.hasSymbol hp (by simp [hsymbols, hs])
  exact ⟨mem_reachable_of_symbol hreach hmem (by simp [hsymbols]) hi,
    covers_of_mem_symbols hreach hmem hsymbols hi hstarts hfollow⟩

/-- Of the productions that admit the lookahead, none has a higher priority than this one. -/
def Best (g : Grammar) (nt p : Nat) (la : Lookahead) : Prop :=
  ∀ production, g.production? nt p = some production → ∀ q production',
    g.production? nt q = some production' → la.column ≤ g.arena.size →
      la.admits (g.firstTable.ofSymbols production.symbols)
        ((g.followTable g.firstTable).get nt) = true →
      la.admits (g.firstTable.ofSymbols production'.symbols)
        ((g.followTable g.firstTable).get nt) = true →
      production'.prec.priority ≤ production.prec.priority

mutual

/-- At every node of the tree the production is one of the highest priority, where `rest` comes after
the tree. -/
def Preferred (g : Grammar) : ParseTree → List Token → Prop
  | .token _, _ => True
  | .node nt p children, rest =>
      g.Best nt p (lookahead (children.flatMap ParseTree.tokens ++ rest)) ∧
        PreferredAll g children rest

/-- The same for all trees of a row, where `rest` comes after the last one. -/
def PreferredAll (g : Grammar) : List ParseTree → List Token → Prop
  | [], _ => True
  | t :: ts, rest => Preferred g t (ts.flatMap ParseTree.tokens ++ rest) ∧ PreferredAll g ts rest

end

theorem preferred_node_iff {nt p : Nat} {children : List ParseTree} {rest : List Token} :
    g.Preferred (.node nt p children) rest ↔
      g.Best nt p (lookahead (children.flatMap ParseTree.tokens ++ rest)) ∧
        g.PreferredAll children rest := by
  rw [Preferred]

theorem preferredAll_cons_iff {t : ParseTree} {ts : List ParseTree} {rest : List Token} :
    g.PreferredAll (t :: ts) rest ↔
      g.Preferred t (ts.flatMap ParseTree.tokens ++ rest) ∧ g.PreferredAll ts rest := by
  rw [PreferredAll]

/-- The table gives the production of the highest priority among those that admit the lookahead. -/
theorem Best.get?_eq {table : ParseTable}
    (htable : g.parseTable g.firstTable (g.followTable g.firstTable) = .ok table) {nt p : Nat}
    {production : Production} (hp : g.production? nt p = some production) {la : Lookahead}
    (hbest : g.Best nt p la) (hla : la.column ≤ g.arena.size)
    (hadmits : la.admits (g.firstTable.ofSymbols production.symbols)
      ((g.followTable g.firstTable).get nt) = true) :
    table.get? nt la = some p := by
  obtain ⟨rfl, hties⟩ := parseTable_eq_ok_iff.1 htable
  have hnt := lt_size_of_production? hp
  rw [get?_allCells hnt hla]
  refine Cell.production?_ofCandidates (c := (p, production.prec.priority))
    (mem_candidates_iff.2 ⟨production, hp, hadmits, rfl⟩) ?_ (hties nt hnt la hla)
  rintro ⟨q, priority⟩ hq
  obtain ⟨production', hq', hadmits', rfl⟩ := mem_candidates_iff.1 hq
  exact hbest production hp q production' hq' hla hadmits hadmits'

/-- Where the tokens after a tree can come after its symbol and no production would be preferred to one
of the tree, the tree is the one that the table leads to. -/
theorem Preferred.guided {table : ParseTable} (hg : g.WellFormed)
    (htable : g.parseTable g.firstTable (g.followTable g.firstTable) = .ok table) {s : Symbol}
    {t : ParseTree} (ht : g.Derives s t) {rest : List Token} (hrest : g.CanPrecede s rest)
    (hpreferred : g.Preferred t rest) : Guided table t rest := by
  induction ht using Derives.rec_on generalizing rest with
  | token t => trivial
  | node nt p production children hp hc ih =>
      obtain ⟨hbest, hchildren⟩ := preferred_node_iff.1 hpreferred
      have hsymbols : ∀ s ∈ production.symbols, g.HasSymbol s := fun s hs => hg.hasSymbol hp hs
      obtain ⟨hadmits, hla⟩ :=
        Lookahead.admits_of_starts (starts_of_derivesRow hg hc hsymbols) (hrest nt rfl).2
      refine ParseTree.guided_node_iff.2 ⟨hbest.get?_eq htable hp hla hadmits, ?_⟩
      clear hbest hadmits hla hpreferred
      suffices hall : ∀ before symbols, production.symbols = before ++ symbols →
          ∀ cs, Forall₂ (fun s c => ∃ _ : g.Derives s c, ∀ {rest}, g.CanPrecede s rest →
            g.Preferred c rest → Guided table c rest) symbols cs →
          g.PreferredAll cs rest → GuidedAll table cs rest from
        hall [] _ rfl children ih hchildren
      intro before symbols hbefore cs hcs
      induction hcs generalizing before with
      | nil =>
          intro _
          trivial
      | @cons s c ss cs hone hcs ihs =>
          intro hpreferred
          obtain ⟨hc', hcs'⟩ := preferredAll_cons_iff.1 hpreferred
          have hrow : g.DerivesRow ss cs := hcs.imp fun _ _ h => h.choose
          refine ParseTree.guidedAll_cons_iff.2 ⟨?_, ?_⟩
          · exact hone.choose_spec (canPrecede_of_mem_symbols hg hp hrest hbefore hrow) hc'
          · exact ihs (before ++ [s]) (by simp [hbefore]) hcs'

theorem canPrecede_start (hg : g.WellFormed) : g.CanPrecede (.nonTerminal g.start) [] := by
  intro nt hnt
  rw [← Symbol.nonTerminal.inj hnt]
  exact ⟨start_mem_reachable hg.1, covers_start_nil hg.1⟩

/-- Where no production is ever preferred to another one, every tree will do. -/
theorem preferred_of_best (h : ∀ nt p la, g.Best nt p la) (t : ParseTree) (rest : List Token) :
    g.Preferred t rest := by
  induction t using ParseTree.induct generalizing rest with
  | token t => trivial
  | node nt p children ih =>
      refine preferred_node_iff.2 ⟨h _ _ _, ?_⟩
      clear p
      induction children with
      | nil => trivial
      | cons c cs ihs =>
          refine preferredAll_cons_iff.2 ⟨ih c List.mem_cons_self _, ?_⟩
          exact ihs fun c' hc' => ih c' (List.mem_cons_of_mem _ hc')

theorem Undecided.best {table : ParseTable}
    (h : g.Undecided g.firstTable (g.followTable g.firstTable) table) (nt p : Nat)
    (la : Lookahead) : g.Best nt p la := by
  intro production hp q production' hq hla hadmits hadmits'
  obtain rfl := h.eq_of_admits hp hq hla hadmits hadmits'
  obtain rfl := Option.some.inj (hp.symm.trans hq)
  exact Int32.le_refl _

theorem guided_of_derives {table : ParseTable} (hg : g.WellFormed)
    (h : g.Undecided g.firstTable (g.followTable g.firstTable) table) {t : ParseTree}
    (ht : g.Derives (.nonTerminal g.start) t) : Guided table t [] := by
  have htable := (parseTable_eq_ok_of_unique h.unique).1
  rw [← h.table] at htable
  exact (preferred_of_best h.best t []).guided hg htable ht (canPrecede_start hg)

/-- The parser returns exactly the derivation trees of the start symbol. -/
theorem parse_eq_ok_iff {table : ParseTable} (hg : g.WellFormed)
    (h : g.Undecided g.firstTable (g.followTable g.firstTable) table) {tokens : List Token}
    {t : ParseTree} :
    Parser.parse g table tokens = .ok t ↔ g.Derives (.nonTerminal g.start) t ∧ t.tokens = tokens := by
  constructor
  · intro hparse
    exact Parser.derives_of_parse (h.table ▸ fits_allCells g _ _) hparse
  · rintro ⟨ht, rfl⟩
    exact Parser.parse_eq_ok_of_guided ht (guided_of_derives hg h ht)

end Grammar

end SmallLang
