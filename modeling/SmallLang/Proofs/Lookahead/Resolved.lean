import Mathlib.Data.List.Permutation
import Mathlib.Data.List.Sort
import SmallLang.Proofs.Lookahead.FirstExact
import SmallLang.Proofs.Lookahead.ParseTable

/-!
# The parse table is the one that priorities decide

A production is a candidate for a non-terminal and a lookahead if it can begin with the lookahead, or
can be empty where the lookahead follows (`Grammar.IsCandidate`). One of the highest priority among
the candidates is a top candidate (`Grammar.IsTop`). The table is refused exactly if some cell has
several top candidates, and the error is about the first one of these cells. Otherwise each cell holds
its only top candidate, and the cells with several candidates are listed in their order with all that
were rejected (`Grammar.parseTable_exact`).

A cell is decided by its candidates alone (`Cell.Decides`), which are the productions in order that admit
the lookahead. They can as well be collected production by production, where a production may claim a
cell more than once and in any order (`Grammar.collected_eq_candidates`).
-/

set_option autoImplicit false

namespace SmallLang

/-! ## How a cell is decided -/

namespace Cell

/-- The candidates with the highest priority. -/
def tops (cs : List (Nat × Int32)) : List (Nat × Int32) :=
  cs.filter (·.2 == highest (cs.map Prod.snd))

/-- The other candidates. -/
def others (cs : List (Nat × Int32)) : List (Nat × Int32) :=
  cs.filter (·.2 != highest (cs.map Prod.snd))

variable {cs : List (Nat × Int32)} {c : Nat × Int32}

theorem exists_max (h : cs ≠ []) : ∃ c ∈ cs, ∀ d ∈ cs, d.2 ≤ c.2 := by
  induction cs with
  | nil => exact absurd rfl h
  | cons c cs ih =>
      by_cases hcs : cs = []
      · subst hcs
        refine ⟨c, List.mem_cons_self, fun d hd => ?_⟩
        rw [List.mem_singleton.1 hd]
        exact Int32.le_refl _
      · obtain ⟨m, hm, hmax⟩ := ih hcs
        rcases Int32.le_total m.2 c.2 with hle | hle
        · refine ⟨c, List.mem_cons_self, fun d hd => ?_⟩
          rcases List.mem_cons.1 hd with rfl | hd
          · exact Int32.le_refl _
          · exact Int32.le_trans (hmax d hd) hle
        · refine ⟨m, List.mem_cons_of_mem _ hm, fun d hd => ?_⟩
          rcases List.mem_cons.1 hd with rfl | hd
          · exact hle
          · exact hmax d hd

/-- The highest priority is that of a candidate which no other one exceeds. -/
theorem highest_map_eq (hc : c ∈ cs) (hmax : ∀ d ∈ cs, d.2 ≤ c.2) :
    highest (cs.map Prod.snd) = c.2 := by
  apply highest_eq (List.mem_map_of_mem hc)
  intro q hq
  obtain ⟨d, hd, rfl⟩ := List.mem_map.1 hq
  exact hmax d hd

theorem mem_tops_iff : c ∈ tops cs ↔ c ∈ cs ∧ ∀ d ∈ cs, d.2 ≤ c.2 := by
  unfold tops
  rw [List.mem_filter, beq_iff_eq]
  constructor
  · rintro ⟨hc, htop⟩
    obtain ⟨m, hm, hmax⟩ := exists_max (List.ne_nil_of_mem hc)
    rw [htop, highest_map_eq hm hmax]
    exact ⟨hc, hmax⟩
  · rintro ⟨hc, hmax⟩
    exact ⟨hc, (highest_map_eq hc hmax).symm⟩

theorem mem_others_iff : c ∈ others cs ↔ c ∈ cs ∧ c ∉ tops cs := by
  unfold others tops
  rw [List.mem_filter, List.mem_filter, bne_iff_ne, beq_iff_eq]
  tauto

theorem tops_ne_nil (h : cs ≠ []) : tops cs ≠ [] := by
  obtain ⟨m, hm, hmax⟩ := exists_max h
  exact List.ne_nil_of_mem (mem_tops_iff.2 ⟨hm, hmax⟩)

/-- The ways to decide a cell. -/
inductive Decides (cs : List (Nat × Int32)) : Cell → Prop
  | empty (hnone : cs = []) : Decides cs .empty
  | only (c : Nat × Int32) (hone : cs = [c]) : Decides cs (.only c.1)
  | resolved (c : Nat × Int32) (hmany : 2 ≤ cs.length) (htops : tops cs = [c]) :
      Decides cs (.resolved c.1 ((others cs).map Prod.fst))
  | tied (hmany : 2 ≤ (tops cs).length) : Decides cs (.tied ((tops cs).map Prod.fst))

theorem decides_ofCandidates (cs : List (Nat × Int32)) : Decides cs (ofCandidates cs) := by
  match cs with
  | [] => exact .empty rfl
  | [c] => exact .only c rfl
  | c :: d :: cs =>
      have hmany : 2 ≤ (c :: d :: cs).length := by
        rw [List.length_cons, List.length_cons]
        exact Nat.le_add_left 2 _
      have hne := tops_ne_nil (List.cons_ne_nil c (d :: cs))
      unfold ofCandidates
      simp only
      -- There is always a top candidate, so several candidates leave a winner or a tie.
      split
      · rename_i winner hwinner
        exact .resolved winner hmany hwinner
      · rename_i hother
        apply Decides.tied
        match htops : tops (c :: d :: cs) with
        | [] => exact absurd htops hne
        | [w] => exact absurd htops (hother w)
        | w :: w' :: ws =>
            rw [List.length_cons, List.length_cons]
            exact Nat.le_add_left 2 _

theorem length_tops_le (cs : List (Nat × Int32)) : (tops cs).length ≤ cs.length :=
  List.length_filter_le _ _

/-- A cell is tied exactly if there are several candidates with the highest priority. -/
theorem ofCandidates_eq_tied_iff {ps : List Nat} :
    ofCandidates cs = .tied ps ↔ 2 ≤ (tops cs).length ∧ ps = (tops cs).map Prod.fst := by
  have hdecides := decides_ofCandidates cs
  have hlength := length_tops_le cs
  generalize ofCandidates cs = cell at hdecides
  cases hdecides with
  | empty hnone => simp [hnone, tops]
  | only c hone =>
      have hone : cs.length = 1 := by rw [hone, List.length_singleton]
      refine ⟨fun h => absurd h (by simp), ?_⟩
      rintro ⟨hmany, -⟩
      omega
  | resolved c _ htops => simp [htops]
  | tied hmany => simp [hmany, eq_comm]

/-- A cell is decided by priority exactly if there are several candidates, and only one of them has the
highest priority. -/
theorem ofCandidates_eq_resolved_iff {p : Nat} {ps : List Nat} :
    ofCandidates cs = .resolved p ps ↔
      2 ≤ cs.length ∧ (tops cs).map Prod.fst = [p] ∧ ps = (others cs).map Prod.fst := by
  have hdecides := decides_ofCandidates cs
  generalize ofCandidates cs = cell at hdecides
  cases hdecides with
  | empty hnone => simp [hnone]
  | only c hone => simp [hone]
  | resolved c hmany htops => simp [hmany, htops, eq_comm]
  | tied hmany =>
      refine ⟨fun h => absurd h (by simp), ?_⟩
      rintro ⟨-, hone, -⟩
      have hlength := congrArg List.length hone
      rw [List.length_map, List.length_singleton] at hlength
      omega

/-- A cell that is not tied gives the candidate with the highest priority. -/
theorem production?_eq_some_iff {p : Nat} (h : (tops cs).length < 2) :
    (ofCandidates cs).production? = some p ↔ p ∈ (tops cs).map Prod.fst := by
  have hdecides := decides_ofCandidates cs
  generalize ofCandidates cs = cell at hdecides
  cases hdecides with
  | empty hnone => simp [hnone, tops, production?]
  | only c hone =>
      have hone' : ∀ d, d ∈ tops cs ↔ d = c := by
        intro d
        rw [mem_tops_iff, hone]
        simp only [List.mem_singleton, forall_eq, and_iff_left_iff_imp]
        rintro rfl
        exact Int32.le_refl _
      simp [hone', production?, eq_comm]
  | resolved c _ htops => simp [htops, production?, eq_comm]
  | tied hmany => exact absurd hmany (Nat.not_le.2 h)

end Cell

/-! ## The order of the cells -/

namespace Lookahead

theorem mem_all_iff {n : Nat} {la : Lookahead} : la ∈ all n ↔ la.column ≤ n := by
  cases la with
  | endOfInput => simp [all, column]
  | terminal i =>
      simp only [all, column, List.mem_cons, List.mem_map, List.mem_range, terminal.injEq,
        exists_eq_right, reduceCtorEq, false_or, Nat.succ_le_iff]

theorem column_of_getElem?_all {n i : Nat} {la : Lookahead} (h : (all n)[i]? = some la) :
    la.column = i := by
  cases i with
  | zero =>
      rw [← Option.some.inj h]
      rfl
  | succ i =>
      unfold all at h
      rw [List.getElem?_cons_succ, List.getElem?_map, Option.map_eq_some_iff] at h
      obtain ⟨j, hj, rfl⟩ := h
      obtain ⟨_, heq⟩ := List.getElem?_eq_some_iff.1 hj
      rw [List.getElem_range] at heq
      rw [heq]
      rfl

/-- The lookaheads are listed in the order of their columns. -/
theorem pairwise_all (n : Nat) : (all n).Pairwise fun la la' => la.column < la'.column := by
  unfold all
  rw [List.pairwise_cons, List.pairwise_map]
  refine ⟨fun la hla => ?_, ?_⟩
  · obtain ⟨i, -, rfl⟩ := List.mem_map.1 hla
    exact Nat.succ_pos i
  · apply List.pairwise_lt_range.imp
    intro i j hij
    exact Nat.succ_lt_succ hij

end Lookahead

/-- One cell comes before another one: its non-terminal does, or its lookahead of the same non-terminal
does, the end of the input before the terminals. -/
def CellBefore (nt : Nat) (la : Lookahead) (nt' : Nat) (la' : Lookahead) : Prop :=
  nt < nt' ∨ nt = nt' ∧ la.column < la'.column

/-! ## Candidates -/

/-- What comes next can begin a production with this FIRST set, or follow its non-terminal with this
FOLLOW set where the production is empty. -/
def Lookahead.Admitted {n : Nat} (a : FirstSet n) (b : FollowSet n) : Lookahead → Prop
  | .endOfInput => a.empty = true ∧ b.atEnd = true
  | .terminal t => t ∈ a.terminals.toList ∨ a.empty = true ∧ t ∈ b.terminals.toList

theorem Lookahead.admitted_iff {n : Nat} {a : FirstSet n} {b : FollowSet n} {la : Lookahead} :
    la.Admitted a b ↔ la.column ≤ n ∧ la.admits a b = true := by
  cases la with
  | endOfInput => simp [Admitted, column, admits]
  | terminal t =>
      simp only [Admitted, column, admits, IndexSet.mem_toList_iff, Bool.or_eq_true,
        Bool.and_eq_true, Nat.succ_le_iff]
      tauto

namespace Grammar

/-- The production is a candidate for the cell of the non-terminal and the lookahead. -/
def IsCandidate (g : Grammar) (first : FirstTable g.arena.size) (follow : FollowTable g.arena.size)
    (nt : Nat) (la : Lookahead) (p : Nat) : Prop :=
  ∃ production, g.production? nt p = some production ∧
    la.Admitted (first.ofSymbols production.symbols) (follow.get nt)

/-- The priority of a production of a non-terminal. -/
def priority (g : Grammar) (nt p : Nat) : Int32 :=
  ((g.production? nt p).map fun production => production.prec.priority).getD Int32.minValue

/-- The production is a candidate, and no other one has a higher priority. -/
def IsTop (g : Grammar) (first : FirstTable g.arena.size) (follow : FollowTable g.arena.size)
    (nt : Nat) (la : Lookahead) (p : Nat) : Prop :=
  g.IsCandidate first follow nt la p ∧
    ∀ q, g.IsCandidate first follow nt la q → g.priority nt q ≤ g.priority nt p

/-- Two candidates share the highest priority. -/
def IsTied (g : Grammar) (first : FirstTable g.arena.size) (follow : FollowTable g.arena.size)
    (nt : Nat) (la : Lookahead) : Prop :=
  ∃ p q, p ≠ q ∧ g.IsTop first follow nt la p ∧ g.IsTop first follow nt la q

/-- The first tied cell, with its top candidates in the order of the productions. -/
structure IsFirstTie (g : Grammar) (first : FirstTable g.arena.size)
    (follow : FollowTable g.arena.size) (nt : Nat) (la : Lookahead) (ps : List Nat) : Prop where
  tied : g.IsTied first follow nt la
  least : ∀ nt' la', g.IsTied first follow nt' la' →
    nt' = nt ∧ la' = la ∨ CellBefore nt la nt' la'
  sorted : ps.Pairwise (· < ·)
  tops : ∀ p, p ∈ ps ↔ g.IsTop first follow nt la p

/-- The cell has several candidates. A top candidate is chosen, and all others are rejected, in the
order of the productions. -/
structure IsResolution (g : Grammar) (first : FirstTable g.arena.size)
    (follow : FollowTable g.arena.size) (r : Resolution) : Prop where
  several : ∃ p q, p ≠ q ∧ g.IsCandidate first follow r.nonTerminal r.lookahead p ∧
    g.IsCandidate first follow r.nonTerminal r.lookahead q
  chosen : g.IsTop first follow r.nonTerminal r.lookahead r.chosen
  sorted : r.rejected.Pairwise (· < ·)
  rejected : ∀ p, p ∈ r.rejected ↔
    g.IsCandidate first follow r.nonTerminal r.lookahead p ∧ p ≠ r.chosen

/-- Each cell of the table holds its only top candidate, if it has candidates, and the cells with several
candidates are listed in order, each once. -/
structure IsResolved (g : Grammar) (first : FirstTable g.arena.size)
    (follow : FollowTable g.arena.size) (table : ParseTable) : Prop where
  top : ∀ nt la p, table.get? nt la = some p ↔ g.IsTop first follow nt la p
  empty : ∀ nt la, table.get? nt la = none ↔ ∀ p, ¬ g.IsCandidate first follow nt la p
  ordered : table.resolutions.Pairwise fun r r' =>
    CellBefore r.nonTerminal r.lookahead r'.nonTerminal r'.lookahead
  resolutions : ∀ r, r ∈ table.resolutions ↔ g.IsResolution first follow r

variable {g : Grammar} {first : FirstTable g.arena.size} {follow : FollowTable g.arena.size}
variable {nt p : Nat} {la : Lookahead}

/-- There are no candidates where there is no cell. -/
theorem IsCandidate.exists_cell (h : g.IsCandidate first follow nt la p) :
    nt < g.size ∧ la.column ≤ g.arena.size := by
  obtain ⟨production, hp, hadmitted⟩ := h
  exact ⟨lt_size_of_production? hp, (Lookahead.admitted_iff.1 hadmitted).1⟩

theorem mem_candidates_iff_isCandidate (hla : la.column ≤ g.arena.size) {priority : Int32} :
    (p, priority) ∈ g.candidates first follow nt la ↔
      g.IsCandidate first follow nt la p ∧ priority = g.priority nt p := by
  rw [mem_candidates_iff]
  constructor
  · rintro ⟨production, hp, hadmits, rfl⟩
    refine ⟨⟨production, hp, Lookahead.admitted_iff.2 ⟨hla, hadmits⟩⟩, ?_⟩
    rw [Grammar.priority, hp]
    rfl
  · rintro ⟨⟨production, hp, hadmitted⟩, rfl⟩
    refine ⟨production, hp, (Lookahead.admitted_iff.1 hadmitted).2, ?_⟩
    rw [Grammar.priority, hp]
    rfl

theorem pairwise_zipIdx {α : Type} (xs : List α) : xs.zipIdx.Pairwise fun x y => x.2 < y.2 := by
  rw [← List.pairwise_map (f := Prod.snd) (R := (· < ·)), List.zipIdx_map_snd]
  exact List.pairwise_lt_range' 1

/-- The candidates are in the order of the productions. -/
theorem pairwise_candidates (first : FirstTable g.arena.size) (follow : FollowTable g.arena.size)
    (nt : Nat) (la : Lookahead) :
    (g.candidates first follow nt la).Pairwise fun c d => c.1 < d.1 := by
  refine List.Pairwise.filterMap _ ?_ (pairwise_zipIdx (g.productionsOf nt))
  rintro ⟨x, i⟩ ⟨y, j⟩ hij c hc d hd
  simp only [Option.ite_none_right_eq_some, Option.some.injEq] at hc hd
  rw [← hc.2, ← hd.2]
  exact hij

section Cells

variable (hla : la.column ≤ g.arena.size)

include hla

theorem mem_map_candidates_iff :
    p ∈ (g.candidates first follow nt la).map Prod.fst ↔ g.IsCandidate first follow nt la p := by
  simp [mem_candidates_iff_isCandidate hla]

theorem mem_tops_candidates_iff :
    p ∈ (Cell.tops (g.candidates first follow nt la)).map Prod.fst ↔
      g.IsTop first follow nt la p := by
  simp only [List.mem_map, Prod.exists, exists_and_right, exists_eq_right, Cell.mem_tops_iff,
    Prod.forall, mem_candidates_iff_isCandidate hla]
  constructor
  · rintro ⟨priority, ⟨hp, rfl⟩, hmax⟩
    exact ⟨hp, fun q hq => hmax q _ ⟨hq, rfl⟩⟩
  · rintro ⟨hp, hmax⟩
    refine ⟨_, ⟨hp, rfl⟩, ?_⟩
    rintro q priority ⟨hq, rfl⟩
    exact hmax q hq

theorem mem_others_candidates_iff :
    p ∈ (Cell.others (g.candidates first follow nt la)).map Prod.fst ↔
      g.IsCandidate first follow nt la p ∧ ¬ g.IsTop first follow nt la p := by
  rw [← mem_tops_candidates_iff hla]
  simp only [List.mem_map, Prod.exists, exists_and_right, exists_eq_right, Cell.mem_others_iff,
    mem_candidates_iff_isCandidate hla]
  constructor
  · rintro ⟨priority, ⟨hp, rfl⟩, hother⟩
    refine ⟨hp, ?_⟩
    rintro ⟨priority, htop⟩
    obtain ⟨-, rfl⟩ := (mem_candidates_iff_isCandidate hla).1 (Cell.mem_tops_iff.1 htop).1
    exact hother htop
  · rintro ⟨hp, hother⟩
    exact ⟨_, ⟨hp, rfl⟩, fun htop => hother ⟨_, htop⟩⟩

end Cells

theorem pairwise_tops (first : FirstTable g.arena.size) (follow : FollowTable g.arena.size)
    (nt : Nat) (la : Lookahead) :
    ((Cell.tops (g.candidates first follow nt la)).map Prod.fst).Pairwise (· < ·) :=
  List.pairwise_map.2 ((pairwise_candidates first follow nt la).filter _)

theorem pairwise_others (first : FirstTable g.arena.size) (follow : FollowTable g.arena.size)
    (nt : Nat) (la : Lookahead) :
    ((Cell.others (g.candidates first follow nt la)).map Prod.fst).Pairwise (· < ·) :=
  List.pairwise_map.2 ((pairwise_candidates first follow nt la).filter _)

/-- An increasing list has two members or more if it has different ones. -/
theorem two_le_length_iff {xs : List Nat} (h : xs.Pairwise (· < ·)) :
    2 ≤ xs.length ↔ ∃ x y, x ≠ y ∧ x ∈ xs ∧ y ∈ xs := by
  constructor
  · intro hlength
    match xs with
    | x :: y :: xs =>
        have hlt := (List.pairwise_cons.1 h).1 y List.mem_cons_self
        exact ⟨x, y, Nat.ne_of_lt hlt, by simp, by simp⟩
  · rintro ⟨x, y, hne, hx, hy⟩
    match xs with
    | [z] => exact absurd ((List.mem_singleton.1 hx).trans (List.mem_singleton.1 hy).symm) hne
    | _ :: _ :: _ =>
        rw [List.length_cons, List.length_cons]
        exact Nat.le_add_left 2 _

theorem isTied_iff (hla : la.column ≤ g.arena.size) :
    g.IsTied first follow nt la ↔ 2 ≤ (Cell.tops (g.candidates first follow nt la)).length := by
  have h := two_le_length_iff (pairwise_tops first follow nt la)
  rw [List.length_map] at h
  rw [h]
  simp only [mem_tops_candidates_iff hla]
  rfl

/-! ## What a cell holds -/

section Cells

variable (hla : la.column ≤ g.arena.size)

include hla

/-- A cell is tied between its top candidates. -/
theorem ofCandidates_eq_tied_iff {ps : List Nat} :
    Cell.ofCandidates (g.candidates first follow nt la) = .tied ps ↔
      g.IsTied first follow nt la ∧ ps.Pairwise (· < ·) ∧
        ∀ p, p ∈ ps ↔ g.IsTop first follow nt la p := by
  have hsorted := pairwise_tops first follow nt la
  rw [Cell.ofCandidates_eq_tied_iff, isTied_iff hla]
  constructor
  · rintro ⟨hmany, rfl⟩
    exact ⟨hmany, hsorted, fun p => mem_tops_candidates_iff hla⟩
  · rintro ⟨hmany, hps, hmem⟩
    refine ⟨hmany, hps.eq_of_mem_iff hsorted fun p => ?_⟩
    rw [hmem, mem_tops_candidates_iff hla]

/-- A cell that is not tied holds its only top candidate. -/
theorem production?_eq_some_iff (htied : ¬ g.IsTied first follow nt la) :
    (Cell.ofCandidates (g.candidates first follow nt la)).production? = some p ↔
      g.IsTop first follow nt la p := by
  rw [isTied_iff hla, Nat.not_le] at htied
  rw [Cell.production?_eq_some_iff htied, mem_tops_candidates_iff hla]

/-- A cell that is not tied is decided by priority if it has several candidates. All but the chosen one
are rejected. -/
theorem ofCandidates_eq_resolved_iff (htied : ¬ g.IsTied first follow nt la) {ps : List Nat} :
    Cell.ofCandidates (g.candidates first follow nt la) = .resolved p ps ↔
      (∃ q r, q ≠ r ∧ g.IsCandidate first follow nt la q ∧ g.IsCandidate first follow nt la r) ∧
        g.IsTop first follow nt la p ∧ ps.Pairwise (· < ·) ∧
          ∀ q, q ∈ ps ↔ g.IsCandidate first follow nt la q ∧ q ≠ p := by
  have hmany := two_le_length_iff
    (List.pairwise_map.2 (pairwise_candidates first follow nt la) :
      ((g.candidates first follow nt la).map Prod.fst).Pairwise (· < ·))
  rw [List.length_map] at hmany
  simp only [mem_map_candidates_iff hla] at hmany
  -- There is one top candidate at most.
  have htop : ∀ {q}, g.IsTop first follow nt la p → (g.IsTop first follow nt la q ↔ q = p) := by
    intro q hp
    refine ⟨fun hq => ?_, fun heq => heq ▸ hp⟩
    by_contra hne
    exact htied ⟨q, p, hne, hq, hp⟩
  rw [Cell.ofCandidates_eq_resolved_iff, hmany]
  refine and_congr_right fun _ => ?_
  constructor
  · rintro ⟨hone, rfl⟩
    have hp : g.IsTop first follow nt la p := by
      rw [← mem_tops_candidates_iff hla, hone]
      exact List.mem_singleton_self p
    refine ⟨hp, pairwise_others first follow nt la, fun q => ?_⟩
    rw [mem_others_candidates_iff hla, htop hp]
  · rintro ⟨hp, hsorted, hmem⟩
    constructor
    · apply (pairwise_tops first follow nt la).eq_of_mem_iff (List.pairwise_singleton _ p)
      intro q
      rw [mem_tops_candidates_iff hla, htop hp, List.mem_singleton]
    · apply hsorted.eq_of_mem_iff (pairwise_others first follow nt la)
      intro q
      rw [hmem, mem_others_candidates_iff hla, htop hp]

end Cells

/-! ## All cells -/

/-- All cells in their order. -/
theorem cells_allCells (g : Grammar) (first : FirstTable g.arena.size)
    (follow : FollowTable g.arena.size) :
    (g.allCells first follow).cells = (List.range g.size).flatMap fun nt =>
      (Lookahead.all g.arena.size).map fun la =>
        (nt, la, Cell.ofCandidates (g.candidates first follow nt la)) := by
  have hrow : ∀ (nt : Nat) (f : Lookahead → Cell),
      (((Lookahead.all g.arena.size).map f).zipIdx.map fun x =>
        (nt, if x.2 = 0 then Lookahead.endOfInput else .terminal (x.2 - 1), x.1)) =
      (Lookahead.all g.arena.size).map fun la => (nt, la, f la) := by
    intro nt f
    rw [List.zipIdx_map, List.map_map]
    conv_rhs => rw [← List.zipIdx_map_fst 0 (Lookahead.all g.arena.size), List.map_map]
    apply List.map_congr_left
    rintro ⟨la, column⟩ hmem
    have hcolumn : la.column = column :=
      Lookahead.column_of_getElem?_all (List.mem_zipIdx_iff_getElem?.1 hmem)
    subst hcolumn
    cases la <;> simp [Lookahead.column]
  -- The rows are numbered as the cells of a row are, by their place.
  unfold ParseTable.cells allCells
  rw [List.zipIdx_map, List.flatMap_map]
  conv_rhs => rw [← List.zipIdx_map_fst 0 (List.range g.size), List.flatMap_map]
  apply List.flatMap_congr
  rintro ⟨nt, i⟩ hmem
  obtain ⟨_, heq⟩ := List.getElem?_eq_some_iff.1 (List.mem_zipIdx_iff_getElem?.1 hmem)
  rw [List.getElem_range] at heq
  obtain rfl : i = nt := heq
  exact hrow i _

theorem mem_cells_iff {c : Cell} :
    (nt, la, c) ∈ (g.allCells first follow).cells ↔ nt < g.size ∧ la.column ≤ g.arena.size ∧
      c = Cell.ofCandidates (g.candidates first follow nt la) := by
  rw [cells_allCells]
  simp only [List.mem_flatMap, List.mem_range, List.mem_map, Prod.mk.injEq, Lookahead.mem_all_iff]
  constructor
  · rintro ⟨nt, hnt, la, hla, rfl, rfl, rfl⟩
    exact ⟨hnt, hla, rfl⟩
  · rintro ⟨hnt, hla, rfl⟩
    exact ⟨nt, hnt, la, hla, rfl, rfl, rfl⟩

theorem pairwise_cells (g : Grammar) (first : FirstTable g.arena.size)
    (follow : FollowTable g.arena.size) :
    (g.allCells first follow).cells.Pairwise fun x y => CellBefore x.1 x.2.1 y.1 y.2.1 := by
  rw [cells_allCells, List.pairwise_flatMap]
  constructor
  · intro nt _
    rw [List.pairwise_map]
    apply (Lookahead.pairwise_all _).imp
    intro la la' hlt
    exact Or.inr ⟨rfl, hlt⟩
  · apply List.pairwise_lt_range.imp
    intro nt nt' hlt x hx y hy
    obtain ⟨la, -, rfl⟩ := List.mem_map.1 hx
    obtain ⟨la', -, rfl⟩ := List.mem_map.1 hy
    exact Or.inl hlt

/-- The first member of an ordered list that a function has a value for comes before all others. -/
theorem exists_first_of_findSome? {α β : Type} {R : α → α → Prop} {f : α → Option β} {xs : List α}
    (hsorted : xs.Pairwise R) {b : β} (h : xs.findSome? f = some b) :
    ∃ x ∈ xs, f x = some b ∧ ∀ y ∈ xs, f y ≠ none → y = x ∨ R x y := by
  obtain ⟨before, x, after, rfl, hx, hbefore⟩ := List.findSome?_eq_some_iff.1 h
  refine ⟨x, List.mem_append_right _ List.mem_cons_self, hx, fun y hy hsome => ?_⟩
  rw [List.pairwise_append, List.pairwise_cons] at hsorted
  rcases List.mem_append.1 hy with hy | hy
  · exact absurd (hbefore y hy) hsome
  · exact (List.mem_cons.1 hy).imp_right (hsorted.2.1.1 y)

theorem IsTied.mem_cells (h : g.IsTied first follow nt la) :
    (nt, la, Cell.tied ((Cell.tops (g.candidates first follow nt la)).map Prod.fst)) ∈
      (g.allCells first follow).cells := by
  obtain ⟨hnt, hla⟩ : nt < g.size ∧ la.column ≤ g.arena.size := by
    obtain ⟨p, -, -, hp, -⟩ := h
    exact hp.1.exists_cell
  refine mem_cells_iff.2 ⟨hnt, hla, Eq.symm ?_⟩
  exact Cell.ofCandidates_eq_tied_iff.2 ⟨(isTied_iff hla).1 h, rfl⟩

/-- The cell where the first tie is, and what is tied there. -/
theorem firstTie?_eq_some {ps : List Nat}
    (h : (g.allCells first follow).firstTie? = some (nt, la, ps)) :
    g.IsFirstTie first follow nt la ps := by
  obtain ⟨⟨i, la₁, c⟩, hmem, hc, hleast⟩ :=
    exists_first_of_findSome? (pairwise_cells g first follow) h
  obtain ⟨hnt, hla, hcell⟩ := mem_cells_iff.1 hmem
  cases c with
  | tied ps₁ =>
      simp only [Option.some.injEq, Prod.mk.injEq] at hc
      obtain ⟨rfl, rfl, rfl⟩ := hc
      obtain ⟨htied, hsorted, htops⟩ := (ofCandidates_eq_tied_iff hla).1 hcell.symm
      refine ⟨htied, fun nt' la' htied' => ?_, hsorted, htops⟩
      -- The other cell is there too, and the search would have found it.
      rcases hleast _ htied'.mem_cells (by simp) with heq | hbefore
      · simp only [Prod.mk.injEq] at heq
        exact Or.inl ⟨heq.1, heq.2.1⟩
      · exact Or.inr hbefore
  | _ => exact absurd hc (by simp)

/-- There is a tie exactly if some cell is tied. -/
theorem firstTie?_eq_none_iff :
    (g.allCells first follow).firstTie? = none ↔ ∀ nt la, ¬ g.IsTied first follow nt la := by
  constructor
  · intro h nt la htied
    have hnone := List.findSome?_eq_none_iff.1 h _ htied.mem_cells
    exact absurd hnone (by simp)
  · intro h
    cases hfirst : (g.allCells first follow).firstTie? with
    | none => rfl
    | some tie => exact absurd (firstTie?_eq_some hfirst).tied (h _ _)

/-! ## What the table holds -/

section Table

variable (hties : ∀ nt la, ¬ g.IsTied first follow nt la)

include hties

theorem get?_eq_some_iff :
    (g.allCells first follow).get? nt la = some p ↔ g.IsTop first follow nt la p := by
  by_cases hin : nt < g.size ∧ la.column ≤ g.arena.size
  · rw [get?_allCells hin.1 hin.2, production?_eq_some_iff hin.2 (hties nt la)]
  · rw [get?_allCells_of_not hin]
    exact ⟨fun h => absurd h (by simp), fun h => absurd h.1.exists_cell hin⟩

/-- Where there are candidates, one of them is a top candidate. -/
theorem get?_eq_none_iff :
    (g.allCells first follow).get? nt la = none ↔ ∀ p, ¬ g.IsCandidate first follow nt la p := by
  rw [Option.eq_none_iff_forall_ne_some]
  simp only [ne_eq, get?_eq_some_iff hties]
  constructor
  · intro hnone p hp
    have hla := hp.exists_cell.2
    have hmem := (mem_map_candidates_iff hla).2 hp
    have hne : Cell.tops (g.candidates first follow nt la) ≠ [] := by
      apply Cell.tops_ne_nil
      intro hnil
      rw [hnil] at hmem
      exact absurd hmem List.not_mem_nil
    obtain ⟨c, hc⟩ := List.exists_mem_of_ne_nil _ hne
    exact hnone c.1 ((mem_tops_candidates_iff hla).1 (List.mem_map_of_mem hc))
  · intro hnone p hp
    exact hnone p hp.1

/-- The cells with several candidates are those that priorities have decided. -/
theorem mem_resolutions_iff {r : Resolution} :
    r ∈ (g.allCells first follow).resolutions ↔ g.IsResolution first follow r := by
  obtain ⟨nt, la, chosen, rejected⟩ := r
  have hmem : (⟨nt, la, chosen, rejected⟩ : Resolution) ∈ (g.allCells first follow).resolutions ↔
      (nt, la, Cell.resolved chosen rejected) ∈ (g.allCells first follow).cells := by
    unfold ParseTable.resolutions
    rw [List.mem_filterMap]
    constructor
    · rintro ⟨⟨i, la', c⟩, hcell, hr⟩
      cases c with
      | resolved p ps =>
          simp only [Option.some.injEq, Resolution.mk.injEq] at hr
          obtain ⟨rfl, rfl, rfl, rfl⟩ := hr
          exact hcell
      | _ => exact absurd hr (by simp)
    · exact fun hcell => ⟨_, hcell, rfl⟩
  -- A cell outside the table has no candidates, so that a resolution is about one inside.
  rw [hmem, mem_cells_iff]
  constructor
  · rintro ⟨-, hla, hcell⟩
    obtain ⟨hmany, htop, hsorted, hrejected⟩ :=
      (ofCandidates_eq_resolved_iff hla (hties nt la)).1 hcell.symm
    exact ⟨hmany, htop, hsorted, hrejected⟩
  · rintro ⟨hmany, htop, hsorted, hrejected⟩
    obtain ⟨hnt, hla⟩ := htop.1.exists_cell
    refine ⟨hnt, hla, Eq.symm ?_⟩
    exact (ofCandidates_eq_resolved_iff hla (hties nt la)).2 ⟨hmany, htop, hsorted, hrejected⟩

end Table

theorem pairwise_resolutions (g : Grammar) (first : FirstTable g.arena.size)
    (follow : FollowTable g.arena.size) :
    (g.allCells first follow).resolutions.Pairwise fun r r' =>
      CellBefore r.nonTerminal r.lookahead r'.nonTerminal r'.lookahead := by
  refine List.Pairwise.filterMap _ ?_ (pairwise_cells g first follow)
  rintro ⟨nt, la, c⟩ ⟨nt', la', c'⟩ hbefore r hr r' hr'
  cases c with
  | resolved p ps =>
      cases c' with
      | resolved p' ps' =>
          rw [← Option.some.inj hr, ← Option.some.inj hr']
          exact hbefore
      | _ => exact absurd hr' (by simp)
  | _ => exact absurd hr (by simp)

end Grammar

/-! ## Candidates collected production by production -/

/-- The productions that have claimed a cell so far, each once. -/
abbrev Claims := Nat → Lookahead → List Nat

namespace Claims

/-- AddsTo a production to a cell that it has not claimed before. -/
def add (claims : Claims) (claim : Nat × Lookahead × Nat) : Claims := fun nt la =>
  if nt = claim.1 ∧ la = claim.2.1 ∧ claim.2.2 ∉ claims nt la then claims nt la ++ [claim.2.2]
  else claims nt la

/-- However often a production claims a cell, it is added once. -/
theorem foldl_add_eq {nt p : Nat} (cs : List (Nat × Lookahead × Nat))
    (hcs : ∀ c ∈ cs, c.1 = nt ∧ c.2.2 = p) (claims : Claims) (nt' : Nat) (la : Lookahead) :
    cs.foldl add claims nt' la =
      if (nt', la, p) ∈ cs ∧ p ∉ claims nt' la then claims nt' la ++ [p] else claims nt' la := by
  induction cs generalizing claims with
  | nil => simp
  | cons c cs ih =>
      obtain ⟨i, la', q⟩ := c
      obtain ⟨rfl, rfl⟩ : i = nt ∧ q = p := hcs (i, la', q) List.mem_cons_self
      rw [List.foldl_cons, ih fun c hc => hcs c (List.mem_cons_of_mem _ hc)]
      unfold add
      by_cases hnew : q ∈ claims nt' la
      · simp [hnew]
      · by_cases hcell : nt' = i ∧ la = la'
        · obtain ⟨rfl, rfl⟩ := hcell
          simp [hnew]
        · have hother : ¬ (nt' = i ∧ la = la' ∧ q ∉ claims nt' la) :=
            fun h => hcell ⟨h.1, h.2.1⟩
          rw [if_neg hother]
          simp only [List.mem_cons, Prod.mk.injEq, and_true, hcell, false_or]

end Claims

namespace Grammar

variable {g : Grammar} {first : FirstTable g.arena.size} {follow : FollowTable g.arena.size}

/-- The cells that a production claims: those of the terminals that it can begin with, and if it can be
empty those of the terminals that can follow, in the given order, and of the end of the input. -/
def claimsOf (g : Grammar) (first : FirstTable g.arena.size) (follow : FollowTable g.arena.size)
    (order : IndexSet g.arena.size → List Nat) (nt p : Nat) (production : Production) :
    List (Nat × Lookahead × Nat) :=
  let a := first.ofSymbols production.symbols
  (a.terminals.toList.map fun t => (nt, .terminal t, p)) ++
    if a.empty then
      ((order (follow.get nt).terminals).map fun t => (nt, .terminal t, p)) ++
        if (follow.get nt).atEnd then [(nt, .endOfInput, p)] else []
    else []

/-- The candidates of all cells, collected production by production. The order in which the terminals
of a set are listed may be another one each time. -/
def collected (g : Grammar) (first : FirstTable g.arena.size) (follow : FollowTable g.arena.size)
    (order : Nat → IndexSet g.arena.size → List Nat) : Claims :=
  (g.numberedProductions.zipIdx.flatMap fun ((nt, p, production), i) =>
    g.claimsOf first follow (order i) nt p production).foldl Claims.add fun _ _ => []

section Collected

variable {order : IndexSet g.arena.size → List Nat}

theorem mem_claimsOf_iff (horder : ∀ s, (order s).Perm s.toList) {nt p : Nat}
    {production : Production} {i q : Nat} {la : Lookahead} :
    (i, la, q) ∈ g.claimsOf first follow order nt p production ↔
      i = nt ∧ q = p ∧ la.Admitted (first.ofSymbols production.symbols) (follow.get nt) := by
  unfold claimsOf
  cases la with
  | endOfInput =>
      cases he : (first.ofSymbols production.symbols).empty <;>
        cases hend : (follow.get nt).atEnd <;> simp [Lookahead.Admitted, he, hend]
  | terminal t =>
      cases he : (first.ofSymbols production.symbols).empty <;>
        simp [Lookahead.Admitted, he, (horder _).mem_iff] <;> tauto

theorem eq_of_mem_claimsOf (horder : ∀ s, (order s).Perm s.toList) {nt p : Nat}
    {production : Production} : ∀ c ∈ g.claimsOf first follow order nt p production,
      c.1 = nt ∧ c.2.2 = p := by
  rintro ⟨i, la, q⟩ hc
  obtain ⟨hi, hq, -⟩ := (mem_claimsOf_iff horder).1 hc
  exact ⟨hi, hq⟩

variable {nt p : Nat} {production : Production} {claims : Claims} {la : Lookahead}

/-- A new production is added to a cell of its own whose lookahead it admits. -/
theorem foldl_claimsOf_of_admitted (horder : ∀ s, (order s).Perm s.toList)
    (hadmitted : la.Admitted (first.ofSymbols production.symbols) (follow.get nt))
    (hnew : p ∉ claims nt la) :
    (g.claimsOf first follow order nt p production).foldl Claims.add claims nt la =
      claims nt la ++ [p] := by
  rw [Claims.foldl_add_eq _ (eq_of_mem_claimsOf horder), if_pos]
  exact ⟨(mem_claimsOf_iff horder).2 ⟨rfl, rfl, hadmitted⟩, hnew⟩

/-- A production leaves all other cells as they are. -/
theorem foldl_claimsOf_of_not (horder : ∀ s, (order s).Perm s.toList) {i : Nat}
    (h : ¬ (i = nt ∧ la.Admitted (first.ofSymbols production.symbols) (follow.get nt))) :
    (g.claimsOf first follow order nt p production).foldl Claims.add claims i la =
      claims i la := by
  rw [Claims.foldl_add_eq _ (eq_of_mem_claimsOf horder), if_neg]
  intro hclaim
  obtain ⟨hi, -, hadmitted⟩ := (mem_claimsOf_iff horder).1 hclaim.1
  exact h ⟨hi, hadmitted⟩

end Collected

section Collected

variable {order : Nat → IndexSet g.arena.size → List Nat}

/-- The numbers of the productions that are added to a cell. -/
def AddsTo (first : FirstTable g.arena.size) (follow : FollowTable g.arena.size) (nt : Nat)
    (la : Lookahead) (ps : List (Nat × Nat × Production)) (added : List Nat) : Prop :=
  added.Pairwise (· < ·) ∧ ∀ p, p ∈ added ↔ ∃ production, (nt, p, production) ∈ ps ∧
    la.Admitted (first.ofSymbols production.symbols) (follow.get nt)

/-- A production that is added comes before those that are added after it. -/
theorem AddsTo.cons {nt p : Nat} {la : Lookahead} {production : Production}
    {ps : List (Nat × Nat × Production)} {added : List Nat} (h : AddsTo first follow nt la ps added)
    (hadmitted : la.Admitted (first.ofSymbols production.symbols) (follow.get nt))
    (hless : ∀ x ∈ ps, nt = x.1 → p < x.2.1) :
    AddsTo first follow nt la ((nt, p, production) :: ps) (p :: added) := by
  obtain ⟨hsorted, hmem⟩ := h
  refine ⟨List.pairwise_cons.2 ⟨fun q hq => ?_, hsorted⟩, fun q => ?_⟩
  · obtain ⟨production', hmem', -⟩ := (hmem q).1 hq
    exact hless _ hmem' rfl
  · rw [List.mem_cons, hmem]
    constructor
    · rintro (rfl | ⟨production', hmem', hadmitted'⟩)
      · exact ⟨production, List.mem_cons_self, hadmitted⟩
      · exact ⟨production', List.mem_cons_of_mem _ hmem', hadmitted'⟩
    · rintro ⟨production', hmem', hadmitted'⟩
      rcases List.mem_cons.1 hmem' with heq' | hmem'
      · exact Or.inl (Prod.mk.inj (Prod.mk.inj heq').2).1
      · exact Or.inr ⟨production', hmem', hadmitted'⟩

/-- A production of another cell adds nothing. -/
theorem AddsTo.cons_of_not {nt i p : Nat} {la : Lookahead} {production : Production}
    {ps : List (Nat × Nat × Production)} {added : List Nat} (h : AddsTo first follow nt la ps added)
    (hno : ¬ (nt = i ∧ la.Admitted (first.ofSymbols production.symbols) (follow.get i))) :
    AddsTo first follow nt la ((i, p, production) :: ps) added := by
  refine ⟨h.1, fun q => ?_⟩
  rw [h.2]
  constructor
  · rintro ⟨production', hmem', hadmitted'⟩
    exact ⟨production', List.mem_cons_of_mem _ hmem', hadmitted'⟩
  · rintro ⟨production', hmem', hadmitted'⟩
    rcases List.mem_cons.1 hmem' with heq' | hmem'
    · obtain ⟨rfl, hrest⟩ := Prod.mk.inj heq'
      obtain ⟨rfl, rfl⟩ := Prod.mk.inj hrest
      exact absurd ⟨rfl, hadmitted'⟩ hno
    · exact ⟨production', hmem', hadmitted'⟩

/-- Productions that have claimed nothing so far are added to a cell in their order if they admit its
lookahead. -/
theorem exists_added (horder : ∀ i s, (order i s).Perm s.toList) {nt : Nat} {la : Lookahead}
    {ps : List (Nat × Nat × Production)}
    (hps : ps.Pairwise fun x y => x.1 = y.1 → x.2.1 < y.2.1) (k : Nat) (claims : Claims)
    (hnew : ∀ x ∈ ps, x.1 = nt → x.2.1 ∉ claims nt la) :
    ∃ added, ((ps.zipIdx k).flatMap fun ((nt, p, production), i) =>
        g.claimsOf first follow (order i) nt p production).foldl Claims.add claims nt la =
          claims nt la ++ added ∧ AddsTo first follow nt la ps added := by
  induction ps generalizing k claims with
  | nil => exact ⟨[], (List.append_nil _).symm, .nil, fun p => by simp⟩
  | cons x ps ih =>
      obtain ⟨i, p, production⟩ := x
      rw [List.pairwise_cons] at hps
      obtain ⟨hless, hps⟩ := hps
      rw [List.zipIdx_cons, List.flatMap_cons, List.foldl_append]
      by_cases hclaim : nt = i ∧ la.Admitted (first.ofSymbols production.symbols) (follow.get i)
      · obtain ⟨rfl, hadmitted⟩ := hclaim
        have hclaims := foldl_claimsOf_of_admitted (horder k) hadmitted
          (hnew (nt, p, production) List.mem_cons_self rfl)
        obtain ⟨added, heq, hadds⟩ := ih hps (k + 1)
          ((g.claimsOf first follow (order k) nt p production).foldl Claims.add claims) (by
            intro x hx hxnt
            rw [hclaims, List.mem_append, List.mem_singleton]
            rintro (hold | heq)
            · exact hnew x (List.mem_cons_of_mem _ hx) hxnt hold
            · exact absurd heq.symm (Nat.ne_of_lt (hless x hx hxnt.symm)))
        refine ⟨p :: added, ?_, hadds.cons hadmitted hless⟩
        rw [heq, hclaims, List.append_assoc, List.singleton_append]
      · have hclaims : (g.claimsOf first follow (order k) i p production).foldl Claims.add claims nt la =
            claims nt la := foldl_claimsOf_of_not (horder k) hclaim
        obtain ⟨added, heq, hadds⟩ := ih hps (k + 1)
          ((g.claimsOf first follow (order k) i p production).foldl Claims.add claims) (by
            intro x hx hxnt
            rw [hclaims]
            exact hnew x (List.mem_cons_of_mem _ hx) hxnt)
        exact ⟨added, by rw [heq, hclaims], hadds.cons_of_not hclaim⟩

/-- The productions of one non-terminal come in the order of their numbers. -/
theorem pairwise_numberedProductions (g : Grammar) :
    g.numberedProductions.Pairwise fun x y => x.1 = y.1 → x.2.1 < y.2.1 := by
  unfold numberedProductions
  rw [List.pairwise_flatMap]
  constructor
  · rintro ⟨nt, i⟩ _
    rw [List.pairwise_map]
    apply (pairwise_zipIdx nt.productions).imp
    rintro ⟨production, p⟩ ⟨production', p'⟩ hlt _
    exact hlt
  · apply (pairwise_zipIdx g.nonTerminals).imp
    rintro ⟨nt, i⟩ ⟨nt', j⟩ hlt x hx y hy heq
    obtain ⟨⟨production, p⟩, -, rfl⟩ := List.mem_map.1 hx
    obtain ⟨⟨production', p'⟩, -, rfl⟩ := List.mem_map.1 hy
    exact absurd heq (Nat.ne_of_lt hlt)

/-- What is collected for a cell are its candidates, in the order of the productions. -/
theorem collected_eq_candidates (horder : ∀ i s, (order i s).Perm s.toList) {nt : Nat}
    {la : Lookahead} (hla : la.column ≤ g.arena.size) :
    g.collected first follow order nt la = (g.candidates first follow nt la).map Prod.fst := by
  obtain ⟨added, heq, hsorted, hmem⟩ :
      ∃ added, g.collected first follow order nt la = [] ++ added ∧ added.Pairwise (· < ·) ∧
        ∀ p, p ∈ added ↔ ∃ production, (nt, p, production) ∈ g.numberedProductions ∧
          la.Admitted (first.ofSymbols production.symbols) (follow.get nt) :=
    exists_added horder g.pairwise_numberedProductions 0 (fun _ _ => []) fun _ _ _ =>
      List.not_mem_nil
  rw [heq, List.nil_append]
  apply hsorted.eq_of_mem_iff (List.pairwise_map.2 (pairwise_candidates first follow nt la))
  intro p
  rw [hmem, mem_map_candidates_iff hla]
  simp only [mem_numberedProductions_iff]
  rfl

end Collected

/-! ## The whole table -/

/-- The parse table is the one that priorities decide, for all FIRST and FOLLOW sets. It is refused
exactly if some cell has several top candidates. The error is about the first one of these cells, and
about its top candidates. Otherwise each cell holds its only top candidate, and the cells with several
candidates are listed with the chosen production and all others. What is collected production by
production for a cell, where the terminals of a FOLLOW set are listed in any order, are its candidates in
the order of the productions. -/
theorem parseTable_exact (g : Grammar) (first : FirstTable g.arena.size)
    (follow : FollowTable g.arena.size) :
    ((∃ e, g.parseTable first follow = .error e) ↔ ∃ nt la, g.IsTied first follow nt la) ∧
      (∀ e, g.parseTable first follow = .error e →
        ∃ nt la ps, g.IsFirstTie first follow nt la ps ∧
          e = .ambiguous (g.nameOf nt) (la.render g.arena) (ps.map (g.renderNumbered nt))) ∧
      (∀ table, g.parseTable first follow = .ok table → g.IsResolved first follow table) ∧
      ∀ order : Nat → IndexSet g.arena.size → List Nat, (∀ i s, (order i s).Perm s.toList) →
        ∀ nt la, la.column ≤ g.arena.size →
          g.collected first follow order nt la = (g.candidates first follow nt la).map Prod.fst := by
  refine ⟨?_, ?_, ?_, fun order horder nt la hla => collected_eq_candidates horder hla⟩
  · constructor
    · rintro ⟨e, he⟩
      by_contra hnone
      simp only [not_exists] at hnone
      unfold parseTable at he
      simp only [firstTie?_eq_none_iff.2 hnone] at he
      exact absurd he (by simp)
    · rintro ⟨nt, la, htied⟩
      cases hfirst : (g.allCells first follow).firstTie? with
      | none => exact absurd htied (firstTie?_eq_none_iff.1 hfirst nt la)
      | some tie =>
          unfold parseTable
          simp only [hfirst]
          exact ⟨_, rfl⟩
  · intro e he
    unfold parseTable at he
    simp only at he
    split at he
    · exact absurd he (by simp)
    · rename_i nt la ps hfirst
      exact ⟨nt, la, ps, firstTie?_eq_some hfirst, (Except.error.inj he).symm⟩
  · intro table htable
    obtain ⟨rfl, hnone⟩ := parseTable_eq_ok htable
    have hties := firstTie?_eq_none_iff.1 hnone
    exact ⟨fun nt la p => get?_eq_some_iff hties, fun nt la => get?_eq_none_iff hties,
      pairwise_resolutions g first follow, fun r => mem_resolutions_iff hties⟩

/-- Conditionals where the alternative belongs to the nearest condition, by its priority. -/
def danglingGrammar : Grammar :=
  { nonTerminals :=
      [⟨"Statement", [⟨[.terminal 0, .nonTerminal 0, .nonTerminal 1], .child 1, .default⟩,
        ⟨[.terminal 1], .emptyList, .default⟩]⟩,
      ⟨"Alternative", [⟨[.terminal 2, .nonTerminal 0], .child 1, .default⟩,
        ⟨[], .emptyList, .lowest⟩]⟩]
    arena := ⟨[.literal "if", .literal "skip", .literal "else"]⟩
    start := 0 }

theorem parseTable_exact_danglingGrammar :
    (∃ table, danglingGrammar.parseTable danglingGrammar.firstTable
        (danglingGrammar.followTable danglingGrammar.firstTable) = .ok table ∧
      danglingGrammar.IsResolution danglingGrammar.firstTable
        (danglingGrammar.followTable danglingGrammar.firstTable) ⟨1, .terminal 2, 0, [1]⟩) ∧
      ∃ nt la, circularGrammar.IsTied circularGrammar.firstTable
        (circularGrammar.followTable circularGrammar.firstTable) nt la := by
  have hcheck : (danglingGrammar.parseTable danglingGrammar.firstTable
      (danglingGrammar.followTable danglingGrammar.firstTable)).toOption.any
        (fun table => ⟨1, .terminal 2, 0, [1]⟩ ∈ table.resolutions) = true := by
    cbv
  have htie : (circularGrammar.allCells circularGrammar.firstTable
      (circularGrammar.followTable circularGrammar.firstTable)).firstTie?.isSome = true := by
    cbv
  obtain ⟨-, -, hresolved, -⟩ := parseTable_exact danglingGrammar danglingGrammar.firstTable
    (danglingGrammar.followTable danglingGrammar.firstTable)
  constructor
  · cases htable : danglingGrammar.parseTable danglingGrammar.firstTable
        (danglingGrammar.followTable danglingGrammar.firstTable) with
    | error e => exact absurd hcheck (by simp [htable, Except.toOption])
    | ok table =>
        simp only [htable, Except.toOption, Option.any_some, decide_eq_true_eq] at hcheck
        exact ⟨table, rfl, ((hresolved table htable).resolutions _).1 hcheck⟩
  · apply (parseTable_exact circularGrammar circularGrammar.firstTable
      (circularGrammar.followTable circularGrammar.firstTable)).1.1
    obtain ⟨tie, htie⟩ := Option.isSome_iff_exists.1 htie
    unfold parseTable
    simp only [htie]
    exact ⟨_, rfl⟩

end Grammar

end SmallLang
