import SmallLang.Proofs.Assembly.Succeeds
import SmallLang.Proofs.Language
import SmallLang.Proofs.Lookahead.Resolved
import SmallLang.Proofs.Parsing.Replay

/-!
# Grammars that differ in priorities

A grammar can have the productions of another one with other priorities (`Grammar.Regrades`). What is derived
from a grammar depends on priorities in cells with several candidates only, and there only their order
counts. So if the productions of each non-terminal are in the same order by both (`Grammar.RanksAlike`),
both grammars have the same parse table (`Grammar.Regrades.table_eq`), and the parser does the same with it,
down to its errors (`Grammar.Regrades.parse_eq`).
-/

set_option autoImplicit false

namespace SmallLang

/-! ## Cells -/

namespace Cell

variable {α : Type} {xs : List α} {number : α → Nat} {u v : α → Int32}

/-- A candidate has the highest priority if no other one exceeds it. -/
theorem eq_highest_iff {x : α} (hx : x ∈ xs) :
    u x = highest ((xs.map fun y => (number y, u y)).map Prod.snd) ↔ ∀ y ∈ xs, u y ≤ u x := by
  have hmem : (number x, u x) ∈ xs.map fun y => (number y, u y) := List.mem_map_of_mem hx
  have htops : (number x, u x) ∈ tops (xs.map fun y => (number y, u y)) ↔ _ := mem_tops_iff
  rw [tops, List.mem_filter, beq_iff_eq] at htops
  constructor
  · intro h y hy
    exact (htops.1 ⟨hmem, h⟩).2 _ (List.mem_map_of_mem hy)
  · intro h
    refine (htops.2 ⟨hmem, fun d hd => ?_⟩).2
    obtain ⟨y, hy, rfl⟩ := List.mem_map.1 hd
    exact h y hy

/-- A cell depends on the numbers of the candidates, of those with the highest priority and of the others. -/
theorem ofCandidates_congr {cs cs' : List (Nat × Int32)} (h : cs.map Prod.fst = cs'.map Prod.fst)
    (htops : (tops cs).map Prod.fst = (tops cs').map Prod.fst)
    (hothers : (others cs).map Prod.fst = (others cs').map Prod.fst) :
    ofCandidates cs = ofCandidates cs' := by
  have hlength : cs.length = cs'.length := by simpa using congrArg List.length h
  have htopsLength : (tops cs).length = (tops cs').length := by simpa using congrArg List.length htops
  have hdecides := decides_ofCandidates cs
  generalize ofCandidates cs = cell at hdecides
  cases hdecides with
  | empty hnone =>
      subst hnone
      rw [List.map_eq_nil_iff.1 h.symm]
      rfl
  | only c hone =>
      subst hone
      obtain ⟨c', rfl, hc⟩ := List.map_eq_singleton_iff.1 h.symm
      exact congrArg only hc.symm
  | resolved c hmany hone =>
      refine (ofCandidates_eq_resolved_iff.2 ⟨hmany.trans_eq hlength, ?_, hothers⟩).symm
      rw [← htops, hone, List.map_singleton]
  | tied hmany =>
      exact (ofCandidates_eq_tied_iff.2 ⟨hmany.trans_eq htopsLength, htops⟩).symm

/-- Priorities that order the candidates alike decide a cell alike. -/
theorem ofCandidates_map_congr (h : ∀ x ∈ xs, ∀ y ∈ xs, u x < u y ↔ v x < v y) :
    ofCandidates (xs.map fun x => (number x, u x)) =
      ofCandidates (xs.map fun x => (number x, v x)) := by
  have htop : ∀ x ∈ xs, (u x == highest ((xs.map fun y => (number y, u y)).map Prod.snd)) =
      (v x == highest ((xs.map fun y => (number y, v y)).map Prod.snd)) := by
    intro x hx
    -- To have the highest priority is to be exceeded by none, which is a matter of their order.
    rw [Bool.eq_iff_iff, beq_iff_eq, beq_iff_eq, eq_highest_iff hx, eq_highest_iff hx]
    refine forall₂_congr fun y hy => ?_
    rw [← Int32.not_lt, ← Int32.not_lt, h x hx y hy]
  have hfilter : ∀ (w : α → Int32) (keep : Nat × Int32 → Bool),
      ((xs.map fun x => (number x, w x)).filter keep).map Prod.fst =
        (xs.filter fun x => keep (number x, w x)).map number := by
    intro w keep
    rw [List.filter_map, List.map_map]
    rfl
  refine ofCandidates_congr ?_ ?_ ?_
  · rw [List.map_map, List.map_map]
    rfl
  · rw [tops, tops, hfilter, hfilter]
    exact congrArg (List.map number) (List.filter_congr htop)
  · rw [others, others, hfilter, hfilter]
    exact congrArg (List.map number) (List.filter_congr fun x hx => congrArg not (htop x hx))

end Cell

/-- The production with the given priority. -/
def Production.withPriority (p : Production) (x : Int32) : Production :=
  { p with prec := { p.prec with priority := x } }

/-- Saturation under the same function from the same start. -/
theorem saturate_congr {α : Type} [DecidableEq α] {f f' : α → α} {room : α → Nat}
    {hlt : ∀ x, f x ≠ x → room (f x) < room x} {hlt' : ∀ x, f' x ≠ x → room (f' x) < room x}
    {x x' : α} (hf : f = f') (hx : x = x') : saturate f room hlt x = saturate f' room hlt' x' := by
  subst hf hx
  rfl

namespace Grammar

/-! ## What does not depend on priorities -/

/-- The symbols of the productions of a non-terminal. -/
def symbolsOf (g : Grammar) (nt : Nat) : List (List Symbol) := (g.productionsOf nt).map Production.symbols

/-- The grammar with other non-terminals. -/
abbrev withNonTerminals (g : Grammar) (nts : List NonTerminal) : Grammar := ⟨nts, g.arena, g.start⟩

section Symbols

variable {g : Grammar} {nts : List NonTerminal} (hsize : nts.length = g.size)
  (hsymbols : ∀ nt, (g.withNonTerminals nts).symbolsOf nt = g.symbolsOf nt)
include hsize hsymbols

omit hsize in
theorem flatMap_symbols_congr {α : Type} (f : List Symbol → List α) (nt : Nat) :
    ((g.withNonTerminals nts).productionsOf nt).flatMap (fun p => f p.symbols) =
      (g.productionsOf nt).flatMap fun p => f p.symbols := by
  have h := congrArg (List.flatMap f) (hsymbols nt)
  rwa [symbolsOf, symbolsOf, List.flatMap_map, List.flatMap_map] at h

/-- FIRST sets come from the symbols of productions. -/
theorem firstTable_congr : (g.withNonTerminals nts).firstTable = g.firstTable := by
  have hproductions : (g.withNonTerminals nts).firstOfProductions = g.firstOfProductions := by
    funext t nt
    have hfold := congrArg
      (List.foldl (fun (a : FirstSet g.arena.size) ss => a.union (t.ofSymbols ss)) .none) (hsymbols nt)
    rwa [symbolsOf, symbolsOf, List.foldl_map, List.foldl_map] at hfold
  have hstep : (g.withNonTerminals nts).firstStep = g.firstStep := by
    funext t
    rw [firstStep, firstStep, hproductions]
  have hsize' : (g.withNonTerminals nts).size = g.size := hsize
  rw [firstTable, firstTable]
  exact saturate_congr hstep (by rw [hsize'])

/-- FOLLOW sets come from the symbols of productions and the start. -/
theorem followTable_congr (first : FirstTable g.arena.size) :
    (g.withNonTerminals nts).followTable first = g.followTable first := by
  have hsize' : (g.withNonTerminals nts).size = g.size := hsize
  have hmentioned : (g.withNonTerminals nts).mentioned = g.mentioned :=
    funext fun nt => flatMap_symbols_congr hsymbols (List.filterMap _) nt
  have hreachable : (g.withNonTerminals nts).reachable = g.reachable := by
    rw [reachable, reachable, hmentioned, hsize']
  have hoccurrences : (g.withNonTerminals nts).occurrences first = g.occurrences first := by
    rw [occurrences, occurrences, hreachable]
    exact List.flatMap_congr fun head _ => flatMap_symbols_congr hsymbols (occurrencesIn first head) head
  rw [followTable, followTable]
  exact saturate_congr (congrArg followStep hoccurrences) (by rw [followStart, followStart, hsize'])

theorem leftRecursive?_congr (first : FirstTable g.arena.size) :
    (g.withNonTerminals nts).leftRecursive? first = g.leftRecursive? first := by
  have hcorners : (g.withNonTerminals nts).leftCornersOf first = g.leftCornersOf first :=
    funext fun nt => flatMap_symbols_congr hsymbols (leftCorners first) nt
  have hsize' : (g.withNonTerminals nts).size = g.size := hsize
  rw [leftRecursive?, leftRecursive?, hcorners, hsize']

end Symbols

/-! ## Other priorities -/

/-- The second grammar has the productions of the first one, with the priorities that `rank` gives them.
The non-terminals belong to the same types. -/
structure Regrades (rank : Production → Int32) (g g' : Grammar) : Prop where
  arena_eq : g'.arena = g.arena
  start_eq : g'.start = g.start
  size_eq : g'.size = g.size
  typeName_eq : ∀ nt, typeNameOf (g'.nameOf nt) = typeNameOf (g.nameOf nt)
  productionsOf : ∀ nt, g'.productionsOf nt = (g.productionsOf nt).map fun p => p.withPriority (rank p)

/-- The priorities and the ranks of productions order these alike. -/
def OrderedAlike (rank : Production → Int32) (ps : List Production) : Prop :=
  ∀ p ∈ ps, ∀ q ∈ ps, p.prec.priority < q.prec.priority ↔ rank p < rank q

theorem orderedAlike_singleton (rank : Production → Int32) (p : Production) : OrderedAlike rank [p] := by
  intro q hq r hr
  rw [List.mem_singleton.1 hq, List.mem_singleton.1 hr]
  exact iff_of_false Int32.lt_irrefl Int32.lt_irrefl

/-- The productions of each non-terminal are in the same order by their priorities and their ranks. -/
def RanksAlike (rank : Production → Int32) (g : Grammar) : Prop :=
  ∀ nt, OrderedAlike rank (g.productionsOf nt)

theorem candidates_eq_map (g : Grammar) (first : FirstTable g.arena.size)
    (follow : FollowTable g.arena.size) (nt : Nat) (la : Lookahead) :
    g.candidates first follow nt la =
      ((g.productionsOf nt).zipIdx.filter fun x =>
        la.admits (first.ofSymbols x.1.symbols) (follow.get nt)).map
          fun x => (x.2, x.1.prec.priority) := by
  rw [candidates]
  generalize (g.productionsOf nt).zipIdx = xs
  induction xs with
  | nil => rfl
  | cons x xs ih =>
      rw [List.filterMap_cons, List.filter_cons, ih]
      split <;> rename_i hadmits <;> split at hadmits <;> simp_all

/-- There is a table if no cell is tied. -/
theorem exists_parseTable_iff {g : Grammar} {first : FirstTable g.arena.size}
    {follow : FollowTable g.arena.size} : (∃ table, g.parseTable first follow = .ok table) ↔
      (g.allCells first follow).firstTie? = none := by
  rw [parseTable]
  cases (g.allCells first follow).firstTie? with
  | none => exact ⟨fun _ => rfl, fun _ => ⟨_, rfl⟩⟩
  | some tie => simp

namespace Regrades

variable {rank : Production → Int32} {g g' : Grammar} (h : g.Regrades rank g')
include h

theorem exists_withNonTerminals : ∃ nts, g' = g.withNonTerminals nts := by
  obtain ⟨nts, arena, start⟩ := g'
  obtain rfl : arena = g.arena := h.arena_eq
  obtain rfl : start = g.start := h.start_eq
  exact ⟨nts, rfl⟩

theorem symbolsOf_eq (nt : Nat) : g'.symbolsOf nt = g.symbolsOf nt := by
  rw [symbolsOf, symbolsOf, h.productionsOf, List.map_map]
  rfl

theorem production?_eq (nt p : Nat) :
    g'.production? nt p = (g.production? nt p).map fun q => q.withPriority (rank q) := by
  rw [production?, production?, h.productionsOf, List.getElem?_map]

theorem checkLeftRecursion_eq_ok_iff : g'.checkLeftRecursion g'.firstTable = .ok () ↔
    g.checkLeftRecursion g.firstTable = .ok () := by
  obtain ⟨nts, rfl⟩ := h.exists_withNonTerminals
  have hfind : (g.withNonTerminals nts).leftRecursive? (g.withNonTerminals nts).firstTable =
      g.leftRecursive? g.firstTable := by
    rw [firstTable_congr h.size_eq h.symbolsOf_eq]
    exact leftRecursive?_congr h.size_eq h.symbolsOf_eq _
  rw [checkLeftRecursion, checkLeftRecursion, hfind]
  cases g.leftRecursive? g.firstTable with
  | none => exact Iff.rfl
  | some v => simp

/-- Ranks that order productions as their priorities do give the same cells. -/
theorem allCells_eq (halike : g.RanksAlike rank) :
    g'.allCells g'.firstTable (g'.followTable g'.firstTable) =
      g.allCells g.firstTable (g.followTable g.firstTable) := by
  obtain ⟨nts, rfl⟩ := h.exists_withNonTerminals
  have hsize : (g.withNonTerminals nts).size = g.size := h.size_eq
  rw [firstTable_congr h.size_eq h.symbolsOf_eq, followTable_congr h.size_eq h.symbolsOf_eq, allCells,
    allCells, hsize]
  refine congrArg ParseTable.mk (List.map_congr_left fun nt _ => List.map_congr_left fun la _ => ?_)
  -- The candidates have the same numbers, so only their priorities are to be compared.
  have hcandidates := candidates_eq_map (g.withNonTerminals nts) g.firstTable
    (g.followTable g.firstTable) nt la
  rw [h.productionsOf, List.zipIdx_map, List.filter_map, List.map_map] at hcandidates
  rw [hcandidates, candidates_eq_map]
  refine (Cell.ofCandidates_map_congr fun x hx y hy => ?_).symm
  have hmem : ∀ z ∈ (g.productionsOf nt).zipIdx, z.1 ∈ g.productionsOf nt := fun z hz =>
    List.mem_of_getElem? (List.mk_mem_zipIdx_iff_getElem?.1 hz)
  exact halike nt _ (hmem x (List.mem_filter.1 hx).1) _ (hmem y (List.mem_filter.1 hy).1)

/-- Everything can be derived from both grammars, or from none. -/
theorem ofGrammar_ok_iff
    (halike : g.checkLeftRecursion g.firstTable = .ok () → g.RanksAlike rank) :
    (∃ compiled, Compiled.ofGrammar g = .ok compiled) ↔
      ∃ compiled, Compiled.ofGrammar g' = .ok compiled := by
  rw [Compiled.ofGrammar_ok_iff, Compiled.ofGrammar_ok_iff, h.checkLeftRecursion_eq_ok_iff, h.arena_eq]
  refine and_congr_right fun hrecursion => and_congr_left fun _ => ?_
  rw [exists_parseTable_iff, exists_parseTable_iff, h.allCells_eq (halike hrecursion)]

/-- The tables are the same. -/
theorem table_eq (halike : g.checkLeftRecursion g.firstTable = .ok () → g.RanksAlike rank)
    {compiled compiled' : Compiled} (hcompiled : Compiled.ofGrammar g = .ok compiled)
    (hcompiled' : Compiled.ofGrammar g' = .ok compiled') : compiled'.table = compiled.table := by
  obtain ⟨-, hrecursion, htable⟩ := Compiled.ofGrammar_eq_ok hcompiled
  obtain ⟨-, -, htable'⟩ := Compiled.ofGrammar_eq_ok hcompiled'
  rw [(parseTable_eq_ok htable).1, (parseTable_eq_ok htable').1, h.allCells_eq (halike hrecursion)]

end Regrades

end Grammar

/-! ## The parser -/

namespace Parser

/-- Runs of the same steps have the same result. -/
theorem run_congr {u u' : Setup} (h : ∀ s, step u' s = step u s) (s : State) : run u' s = run u s := by
  fun_induction run u s with
  | case1 s e hstep => exact run_eq_of_failed ((h s).trans hstep)
  | case2 s tree rest hstep => exact run_eq_of_finished ((h s).trans hstep)
  | case3 s s' hstep _ ih => rw [run_eq_of_step ((h s).trans hstep), ih]

end Parser

namespace Grammar.Regrades

variable {rank : Production → Int32} {g g' : Grammar} (h : g.Regrades rank g')
include h

theorem expand_eq (table : ParseTable) (endsAt : Position) (nt : Nat) (tokens : List Token)
    (position depth : Nat) :
    Parser.Setup.expand ⟨g', table, endsAt⟩ nt tokens position depth =
      Parser.Setup.expand ⟨g, table, endsAt⟩ nt tokens position depth := by
  have htypeName : Parser.Setup.typeName ⟨g', table, endsAt⟩ nt =
      Parser.Setup.typeName ⟨g, table, endsAt⟩ nt := h.typeName_eq nt
  have hdepth : Parser.Setup.maxDepth ⟨g', table, endsAt⟩ = Parser.Setup.maxDepth ⟨g, table, endsAt⟩ :=
    h.size_eq
  have hsymbols : ∀ p, (g'.production? nt p).map Production.symbols =
      (g.production? nt p).map Production.symbols := by
    intro p
    rw [h.production?_eq, Option.map_map]
    rfl
  have hcannot : Parser.Setup.cannotOpen ⟨g', table, endsAt⟩ nt =
      Parser.Setup.cannotOpen ⟨g, table, endsAt⟩ nt := by
    funext ts
    cases ts with
    | nil => rw [Parser.Setup.cannotOpen, Parser.Setup.cannotOpen, htypeName]
    | cons t ts =>
        rw [Parser.Setup.cannotOpen, Parser.Setup.cannotOpen, htypeName, Parser.Setup.about,
          Parser.Setup.about, h.arena_eq]
  simp only [Parser.Setup.expand, hcannot, hdepth, hsymbols, htypeName]
  rfl

theorem shift_eq (table : ParseTable) (endsAt : Position) (terminal : Nat) (tokens : List Token) :
    Parser.Setup.shift ⟨g', table, endsAt⟩ terminal tokens =
      Parser.Setup.shift ⟨g, table, endsAt⟩ terminal tokens := by
  obtain ⟨nts, rfl⟩ := h.exists_withNonTerminals
  rfl

theorem step_eq (table : ParseTable) (endsAt : Position) (s : Parser.State) :
    Parser.step ⟨g', table, endsAt⟩ s = Parser.step ⟨g, table, endsAt⟩ s := by
  rw [Parser.step, Parser.step]
  cases s.top.todo with
  | nil => rfl
  | cons x todo =>
      cases x with
      | terminal t => simp only [h.shift_eq]
      | nonTerminal nt => simp only [h.expand_eq]

/-- The parser does the same with both grammars, and reports the same errors. -/
theorem parse_eq (table : ParseTable) (tokens : List Token) :
    Parser.parse g' table tokens = Parser.parse g table tokens := by
  have hrun := Parser.run_congr (h.step_eq table (endPosition tokens))
  rw [Parser.parse, Parser.parse]
  simp only [h.expand_eq, hrun, h.start_eq]
  obtain ⟨nts, rfl⟩ := h.exists_withNonTerminals
  rfl

theorem meaning_eq (t : ParseTree) : t.meaning g' = t.meaning g := by
  have hconstruction : ∀ nt p, g'.constructionOf nt p = g.constructionOf nt p := by
    intro nt p
    rw [constructionOf, constructionOf, h.production?_eq, Option.map_map]
    rfl
  induction t using ParseTree.induct with
  | token t => rfl
  | node nt p children ih =>
      rw [ParseTree.meaning_node, ParseTree.meaning_node, hconstruction, List.map_congr_left ih]

/-- A tree has the same value by both grammars. -/
theorem value_eq (t : ParseTree) : t.value g' = t.value g := by
  rw [ParseTree.value, ParseTree.value, h.meaning_eq]

end Grammar.Regrades

end SmallLang
