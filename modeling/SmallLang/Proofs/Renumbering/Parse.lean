import SmallLang.Proofs.Assembly.Succeeds
import SmallLang.Proofs.Operator.Supplied
import SmallLang.Proofs.Renumbering.Lookahead

/-!
# Parsing under other numbers

A cell of the parse table depends on the priorities of its candidates only, so with other numbers the
table gives the productions of the other numbers (`Grammar.Renumbers.get?_allCells`). A parse tree yields
the same with other numbers (`Renumbering.tree`), up to the kinds of nodes, and so does the parser for the
same tokens (`Grammar.Renumbers.exists_parse_iff`). Everything can be derived from the one grammar if it
can be from the other one (`Grammar.Renumbers.ofGrammar_ok_iff`).
-/

set_option autoImplicit false

namespace SmallLang

open Equiv (Perm)
open ParseTree (Guided GuidedAll)
open Parser.Setup (lookahead)

/-! ## Cells -/

namespace Cell

theorem highest_perm {ps qs : List Int32} (h : ps.Perm qs) : highest ps = highest qs := by
  rw [highest, highest]
  apply List.Perm.foldl_eq' h
  intro x _ y _ z
  simp only [Int32.lt_iff_toInt_lt]
  split_ifs <;> first | rfl | (apply Int32.toInt_inj.1; omega)

/-- With two candidates or more only those of the highest priority count. -/
theorem ofCandidates_cons_cons (c d : Nat × Int32) (cs : List (Nat × Int32)) :
    (∃ w ps, (c :: d :: cs).filter (·.2 == highest ((c :: d :: cs).map Prod.snd)) = [w] ∧
        ofCandidates (c :: d :: cs) = .resolved w.1 ps) ∨
      ((c :: d :: cs).filter (·.2 == highest ((c :: d :: cs).map Prod.snd))).length ≠ 1 ∧
        ∃ ps, ofCandidates (c :: d :: cs) = .tied ps := by
  cases hwinners : (c :: d :: cs).filter (·.2 == highest ((c :: d :: cs).map Prod.snd)) with
  | nil => exact Or.inr ⟨by simp, [], by simp only [ofCandidates, hwinners]; rfl⟩
  | cons w ws =>
      cases ws with
      | nil => exact Or.inl ⟨w, _, rfl, by simp only [ofCandidates, hwinners]; rfl⟩
      | cons w' ws => exact Or.inr ⟨by simp, _, by simp only [ofCandidates, hwinners]; rfl⟩

/-- The order of the candidates does not matter, and their numbers only for the result. -/
theorem ofCandidates_perm {σ : Nat → Nat} {cs cs' : List (Nat × Int32)}
    (h : cs'.Perm (cs.map fun c => (σ c.1, c.2))) :
    (ofCandidates cs').production? = (ofCandidates cs).production?.map σ ∧
      ((∃ ps, ofCandidates cs' = .tied ps) → ∃ ps, ofCandidates cs = .tied ps) := by
  match cs, h with
  | [], h =>
      rw [List.perm_nil.1 h]
      exact ⟨rfl, fun htied => htied⟩
  | [c], h =>
      rw [List.perm_singleton.1 h]
      refine ⟨rfl, ?_⟩
      rintro ⟨ps, hps⟩
      exact absurd hps (by simp [ofCandidates])
  | c :: d :: cs, h =>
      obtain ⟨c', d', cs'', rfl⟩ : ∃ c' d' cs'', cs' = c' :: d' :: cs'' := by
        match cs', h.length_eq with
        | c' :: d' :: cs'', _ => exact ⟨c', d', cs'', rfl⟩
      -- With several candidates the highest priority is the same, and so the winners are permuted too.
      have htop : highest ((c' :: d' :: cs'').map Prod.snd) =
          highest ((c :: d :: cs).map Prod.snd) := by
        refine highest_perm ?_
        have hsnd := h.map Prod.snd
        rwa [List.map_map] at hsnd
      have hwinners := h.filter (·.2 == highest ((c :: d :: cs).map Prod.snd))
      rw [List.filter_map] at hwinners
      have hcases := ofCandidates_cons_cons c' d' cs''
      rw [htop] at hcases
      rcases ofCandidates_cons_cons c d cs with ⟨w, ps, hw, hcell⟩ | ⟨hmany, ps, hcell⟩
      · have hw' : (c :: d :: cs).filter
            ((fun x => x.2 == highest ((c :: d :: cs).map Prod.snd)) ∘ fun x => (σ x.1, x.2)) =
            [w] := hw
        rw [hw'] at hwinners
        have hone := List.perm_singleton.1 hwinners
        rcases hcases with ⟨w', ps', hw'', hcell'⟩ | ⟨hmany', -⟩
        · rw [hone] at hw''
          rw [hcell', hcell, ← (List.cons.inj hw'').1]
          exact ⟨rfl, fun ⟨_, htied⟩ => absurd htied (by simp)⟩
        · rw [hone] at hmany'
          exact absurd rfl hmany'
      · rcases hcases with ⟨w', ps', hw'', -⟩ | ⟨-, ps', hcell'⟩
        · have hlength := hwinners.length_eq
          rw [hw'', List.length_map] at hlength
          exact absurd hlength.symm hmany
        · rw [hcell', hcell]
          exact ⟨rfl, fun _ => ⟨ps, rfl⟩⟩

end Cell

/-! ## Trees -/

namespace Renumbering

variable (r : Renumbering) (φ : Value → Value) (σ : Nat → Perm Nat)

/-- A lookahead by its other number. -/
def lookahead : Lookahead → Lookahead
  | .endOfInput => .endOfInput
  | .terminal i => .terminal (r.terminal i)

/-- A token by the other number of its terminal, and with what `φ` makes of its value. -/
def token (t : Token) : Token := { t with terminal := r.terminal t.terminal, value := φ t.value }

/-- A tree by the other numbers of its non-terminals, productions and terminals, and with what `φ` makes
of the values of its tokens. -/
def tree : ParseTree → ParseTree
  | .token t => .token (r.token φ t)
  | .node nt p children => .node (r.nonTerminal nt) (σ nt p) (trees children)
where
  /-- Some trees by other numbers. -/
  trees : List ParseTree → List ParseTree
    | [] => []
    | t :: ts => tree t :: trees ts

theorem trees_eq_map (ts : List ParseTree) : tree.trees r φ σ ts = ts.map (r.tree φ σ) := by
  induction ts with
  | nil => rfl
  | cons t ts ih => rw [tree.trees, ih, List.map_cons]

@[simp] theorem tree_token (t : Token) : r.tree φ σ (.token t) = .token (r.token φ t) := rfl

@[simp] theorem tree_node (nt p : Nat) (children : List ParseTree) :
    r.tree φ σ (.node nt p children) =
      .node (r.nonTerminal nt) (σ nt p) (children.map (r.tree φ σ)) := by
  rw [tree, trees_eq_map]

/-- The old numbers and values for the new ones. -/
theorem map_token_symm {ψ : Value → Value} (hψ : Function.LeftInverse ψ φ) (tokens : List Token) :
    (tokens.map (r.token φ)).map (r.symm.token ψ) = tokens := by
  have hid : r.symm.token ψ ∘ r.token φ = id := by
    funext t
    rw [Function.comp_apply, token, token, r.symm_terminal_apply, hψ]
    rfl
  rw [List.map_map, hid, List.map_id]

/-- The old kinds for the new ones. -/
theorem leftInverse_rename : Function.LeftInverse (Value.rename r.symm.kind) (Value.rename r.kind) := by
  intro v
  have hid : (r.symm.kind : String → String) ∘ r.kind = id := funext r.kind.symm_apply_apply
  rw [Value.rename_rename, hid, Value.rename_id]

theorem lookahead_tokens (tokens : List Token) :
    Parser.Setup.lookahead (tokens.map (r.token φ)) =
      r.lookahead (Parser.Setup.lookahead tokens) := by
  cases tokens <;> rfl

theorem tokens_tree (t : ParseTree) : (r.tree φ σ t).tokens = t.tokens.map (r.token φ) := by
  induction t using ParseTree.induct with
  | token t => rfl
  | node nt p children ih =>
      rw [tree_node, ParseTree.tokens_node, ParseTree.tokens_node, List.map_flatMap,
        List.flatMap_map]
      exact List.flatMap_congr ih

theorem flatMap_tokens_tree (ts : List ParseTree) :
    (ts.map (r.tree φ σ)).flatMap ParseTree.tokens =
      (ts.flatMap ParseTree.tokens).map (r.token φ) := by
  rw [List.flatMap_map, List.map_flatMap]
  exact List.flatMap_congr fun t _ => r.tokens_tree φ σ t

end Renumbering

namespace Grammar

namespace Renumbers

variable {r : Renumbering} {g g' : Grammar} (h : Renumbers r g g')
include h

/-! ## The table -/

theorem column_le_iff (la : Lookahead) :
    (r.lookahead la).column ≤ g'.arena.size ↔ la.column ≤ g.arena.size := by
  rw [h.arena_size_eq]
  cases la with
  | endOfInput => exact Iff.of_eq rfl
  | terminal i => exact h.lt_arena_size_iff i

/-- A production applies as before. -/
theorem admits (hg : g.WellFormed) {nt i : Nat} {p : Production} (hp : g.production? nt i = some p)
    (la : Lookahead) :
    (r.lookahead la).admits (g'.firstTable.ofSymbols (r.production p).symbols)
        ((g'.followTable g'.firstTable).get (r.nonTerminal nt)) =
      la.admits (g.firstTable.ofSymbols p.symbols) ((g.followTable g.firstTable).get nt) := by
  have hempty := h.empty_ofSymbols hg p.symbols
  cases la with
  | endOfInput =>
      show (_ && _) = (_ && _)
      rw [← h.atEnd_followTable hg, ← hempty]
      rfl
  | terminal t =>
      show (_ || _ && _) = (_ || _ && _)
      rw [← h.contains_followTable hg, ← hempty,
        ← h.contains_ofSymbols hg fun s hs => hg.hasSymbol hp hs]
      rfl

variable {σ : Nat → Perm Nat} (hσ : ∀ nt i,
  g'.production? (r.nonTerminal nt) (σ nt i) = (g.production? nt i).map r.production)
include hσ

theorem candidates_perm (hg : g.WellFormed) (nt : Nat) (la : Lookahead) :
    (g'.candidates g'.firstTable (g'.followTable g'.firstTable) (r.nonTerminal nt)
        (r.lookahead la)).Perm
      ((g.candidates g.firstTable (g.followTable g.firstTable) nt la).map
        fun c => (σ nt c.1, c.2)) := by
  have hzip : ((g'.productionsOf (r.nonTerminal nt)).zipIdx).Perm
      ((g.productionsOf nt).zipIdx.map fun x => (r.production x.1, σ nt x.2)) :=
    zipIdx_perm (hσ nt)
  refine (hzip.filterMap _).trans (List.Perm.of_eq ?_)
  rw [candidates, List.filterMap_map, List.map_filterMap]
  refine List.filterMap_congr ?_
  rintro ⟨p, i⟩ hp
  have hadmits := h.admits hg (List.mk_mem_zipIdx_iff_getElem?.1 hp) la
  simp only [Function.comp_def, hadmits]
  split <;> rfl

/-- The table gives the productions of the other numbers. -/
theorem get?_allCells (hg : g.WellFormed) (nt : Nat) (la : Lookahead) :
    (g'.allCells g'.firstTable (g'.followTable g'.firstTable)).get? (r.nonTerminal nt)
        (r.lookahead la) =
      ((g.allCells g.firstTable (g.followTable g.firstTable)).get? nt la).map (σ nt) := by
  by_cases hin : nt < g.size ∧ la.column ≤ g.arena.size
  · have hnt : r.nonTerminal nt < g'.size := by
      rw [h.size_eq, h.lt_size_iff]
      exact hin.1
    rw [Grammar.get?_allCells hin.1 hin.2, Grammar.get?_allCells hnt ((h.column_le_iff la).2 hin.2)]
    exact (Cell.ofCandidates_perm (h.candidates_perm hσ hg nt la)).1
  · have hin' : ¬ (r.nonTerminal nt < g'.size ∧ (r.lookahead la).column ≤ g'.arena.size) := by
      rw [h.size_eq, h.lt_size_iff, h.column_le_iff]
      exact hin
    rw [get?_allCells_of_not hin, get?_allCells_of_not hin']
    rfl

/-! ## Parsing -/

variable (φ : Value → Value)

omit h in
theorem derives_tree {s : Symbol} {t : ParseTree} (ht : g.Derives s t) :
    g'.Derives (r.symbol s) (r.tree φ σ t) := by
  induction ht using Derives.rec_on with
  | token t => exact Derives.token (r.token φ t)
  | node nt p production children hp hc ih =>
      have hp' : g'.production? (r.nonTerminal nt) (σ nt p) = some (r.production production) := by
        rw [hσ, hp, Option.map_some]
      rw [Renumbering.tree_node]
      apply Derives.node hp'
      show List.Forall₂ _ (production.symbols.map r.symbol) _
      rw [List.forall₂_map_left_iff, List.forall₂_map_right_iff]
      exact ih.imp fun _ _ h => h.choose_spec

theorem guided_tree (hg : g.WellFormed) {t : ParseTree} {rest : List Token}
    (ht : Guided (g.allCells g.firstTable (g.followTable g.firstTable)) t rest) :
    Guided (g'.allCells g'.firstTable (g'.followTable g'.firstTable)) (r.tree φ σ t)
      (rest.map (r.token φ)) := by
  induction t using ParseTree.induct generalizing rest with
  | token t => trivial
  | node nt p children ih =>
      obtain ⟨hget, hchildren⟩ := ParseTree.guided_node_iff.1 ht
      rw [Renumbering.tree_node]
      refine ParseTree.guided_node_iff.2 ⟨?_, ?_⟩
      · rw [r.flatMap_tokens_tree, ← List.map_append, r.lookahead_tokens, h.get?_allCells hσ hg,
          hget, Option.map_some]
      · clear ht hget
        induction children with
        | nil => trivial
        | cons c cs ihs =>
            obtain ⟨hc, hcs⟩ := ParseTree.guidedAll_cons_iff.1 hchildren
            refine ParseTree.guidedAll_cons_iff.2 ⟨?_, ?_⟩
            · have hc' := ih c List.mem_cons_self hc
              rwa [List.map_append, ← r.flatMap_tokens_tree φ σ] at hc'
            · exact ihs (fun c' hc' => ih c' (List.mem_cons_of_mem _ hc')) hcs

/-- The parser finds the tree by the other numbers. -/
theorem parse_tree (hg : g.WellFormed) {tokens : List Token} {t : ParseTree}
    (ht : Parser.parse g (g.allCells g.firstTable (g.followTable g.firstTable)) tokens = .ok t) :
    Parser.parse g' (g'.allCells g'.firstTable (g'.followTable g'.firstTable))
      (tokens.map (r.token φ)) = .ok (r.tree φ σ t) := by
  obtain ⟨hderives, rfl, hguided⟩ := (Parser.parse_eq_ok_iff_guided (fits_allCells g _ _)).1 ht
  refine (Parser.parse_eq_ok_iff_guided (fits_allCells g' _ _)).2 ⟨?_, ?_, ?_⟩
  · rw [h.start_eq]
    exact derives_tree hσ φ hderives
  · exact r.tokens_tree φ σ t
  · exact h.guided_tree hσ φ hg hguided

omit h in
/-- The tree by the other numbers means the same, up to the kinds of nodes. -/
theorem meaning_tree (hsupplied : g.Supplied) {s : Symbol} {t : ParseTree} (ht : g.Derives s t) :
    Meaning.Renamed r.kind (g.Valued s) (t.meaning g)
      ((r.tree (Value.rename r.kind) σ t).meaning g') := by
  induction ht using Derives.rec_on with
  | token t => exact Meaning.renamed_plain rfl _
  | node nt i p children hp hc ih =>
      have hmem := mem_productionsOf_iff.2 ⟨i, hp⟩
      have hp' : g'.production? (r.nonTerminal nt) (σ nt i) = some (r.production p) := by
        rw [hσ, hp, Option.map_some]
      have hchildren : List.Forall₂ (fun s c => Meaning.Renamed r.kind (g.Valued s) (c.meaning g)
          ((r.tree (Value.rename r.kind) σ c).meaning g')) p.symbols children :=
        ih.imp fun _ _ h => h.choose_spec
      rw [Renumbering.tree_node, ParseTree.meaning_node, ParseTree.meaning_node, constructionOf_eq hp,
        constructionOf_eq hp', List.map_map]
      exact Meaning.renamed_ofNode (hsupplied nt p hmem) hchildren fun hv => hv p hmem

omit hσ

variable {φ}

/-- By other numbers the parser accepts the same tokens, whatever their values are. -/
theorem parse_ok_iff {ψ : Value → Value} (hψ : Function.LeftInverse ψ φ) (hg : g.WellFormed)
    (tokens : List Token) :
    (∃ t, Parser.parse g (g.allCells g.firstTable (g.followTable g.firstTable)) tokens = .ok t) ↔
      ∃ t, Parser.parse g' (g'.allCells g'.firstTable (g'.followTable g'.firstTable))
        (tokens.map (r.token φ)) = .ok t := by
  constructor
  · rintro ⟨t, ht⟩
    obtain ⟨σ, hσ⟩ := h.exists_production?_eq
    exact ⟨_, h.parse_tree hσ φ hg ht⟩
  · rintro ⟨t, ht⟩
    obtain ⟨σ, hσ⟩ := h.symm.exists_production?_eq
    have hback := h.symm.parse_tree hσ ψ (h.wellFormed hg) ht
    rw [r.map_token_symm φ hψ] at hback
    exact ⟨_, hback⟩

/-- By other numbers the parser yields the same values for the same tokens, up to the kinds of nodes. -/
theorem exists_parse_iff (hg : g.WellFormed) (hsupplied : g.Supplied)
    (hstart : g.Valued (.nonTerminal g.start)) (tokens : List Token) (v : Value) :
    (∃ t, Parser.parse g (g.allCells g.firstTable (g.followTable g.firstTable)) tokens = .ok t ∧
        t.value g = v) ↔
      ∃ t, Parser.parse g' (g'.allCells g'.firstTable (g'.followTable g'.firstTable))
        (tokens.map (r.token (Value.rename r.kind))) = .ok t ∧ t.value g' = v.rename r.kind := by
  obtain ⟨σ, hσ⟩ := h.exists_production?_eq
  have hvalue : ∀ t, Parser.parse g (g.allCells g.firstTable (g.followTable g.firstTable)) tokens =
      .ok t → (r.tree (Value.rename r.kind) σ t).value g' = (t.value g).rename r.kind := by
    intro t ht
    obtain ⟨hderives, -⟩ := (Parser.parse_eq_ok_iff_guided (fits_allCells g _ _)).1 ht
    exact (meaning_tree hσ hsupplied hderives).value hstart
  constructor
  · rintro ⟨t, ht, rfl⟩
    exact ⟨_, h.parse_tree hσ _ hg ht, hvalue t ht⟩
  · rintro ⟨t', ht', hv⟩
    obtain ⟨t, ht⟩ := (h.parse_ok_iff r.leftInverse_rename hg tokens).2 ⟨t', ht'⟩
    -- The parser finds one tree only.
    obtain rfl := Except.ok.inj ((h.parse_tree hσ _ hg ht).symm.trans ht')
    rw [hvalue t ht] at hv
    exact ⟨t, ht, r.leftInverse_rename.injective hv⟩

/-! ## What is derived from a grammar -/

theorem parseTable_ok (hg : g.WellFormed)
    (htable : ∃ table, g.parseTable g.firstTable (g.followTable g.firstTable) = .ok table) :
    ∃ table, g'.parseTable g'.firstTable (g'.followTable g'.firstTable) = .ok table := by
  obtain ⟨σ, hσ⟩ := h.exists_production?_eq
  obtain ⟨table, htable⟩ := htable
  obtain ⟨-, hties⟩ := parseTable_eq_ok_iff.1 htable
  refine ⟨_, parseTable_eq_ok_iff.2 ⟨rfl, ?_⟩⟩
  intro nt' hnt' la' hla' ps htied
  obtain ⟨nt, rfl⟩ := r.nonTerminal.surjective nt'
  obtain ⟨la, rfl⟩ : ∃ la, r.lookahead la = la' := by
    cases la' with
    | endOfInput => exact ⟨.endOfInput, rfl⟩
    | terminal i => exact ⟨.terminal (r.terminal.symm i), by simp [Renumbering.lookahead]⟩
  rw [h.size_eq, h.lt_size_iff] at hnt'
  rw [h.column_le_iff] at hla'
  obtain ⟨ps', htied'⟩ := (Cell.ofCandidates_perm (h.candidates_perm hσ hg nt la)).2 ⟨ps, htied⟩
  exact hties nt hnt' la hla' ps' htied'

theorem mem_terminals_iff (t : Terminal) : t ∈ g'.arena.terminals ↔ t ∈ g.arena.terminals := by
  rw [List.mem_iff_getElem?, List.mem_iff_getElem?]
  constructor
  · rintro ⟨i, hi⟩
    obtain ⟨j, rfl⟩ := r.terminal.surjective i
    exact ⟨j, (h.get? j).symm.trans hi⟩
  · rintro ⟨i, hi⟩
    exact ⟨r.terminal i, (h.get? i).trans hi⟩

theorem ofGrammar_ok (hg : g.WellFormed) (hok : ∃ compiled, Compiled.ofGrammar g = .ok compiled) :
    ∃ compiled, Compiled.ofGrammar g' = .ok compiled := by
  obtain ⟨hrecursion, htable, hpatterns⟩ := Compiled.ofGrammar_ok_iff.1 hok
  refine Compiled.ofGrammar_ok_iff.2 ⟨?_, h.parseTable_ok hg htable, fun c hc => ?_⟩
  · exact h.symm.checkLeftRecursion_eq_ok (h.wellFormed hg) hrecursion
  · exact hpatterns c ((h.mem_terminals_iff _).1 hc)

/-- Everything can be derived from a grammar if it can be by other numbers. -/
theorem ofGrammar_ok_iff (hg : g.WellFormed) :
    (∃ compiled, Compiled.ofGrammar g = .ok compiled) ↔
      ∃ compiled, Compiled.ofGrammar g' = .ok compiled :=
  ⟨h.ofGrammar_ok hg, h.symm.ofGrammar_ok (h.wellFormed hg)⟩

end Renumbers

end Grammar

end SmallLang
