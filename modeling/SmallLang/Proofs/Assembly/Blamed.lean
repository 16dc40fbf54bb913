import SmallLang.Proofs.Lookahead.Resolved
import SmallLang.Proofs.Operator.Asked
import SmallLang.Proofs.Renumbering.Language

/-!
# Which non-terminals assembly is refused for

The checks on a grammar look at all its non-terminals, also at those that cannot be reached from the
start. So a type that nothing asks for can be the reason for a refusal (`unusedTypes`). What the start
asks for is blamed only where it can be reached, except for the numbers that stratification leaves over:
types without operators whose productions other levels carry
(`Language.exists_blamed_of_assemble`).
-/

set_option autoImplicit false

namespace SmallLang

open Relation (TransGen)

/-- The name of the non-terminal that a check on the grammar has refused. -/
def AssemblyError.nonTerminal? : AssemblyError → Option String
  | leftRecursion nonTerminal => some nonTerminal
  | ambiguous nonTerminal _ _ => some nonTerminal
  | _ => none

theorem Except.bind_eq_error_iff {ε α β : Type} {x : Except ε α} {f : α → Except ε β} {err : ε} :
    x >>= f = .error err ↔ x = .error err ∨ ∃ a, x = .ok a ∧ f a = .error err := by
  cases x with
  | error err' => simp [bind, Except.bind]
  | ok a => simp [bind, Except.bind]

theorem exists_of_mapM_eq_error {ε α β : Type} {f : α → Except ε β} {xs : List α} {e : ε}
    (h : xs.mapM f = .error e) : ∃ x, f x = .error e := by
  induction xs with
  | nil => exact absurd h (by simp [pure, Except.pure])
  | cons x xs ih =>
      rw [List.mapM_cons] at h
      rcases Except.bind_eq_error_iff.1 h with hx | ⟨y, -, h⟩
      · exact ⟨x, hx⟩
      rcases Except.bind_eq_error_iff.1 h with h | ⟨ys, -, h⟩
      · exact ih h
      · exact absurd h (by simp [pure, Except.pure])

namespace Scanner

variable {compile? : String → Option (List Char → Option Nat)}

/-- Literals always have a recognizer, and classes have one if their pattern can be read. -/
theorem exists_invalidPattern_of_recognizer {t : Terminal} {e : AssemblyError}
    (h : recognizer compile? t = .error e) : ∃ terminal, e = .invalidPattern terminal := by
  cases t with
  | literal text => exact absurd h (by simp [recognizer])
  | ofClass c =>
      simp only [recognizer] at h
      split at h
      · exact absurd h (by simp)
      · exact ⟨c.name, (Except.error.inj h).symm⟩

/-- A scanner is refused for a pattern and nothing else. -/
theorem exists_invalidPattern {arena : Arena} {e : AssemblyError}
    (h : ofArena compile? arena = .error e) : ∃ terminal, e = .invalidPattern terminal := by
  rw [ofArena] at h
  cases hmap : arena.terminals.mapM (recognizer compile?) with
  | ok rs => exact absurd h (by simp [hmap, Except.map])
  | error err =>
      obtain rfl : err = e := by simpa [hmap, Except.map] using h
      obtain ⟨t, ht⟩ := exists_of_mapM_eq_error hmap
      exact exists_invalidPattern_of_recognizer ht

end Scanner

namespace Grammar

/-! ## Blame -/

/-- The error is about this non-terminal of the grammar. -/
inductive Blames (g : Grammar) : AssemblyError → Nat → Prop
  /-- It can come first in what it derives. -/
  | leftRecursion {nt : Nat} (hpath : TransGen (g.LeftCorner g.firstTable) nt nt) :
      Blames g (.leftRecursion (g.nameOf nt)) nt
  /-- It has the first cell that is tied. -/
  | ambiguous {nt : Nat} {la : Lookahead} {ps : List Nat}
      (htie : g.IsFirstTie g.firstTable (g.followTable g.firstTable) nt la ps) :
      Blames g (.ambiguous (g.nameOf nt) (la.render g.arena) (ps.map (g.renderNumbered nt))) nt

section

variable {g : Grammar}

theorem Blames.nonTerminal? {e : AssemblyError} {nt : Nat} (h : g.Blames e nt) :
    e.nonTerminal? = some (g.nameOf nt) := by
  cases h with
  | leftRecursion => rfl
  | ambiguous => rfl

/-- A tie is one between two productions. -/
theorem IsTied.ne_singleton {first : FirstTable g.arena.size} {follow : FollowTable g.arena.size}
    {nt : Nat} {la : Lookahead} (h : g.IsTied first follow nt la) (p : Production) :
    g.productionsOf nt ≠ [p] := by
  intro honly
  obtain ⟨i, j, hne, ⟨⟨q, hq, -⟩, -⟩, ⟨⟨q', hq', -⟩, -⟩⟩ := h
  rw [production?, honly] at hq hq'
  obtain ⟨hi, -⟩ := List.getElem?_eq_some_iff.1 hq
  obtain ⟨hj, -⟩ := List.getElem?_eq_some_iff.1 hq'
  rw [List.length_singleton] at hi hj
  omega

theorem Blames.lt {e : AssemblyError} {nt : Nat} (h : g.Blames e nt) : nt < g.size := by
  cases h with
  | leftRecursion hpath =>
      obtain ⟨i, -, hedge⟩ := TransGen.tail'_iff.1 hpath
      exact hedge.2
  | ambiguous htie =>
      obtain ⟨i, j, -, ⟨⟨q, hq, -⟩, -⟩, -⟩ := htie.tied
      exact lt_size_of_production? hq

/-- A non-terminal with one production is blamed only if what this production begins with leads back to
it. -/
theorem Blames.mem_reachable_of_grounded (hg : g.WellFormed) {e : AssemblyError} {nt : Nat}
    (h : g.Blames e nt) {p : Production} (honly : g.productionsOf nt = [p])
    (hground : g.Grounded nt) : nt ∈ g.reachable := by
  cases h with
  | leftRecursion hpath => exact hg.mem_reachable_of_path hground hpath
  | ambiguous htie => exact absurd honly (htie.tied.ne_singleton p)

/-- A refusal that names a non-terminal blames one of the grammar. -/
theorem WellFormed.exists_blames (hg : g.WellFormed) {e : AssemblyError} {name : String}
    (he : Compiled.ofGrammar g = .error e) (hname : e.nonTerminal? = some name) :
    ∃ nt, g.Blames e nt := by
  -- The error is that of the first check that fails.
  rcases Except.bind_eq_error_iff.1 he with hrecursion | ⟨-, -, he⟩
  · unfold checkLeftRecursion leftRecursive? at hrecursion
    cases hsearch : depthFirst g.size (g.leftCornersOf g.firstTable) [] [] (List.range g.size) with
    | ok done => exact absurd hrecursion (by simp [hsearch])
    | error nt =>
        simp only [hsearch, Except.error.injEq] at hrecursion
        have hpath := path_self_of_depthFirst
          (fun v w hw => hg.symbolsExist.lt_of_mem_leftCornersOf hw)
          (fun a ha => absurd ha List.not_mem_nil) hsearch
        exact ⟨nt, hrecursion ▸ .leftRecursion hpath⟩
  rcases Except.bind_eq_error_iff.1 he with htable | ⟨table, -, he⟩
  · unfold parseTable at htable
    simp only at htable
    split at htable
    · exact absurd htable (by simp)
    · rename_i nt la ps hfirst
      obtain rfl := Except.error.inj htable
      exact ⟨nt, .ambiguous (firstTie?_eq_some hfirst)⟩
  rcases Except.bind_eq_error_iff.1 he with hscanner | ⟨scanner, -, he⟩
  · obtain ⟨terminal, rfl⟩ := Scanner.exists_invalidPattern hscanner
    exact absurd hname (by simp [AssemblyError.nonTerminal?])
  · exact absurd he (by simp [pure, Except.pure])

end

/-! ## To whom a non-terminal belongs -/

/-- The second non-terminal of the stratified grammar was made for the first one of the grammar that
stratification began with: it is this one itself, a part of its ladder, or the tail that begins with an
operator that this one declares. -/
inductive Owns (g : Grammar) : Nat → Nat → Prop
  | self {nt : Nat} (hnt : nt < g.size) : Owns g nt nt
  | head {x k : Nat} (hx : x < g.size) (hladder : g.HasLadder x) (hpos : 0 < k)
      (hk : k < (g.ladder x).height) : Owns g x ((g.ladder x).head k)
  | tail {x k : Nat} (hx : x < g.size) (hladder : g.HasLadder x) (hk : k < (g.ladder x).height) :
      Owns g x ((g.ladder x).tail k)
  | atom {x : Nat} (hx : x < g.size) (hladder : g.HasLadder x) : Owns g x (g.ladder x).atom
  | forced {x m i j : Nat} {op : OperatorUse} (hx : x < g.size) (hfinds : g.Finds x m i j op) :
      Owns g m ((g.ladder x).forced j)

/-- A type without operators that the stratified grammar cannot reach any more, since other levels carry
its productions. -/
structure LeftOver (g : Grammar) (nt : Nat) : Prop where
  unreached : nt ∉ g.stratify.reachable
  noLadder : ¬ g.HasLadder nt
  carried : ∃ x, g.Carries x nt

/-- Every non-terminal of the stratified grammar belongs to one that was there before. -/
theorem exists_owns (g : Grammar) {nt : Nat} (hnt : nt < g.stratify.size) : ∃ o, g.Owns o nt := by
  have hstage : ∀ k ≤ g.size, ∀ nt < (g.stage k).size, ∃ o, g.Owns o nt := by
    intro k
    induction k with
    | zero => exact fun _ nt hnt => ⟨nt, .self hnt⟩
    | succ k ih =>
        intro hk nt hnt
        by_cases hladder : g.HasLadder k
        · rw [stage_succ] at hnt
          rcases lt_size_stratifyAt_cases hladder hnt with
            hold | ⟨i, hpos, hi, rfl⟩ | ⟨i, hi, rfl⟩ | rfl | ⟨j, hj, rfl⟩
          · exact ih (Nat.le_of_succ_le hk) nt hold
          · exact ⟨k, .head hk hladder hpos hi⟩
          · exact ⟨k, .tail hk hladder hi⟩
          · exact ⟨k, .atom hk hladder⟩
          · -- Only what another type declares is forced.
            have hget : (g.declaredAt k)[j]? = some (g.declaredAt k)[j] :=
              List.getElem?_eq_getElem hj
            have hsome := (mem_declaredAt_iff.1 (List.mem_of_getElem? hget)).2
            obtain ⟨⟨m, i⟩, ho⟩ := Option.isSome_iff_exists.1 hsome
            exact ⟨m, .forced hk ⟨hget, ho⟩⟩
        · rw [stage_succ_of_hasLadder hladder] at hnt
          exact ih (Nat.le_of_succ_le hk) nt hnt
  exact hstage g.size (Nat.le_refl _) nt (by rwa [stratify_eq_stage] at hnt)

namespace Staged

variable {types : Nat} {g : Grammar} (h : g.Staged types g.size) (hg : g.stratify.WellFormed)
include h hg

/-- What the start asks for is in use if it has a ladder. -/
theorem inUse_of_asked {x : Nat} (hasked : g.Asked x) (hx : x < g.size) (hladder : g.HasLadder x) :
    g.InUse x := by
  rcases h.mem_reachable_or_carried hg hasked with hmem | ⟨y, hy⟩
  · exact h.inUse_of_mem_reachable hg hladder hx hmem
  · exact h.inUse_of_carries hg hy hladder

/-- The tail of a forced operator leads to what can be reached, if the start asks for the type that
declares the operator. -/
theorem mem_reachable_or_grounded_forced {x m i j : Nat} {op : OperatorUse} (hx : x < g.size)
    (hfinds : g.Finds x m i j op) (hasked : g.Asked m) :
    (g.ladder x).forced j ∈ g.stratify.reachable ∨
      g.stratify.Grounded ((g.ladder x).forced j) := by
  have hms : m < g.size := Nat.lt_of_lt_of_le (h.lt_of_finds hx hfinds) h.types_le
  have hmem : .nonTerminal ((g.ladder x).forced j) ∈ (g.forcedProduction x j op).symbols := by
    simp [forcedProduction, Ladder.climbProduction]
  by_cases hladder : g.HasLadder m
  · have hm := (h.inUse_of_asked hg hasked hms hladder).carries_self
    exact Or.inr (h.grounded_of_finds hg hm hx hfinds hmem)
  rcases h.mem_reachable_or_carried hg hasked with hm | ⟨y, hy⟩
  · obtain ⟨q, -, -, hq, -, -, -⟩ := h.exists_of_finds hx hfinds
    obtain ⟨j', hfinds', heq⟩ := h.exists_forcedProduction (Nat.le_refl _) hx hq hfinds
    obtain ⟨rfl, -⟩ := hfinds.unique hfinds'
    have hp := h.arranged_mem_productionsOf hladder hq
    rw [heq] at hp
    exact Or.inl (hg.grounded hm _ hp _ hmem)
  · exact Or.inr (h.grounded_of_finds hg hy hx hfinds hmem)

/-- A non-terminal that is blamed can be reached, or belongs to one that the start does not ask for, or is
left over. -/
theorem mem_reachable_or_unasked_or_leftOver {e : AssemblyError} {nt : Nat}
    (hblames : g.stratify.Blames e nt) :
    nt ∈ g.stratify.reachable ∨ (∃ o, g.Owns o nt ∧ ¬ g.Asked o) ∨
      g.LeftOver nt ∧
        (TransGen (g.stratify.LeftCorner g.stratify.firstTable) nt nt →
          TransGen g.UnitStep nt nt) := by
  obtain ⟨o, howns⟩ := g.exists_owns hblames.lt
  by_cases hasked : g.Asked o
  · by_cases hmem : nt ∈ g.stratify.reachable
    · exact Or.inl hmem
    -- The parts of a ladder in use are reached, so only a declared number can be left over.
    refine Or.inr (Or.inr ?_)
    cases howns with
    | self hnt =>
        have hladder : ¬ g.HasLadder nt := by
          intro hladder
          have hx := h.inUse_of_asked hg hasked hnt hladder
          exact hmem (hblames.mem_reachable_of_grounded hg
            (h.productionsOf_head_stratify hladder hnt hladder.height_pos) (h.grounded_of_inUse hx))
        obtain ⟨x, hx⟩ := (h.mem_reachable_or_carried hg hasked).resolve_left hmem
        exact ⟨⟨hmem, hladder, x, hx⟩, h.path_unitStep hg hx hmem⟩
    | head hx hladder hpos hk =>
        exact absurd (h.head_mem_reachable hg (h.inUse_of_asked hg hasked hx hladder) hpos hk) hmem
    | tail hx hladder hk =>
        exact absurd (h.level_mem_reachable hg (h.inUse_of_asked hg hasked hx hladder) hk).2 hmem
    | atom hx hladder =>
        exact absurd (h.atom_mem_reachable hg (h.inUse_of_asked hg hasked hx hladder)) hmem
    | forced hx hfinds =>
        have hground := (h.mem_reachable_or_grounded_forced hg hx hfinds hasked).resolve_left hmem
        exact absurd (hblames.mem_reachable_of_grounded hg
          (h.productionsOf_forced_stratify hx hfinds) hground) hmem
  · exact Or.inr (Or.inl ⟨o, howns, hasked⟩)

end Staged

end Grammar

/-! ## Refusals of assembly -/

namespace Language

/-- The name of the non-terminal that assembly is refused for. -/
def refusedFor? (types : List NodeType) (config : Config) : Option String :=
  match assemble types config with
  | .ok _ => none
  | .error e => e.nonTerminal?

theorem exists_of_refusedFor? {types : List NodeType} {config : Config} {name : String}
    (h : refusedFor? types config = some name) :
    ∃ e, assemble types config = .error e ∧ e.nonTerminal? = some name := by
  unfold refusedFor? at h
  cases he : assemble types config with
  | ok l => exact absurd h (by simp [he])
  | error e => exact ⟨e, rfl, by simpa [he] using h⟩

/-- If assembly of types that can be lowered is refused for a non-terminal, then this non-terminal can be
reached from the start of the stratified grammar, or belongs to one that the start does not ask for, or is
left over from stratification. One that is left over is left recursive only if types replace each other in
a circle. -/
theorem exists_blamed_of_assemble {declared : List NodeType} {lowered : Lowered} {config : Config}
    {e : AssemblyError} {name : String} (hbuilt : ∀ t ∈ declared, t.Built)
    (hlower : lower declared = .ok lowered) (he : assemble declared config = .error e)
    (hname : e.nonTerminal? = some name) :
    ∃ nt, lowered.grammar.stratify.nameOf nt = name ∧ lowered.grammar.stratify.Blames e nt ∧
      (nt ∈ lowered.grammar.stratify.reachable ∨
        (∃ o, lowered.grammar.Owns o nt ∧ ¬ lowered.grammar.Asked o) ∨
        lowered.grammar.LeftOver nt ∧
          (e = .leftRecursion name → TransGen lowered.grammar.UnitStep nt nt)) := by
  obtain ⟨hstaged, hstart, -⟩ := staged_of_lower hlower hbuilt
  have hg := hstaged.wellFormed_stratify hstart
  obtain hfailed | ⟨lowered', hlower', he⟩ := Except.bind_eq_error_iff.1 he
  · exact absurd (hlower.symm.trans hfailed) (by simp)
  obtain rfl := Except.ok.inj (hlower.symm.trans hlower')
  obtain hcompiled | ⟨compiled, -, he⟩ := Except.bind_eq_error_iff.1 he
  · obtain ⟨nt, hblames⟩ := hg.exists_blames hcompiled hname
    have hnt : lowered.grammar.stratify.nameOf nt = name :=
      Option.some.inj (hblames.nonTerminal?.symm.trans hname)
    refine ⟨nt, hnt, hblames, ?_⟩
    rcases hstaged.mem_reachable_or_unasked_or_leftOver hg hblames with
      hmem | howner | ⟨hleft, hunits⟩
    · exact Or.inl hmem
    · exact Or.inr (Or.inl howner)
    · refine Or.inr (Or.inr ⟨hleft, ?_⟩)
      rintro rfl
      cases hblames with
      | leftRecursion hpath => exact hunits hpath
  · exact absurd he (by simp [pure, Except.pure])

/-- A program, and a type with two equal bodies that nothing asks for. -/
def unusedTypes : List NodeType :=
  [((NodeType.named "Program").generates [.literal "x"] Prec.default).start,
    ((NodeType.named "Unused").generates [.literal "a"] Prec.default).generates [.literal "a"]
      Prec.default]

theorem built_unusedTypes : ∀ t ∈ unusedTypes, t.Built := by
  intro t ht
  simp only [unusedTypes, List.mem_cons, List.not_mem_nil, or_false] at ht
  rcases ht with rfl | rfl
  · exact ((NodeType.Built.named _).generates _ _).start
  · exact ((NodeType.Built.named _).generates _ _).generates _ _

set_option maxRecDepth 4000 in
theorem exists_refused_unusedTypes :
    ∃ lowered e, lower unusedTypes = .ok lowered ∧ assemble unusedTypes .quiet = .error e ∧
      e.nonTerminal? = some "Unused" ∧
      ∀ nt ∈ lowered.grammar.stratify.reachable, lowered.grammar.stratify.nameOf nt = "Program" := by
  have hcheck : (lower unusedTypes).toOption.any (fun l =>
      l.grammar.stratify.reachable.all (l.grammar.stratify.nameOf · == "Program")) = true := by
    cbv
  have hrefused : refusedFor? unusedTypes .quiet = some "Unused" := by
    cbv
  obtain ⟨lowered, hlower, hreachable⟩ := Except.exists_of_any hcheck
  obtain ⟨e, he, hname⟩ := exists_of_refusedFor? hrefused
  exact ⟨lowered, e, hlower, he, hname,
    fun nt hnt => eq_of_beq (List.all_eq_true.1 hreachable nt hnt)⟩

theorem exists_blamed_of_assemble_unusedTypes :
    ∃ lowered e nt, lower unusedTypes = .ok lowered ∧ assemble unusedTypes .quiet = .error e ∧
      lowered.grammar.stratify.nameOf nt = "Unused" ∧ lowered.grammar.stratify.Blames e nt ∧
      ((∃ o, lowered.grammar.Owns o nt ∧ ¬ lowered.grammar.Asked o) ∨
        lowered.grammar.LeftOver nt) := by
  obtain ⟨lowered, e, hlower, he, hname, hreachable⟩ := exists_refused_unusedTypes
  obtain ⟨nt, hnt, hblames, hcases⟩ :=
    exists_blamed_of_assemble built_unusedTypes hlower he hname
  refine ⟨lowered, e, nt, hlower, he, hnt, hblames, ?_⟩
  rcases hcases with hmem | howner | ⟨hleft, -⟩
  · exact absurd (hnt.symm.trans (hreachable nt hmem)) (by decide)
  · exact Or.inl howner
  · exact Or.inr hleft

/-- The refused non-terminal need not be reachable: assembly looks at types that nothing asks for as
well. -/
theorem not_mem_reachable_of_assemble :
    ¬ ∀ (declared : List NodeType) (lowered : Lowered) (config : Config) (e : AssemblyError)
      (name : String), (∀ t ∈ declared, t.Built) → lower declared = .ok lowered →
        assemble declared config = .error e → e.nonTerminal? = some name →
          ∃ nt ∈ lowered.grammar.stratify.reachable, lowered.grammar.stratify.nameOf nt = name := by
  intro hall
  obtain ⟨lowered, e, hlower, he, hname, hreachable⟩ := exists_refused_unusedTypes
  obtain ⟨nt, hmem, hnt⟩ := hall unusedTypes lowered .quiet e "Unused" built_unusedTypes hlower he hname
  exact absurd (hnt.symm.trans (hreachable nt hmem)) (by decide)

/-- Names, and ranges that have a word between their ends or before them. -/
def rangeTypes : List NodeType :=
  [(NodeType.named "Expr").start,
    ((NodeType.named "Name").generates [.field "name" (.terminal (.literal "x")) none]
      Prec.default).replaces "Expr" Prec.default,
    (((NodeType.named "Range").generates
      [.field "low" (.node "Expr") none, .literal "to", .field "high" (.node "Expr") none]
      ⟨.left, 10⟩).generates
      [.literal "range", .field "low" (.node "Expr") none, .field "high" (.node "Expr") none]
      Prec.default).replaces "Expr" Prec.default]

-- The levels of `Expr` have both bodies, and only the number that is left over for `Range` is tied.
set_option maxRecDepth 4000 in
example : refusedFor? rangeTypes .quiet = some "Range" := by
  cbv

end Language

end SmallLang
