import SmallLang.Proofs.Priorities.Ladder
import SmallLang.Proofs.Renumbering.Language

/-!
# Languages with other priorities

Only the order of priorities matters. If one non-terminal only has operators, and every other non-terminal
that declares one of them declares nothing else (`Grammar.OperatorsAt`), the images of all priorities under
an increasing map give the same language: it assembles if the first one does, decides the same cells, and
parses every row of tokens to the same value or the same error (`Language.sameResults_regrade`).

Without the condition the map would have to know the priorities that stratification itself gives: a
production that declares an operator becomes a climb of the default priority, and competes with the other
productions of its non-terminal. The end of a tail has the lowest priority of all, which no declared
production may have.
-/

set_option autoImplicit false

namespace SmallLang

namespace Grammar

/-- Only `e` has operators, and every other non-terminal that declares one has no other production. A
production by which it only hands on itself does not count. -/
structure OperatorsAt (g : Grammar) (e : Nat) : Prop where
  lt : e < g.size
  only : ∀ x < g.size, x ≠ e → g.operatorsOn x = []
  alone : ∀ op ∈ g.operatorsOn e, ∀ origin ∈ op.origin.toList,
    ∀ x ∈ (g.productionsOf origin.1).zipIdx, x.2 ≠ origin.2 → x.1.symbols = [.nonTerminal origin.1]

instance (g : Grammar) (e : Nat) : Decidable (g.OperatorsAt e) :=
  decidable_of_iff
    ((decide (e < g.size) &&
      (List.range g.size).all (fun x => decide (x ≠ e → g.operatorsOn x = [])) &&
      (g.operatorsOn e).all fun op => op.origin.toList.all fun origin =>
        (g.productionsOf origin.1).zipIdx.all fun x =>
          decide (x.2 ≠ origin.2 → x.1.symbols = [.nonTerminal origin.1])) = true) (by
    simp only [Bool.and_eq_true, List.all_eq_true, decide_eq_true_eq, List.mem_range]
    exact ⟨fun ⟨⟨hlt, honly⟩, halone⟩ => ⟨hlt, honly, halone⟩, fun h => ⟨⟨h.lt, h.only⟩, h.alone⟩⟩)

variable {g : Grammar} {e types : Nat} {f : Int32 → Int32} {ps : List Int32}

theorem OperatorsAt.regrade (h : g.OperatorsAt e) (f : Int32 → Int32) : (g.regrade f).OperatorsAt e := by
  refine ⟨h.lt.trans_eq (size_regrade g f).symm, fun x hx hne => ?_, ?_⟩
  · rw [size_regrade] at hx
    rw [operatorsOn_regrade, h.only x hx hne, List.map_nil]
  · intro op hop origin horigin x hx hne
    rw [operatorsOn_regrade] at hop
    obtain ⟨use, huse, rfl⟩ := List.mem_map.1 hop
    rw [productionsOf_regrade, List.zipIdx_map] at hx
    obtain ⟨y, hy, rfl⟩ := List.mem_map.1 hx
    exact h.alone use huse origin horigin y hy hne

/-! ## One step of stratification -/

namespace Staged

variable (h : g.Staged types g.size)
include h

/-- The step of a non-terminal without operators finds none. -/
theorem not_hasLadder {x : Nat} (hx : x < g.size) (hops : g.operatorsOn x = []) : ¬ g.HasLadder x := by
  intro hladder
  obtain ⟨op, hop⟩ := List.exists_mem_of_ne_nil _ hladder
  obtain ⟨m, i, q, hm, -, hq, hisop, rfl⟩ := (h.mem_usesAt_iff hx).1 hop
  have hclosure : m ∈ g.unitClosure x := by
    refine h.closureAt_induction (motive := (· ∈ g.unitClosure x)) hx hm (self_mem_unitClosure g x) ?_
    intro a b _ _ hab ha
    exact mem_unitClosure_iff.2 ((mem_unitClosure_iff.1 ha).tail hab)
  have hmem := mem_operatorsOn_iff.2 ⟨m, i, q, hclosure, hq, hisop, rfl⟩
  rw [hops] at hmem
  exact absurd hmem List.not_mem_nil

/-- If only one non-terminal has operators, its step is the only one that does anything. -/
theorem stratify_eq_stratifyAt (hat : g.OperatorsAt e) : g.stratify = g.stratifyAt e := by
  have hno : ∀ x < g.size, x ≠ e → ¬ g.HasLadder x := fun x hx hne =>
    h.not_hasLadder hx (hat.only x hx hne)
  have hbefore : ∀ k ≤ e, g.stage k = g := by
    intro k
    induction k with
    | zero => exact fun _ => rfl
    | succ k ih =>
        intro hk
        have hlt : k < g.size := Nat.lt_trans hk hat.lt
        rw [stage_succ_of_hasLadder (hno k hlt (Nat.ne_of_lt hk)), ih (Nat.le_of_succ_le hk)]
  have hafter : ∀ k, e < k → k ≤ g.size → g.stage k = g.stratifyAt e := by
    intro k hek
    induction hek with
    | refl => exact fun _ => by rw [stage_succ, hbefore e (Nat.le_refl e)]
    | @step k hek ih =>
        intro hk
        rw [stage_succ_of_hasLadder (hno k hk (Nat.ne_of_gt hek)), ih (Nat.le_of_lt hk)]
  rw [stratify_eq_stage]
  exact hafter g.size hat.lt (Nat.le_refl _)

theorem regrade (f : Int32 → Int32) : (g.regrade f).Staged types (g.regrade f).size := by
  rw [size_regrade]
  refine ⟨h.types_le, Nat.le_of_eq (size_regrade g f).symm, fun i _ p hp => ?_, fun i p hp s hs => ?_⟩
  · rw [productionsOf_regrade] at hp
    obtain ⟨q, hq, rfl⟩ := List.mem_map.1 hp
    exact Or.inl (by cases h.declared_of_mem hq <;> constructor <;> assumption)
  · rw [productionsOf_regrade] at hp
    obtain ⟨q, hq, rfl⟩ := List.mem_map.1 hp
    have hsymbol := h.hasSymbol i q hq s hs
    cases s with
    | nonTerminal j => exact hsymbol.trans_eq (size_regrade g f).symm
    | terminal j => exact hsymbol

/-- Stratification puts the same levels in the places of priorities in the same order. -/
theorem regrades_stratify (hat : g.OperatorsAt e) (hf : IncreasingOn f ps)
    (hps : ∀ nt, ∀ p ∈ g.productionsOf nt, p.prec.priority ∈ ps) :
    g.stratify.Regrades (Production.rank f) (g.regrade f).stratify := by
  rw [h.stratify_eq_stratifyAt hat, (h.regrade f).stratify_eq_stratifyAt (hat.regrade f)]
  by_cases hops : g.operatorsOn e = []
  · rw [stratifyAt_of_eq_nil hops, stratifyAt_of_eq_nil (by rw [operatorsOn_regrade, hops]; rfl)]
    refine ⟨rfl, rfl, size_regrade g f, fun nt => by rw [nameOf_regrade], fun nt => ?_⟩
    rw [productionsOf_regrade]
    exact List.map_congr_left fun p hp => (h.declared_of_mem hp).regrade_eq f
  · exact regrades_stratifyAt hf hps hops h hat.lt

end Staged

/-! ## The order of productions -/

/-- A grammar that is not refused has no production that begins with its own non-terminal. -/
theorem symbols_ne_of_checkLeftRecursion {first : FirstTable g.arena.size}
    (h : g.checkLeftRecursion first = .ok ()) {nt i : Nat} {p : Production}
    (hp : g.production? nt i = some p) (rest : List Symbol) : p.symbols ≠ .nonTerminal nt :: rest := by
  intro hsymbols
  have hlt := lt_size_of_production? hp
  have hcorner : nt ∈ g.leftCornersOf first nt := by
    refine List.mem_flatMap.2 ⟨p, mem_productionsOf_iff.2 ⟨i, hp⟩, ?_⟩
    rw [hsymbols, leftCorners]
    exact List.mem_cons_self
  exact not_path_self_of_checkLeftRecursion h hlt (.single ⟨hcorner, hlt⟩)

/-- A non-terminal that declares an operator of another one has no other production. -/
theorem OperatorsAt.eq_of_origin (hat : g.OperatorsAt e)
    (hrecursion : (g.stratifyAt e).checkLeftRecursion (g.stratifyAt e).firstTable = .ok ())
    {op : OperatorUse} {m i k : Nat} {p : Production} (hop : op ∈ g.operatorsOn e)
    (ho : op.origin = some (m, i)) (hp : g.production? m k = some p) : k = i := by
  by_contra hne
  have hmem : (p, k) ∈ (g.productionsOf m).zipIdx := List.mk_mem_zipIdx_iff_getElem?.2 hp
  have hself : p.symbols = [.nonTerminal m] :=
    hat.alone op hop (m, i) (by rw [ho]; exact List.mem_singleton.2 rfl) (p, k) hmem hne
  obtain ⟨-, -, -, -, hme, -⟩ := exists_of_origin hop ho
  -- Such a production declares no operator, so it stays, and the grammar is left recursive.
  have hnot : ¬ ∃ op ∈ g.operatorsOn e, op.origin = some (m, k) := by
    rintro ⟨op', hop', ho'⟩
    obtain ⟨q, -, hq, hisop, -, -⟩ := exists_of_origin hop' ho'
    obtain rfl : p = q := Option.some.inj (hp.symm.trans hq)
    obtain ⟨s, rest, hs⟩ := Production.isOperatorOn_iff.1 hisop
    rw [hself] at hs
    exact absurd hs (by simp)
  have hkept := production?_stratifyAt (lt_size_of_production? hp) (Or.inl hme) k
  rw [hp, Option.map_some, keptProduction_of_not hnot] at hkept
  exact symbols_ne_of_checkLeftRecursion hrecursion hkept [] hself

section Order

variable (hf : IncreasingOn f ps)
include hf

theorem orderedAlike_of_rank_eq {qs : List Production}
    (h : ∀ q ∈ qs, q.rank f = f q.prec.priority ∧ q.prec.priority ∈ ps) :
    OrderedAlike (Production.rank f) qs := by
  intro p hp q hq
  rw [(h p hp).1, (h q hq).1, hf.lt_iff (h p hp).2 (h q hq).2]

variable (hps : ∀ nt, ∀ p ∈ g.productionsOf nt, p.prec.priority ∈ ps)
include hps

/-- Declared productions are ordered as their priorities are. -/
theorem Staged.orderedAlike_declared (h : g.Staged types g.size) (nt : Nat) :
    OrderedAlike (Production.rank f) (g.productionsOf nt) := by
  apply orderedAlike_of_rank_eq hf
  intro p hp
  exact ⟨(h.declared_of_mem hp).rank_eq f, hps nt p hp⟩

/-- A non-terminal that declares no operator keeps its productions, and one that declares one has no
other. -/
theorem Staged.orderedAlike_kept (h : g.Staged types g.size) (hat : g.OperatorsAt e)
    (hrecursion : (g.stratifyAt e).checkLeftRecursion (g.stratifyAt e).firstTable = .ok ())
    (hops : g.operatorsOn e ≠ []) {nt : Nat} (hold : nt < g.size) (hne : nt ≠ e) :
    OrderedAlike (Production.rank f) ((g.stratifyAt e).productionsOf nt) := by
  intro p hp q hq
  obtain ⟨i, hi⟩ := mem_productionsOf_iff.1 hp
  obtain ⟨k, hk⟩ := mem_productionsOf_iff.1 hq
  rw [production?_kept hops hold hne, Option.map_eq_some_iff] at hi hk
  obtain ⟨p, hi, rfl⟩ := hi
  obtain ⟨q, hk, rfl⟩ := hk
  by_cases hdeclares : ∃ op ∈ g.operatorsOn e, ∃ j, op.origin = some (nt, j)
  · obtain ⟨op, hop, j, ho⟩ := hdeclares
    obtain rfl := hat.eq_of_origin hrecursion hop ho hi
    obtain rfl := hat.eq_of_origin hrecursion hop ho hk
    obtain rfl := Option.some.inj (hi.symm.trans hk)
    exact iff_of_false Int32.lt_irrefl Int32.lt_irrefl
  · have hnot : ∀ j, ¬ ∃ op ∈ g.operatorsOn e, op.origin = some (nt, j) :=
      fun j ⟨op, hop, ho⟩ => hdeclares ⟨op, hop, j, ho⟩
    rw [keptProduction_of_not (hnot _), keptProduction_of_not (hnot _)]
    exact h.orderedAlike_declared hf hps nt p (mem_productionsOf_iff.2 ⟨_, hi⟩) q
      (mem_productionsOf_iff.2 ⟨_, hk⟩)

/-- Atoms have the priorities of the productions that they come from. -/
theorem Staged.orderedAlike_atom (h : g.Staged types g.size) (hops : g.operatorsOn e ≠ []) :
    OrderedAlike (Production.rank f) ((g.stratifyAt e).productionsOf (g.ladderAt e).atom) := by
  apply orderedAlike_of_rank_eq hf
  intro p hp
  rw [productionsOf_atom hops, List.mem_map] at hp
  obtain ⟨p, hp, rfl⟩ := hp
  obtain ⟨m, -, hp, -⟩ := mem_atomsOf_iff.1 hp
  rw [Ladder.rank_atomProduction, Ladder.prec_atomProduction]
  exact ⟨(h.declared_of_mem hp).rank_eq f, hps m p hp⟩

variable (hmin : ∀ p ∈ ps, p ≠ Int32.minValue ∧ f p ≠ Int32.minValue)
include hmin

/-- The operators of a level have one priority, and come before the end of the tail by both. -/
theorem orderedAlike_tail (hops : g.operatorsOn e ≠ []) {k : Nat} (hk : k < (g.ladderAt e).height) :
    OrderedAlike (Production.rank f) ((g.stratifyAt e).productionsOf ((g.ladderAt e).tail k)) := by
  have hlow : ∀ x : Int32, ¬ x < Int32.minValue := fun x => Int32.not_lt.2 (Int32.minValue_le x)
  have habove : ∀ {x : Int32}, x ≠ Int32.minValue → Int32.minValue < x := fun hne =>
    Int32.lt_of_le_of_ne (Int32.minValue_le _) (Ne.symm hne)
  have hmem := priority_mem_of_operatorsOn hps (e := e)
  rw [productionsOf_tail hops (List.getElem?_eq_getElem hk)]
  intro p hp q hq
  rw [List.mem_append, List.mem_singleton, List.mem_map] at hp hq
  rcases hp with ⟨op, hop, rfl⟩ | rfl <;> rcases hq with ⟨op', hop', rfl⟩ | rfl
  · exact (hf.lt_iff (hmem op (List.mem_filter.1 hop).1) (hmem op' (List.mem_filter.1 hop').1)).symm
  · exact iff_of_false (hlow _) (hlow _)
  · -- The end of the tail has the lowest priority, and no operator has it by either.
    obtain ⟨hne, hne'⟩ := hmin _ (hmem op' (List.mem_filter.1 hop').1)
    exact iff_of_true (habove hne) (habove hne')
  · exact iff_of_false (hlow _) (hlow _)

theorem Staged.ranksAlike_stratify (h : g.Staged types g.size) (hat : g.OperatorsAt e)
    (hrecursion : g.stratify.checkLeftRecursion g.stratify.firstTable = .ok ()) :
    g.stratify.RanksAlike (Production.rank f) := by
  rw [h.stratify_eq_stratifyAt hat] at hrecursion ⊢
  by_cases hops : g.operatorsOn e = []
  · rw [stratifyAt_of_eq_nil hops]
    exact h.orderedAlike_declared hf hps
  intro nt
  by_cases hnt : nt < (g.stratifyAt e).size
  · rcases lt_size_stratifyAt_cases hops hnt with
      hold | ⟨k, hpos, hk, rfl⟩ | ⟨k, hk, rfl⟩ | rfl | ⟨j, hj, rfl⟩
    · by_cases hne : nt = e
      · rw [hne, productionsOf_base hops hat.lt]
        exact orderedAlike_singleton _ _
      · exact h.orderedAlike_kept hf hps hat hrecursion hops hold hne
    · rw [productionsOf_head hops hpos hk]
      exact orderedAlike_singleton _ _
    · exact orderedAlike_tail hf hps hmin hops hk
    · exact h.orderedAlike_atom hf hps hops
    · rw [productionsOf_forced hops (List.getElem?_eq_getElem hj)]
      exact orderedAlike_singleton _ _
  · rw [productionsOf_of_size_le (Nat.le_of_not_lt hnt)]
    exact fun p hp => absurd hp List.not_mem_nil

end Order

end Grammar

/-! ## Languages -/

/-- The priorities of lowered productions are declared. -/
theorem priority_mem_of_lower {declared : List NodeType} {lowered : Lowered}
    (h : lower declared = .ok lowered) (nt : Nat) {p : Production}
    (hp : p ∈ lowered.grammar.productionsOf nt) :
    p.prec.priority ∈ declared.flatMap NodeType.priorities := by
  obtain ⟨ns, hmakes⟩ := lower_eq_ok h
  obtain ⟨t, ht, r, hr, hprod⟩ := (hmakes.mem_productionsOf_iff nt p).1 hp
  have hprec := (Naming.production?_eq_some_iff.1 hprod).2.2.2
  refine List.mem_flatMap.2 ⟨t, Upgrades.mem_of_settle hmakes.ofTypes hmakes.settle t ht, ?_⟩
  rw [hprec]
  exact List.mem_map.2 ⟨r, hr, rfl⟩

namespace Language

/-- Both lists of declarations assemble, or none does. The languages have decided the same cells by
priority, and every row of tokens has the same value in both, or the same error. -/
structure SameResults (declared declared' : List NodeType) (config config' : Config) : Prop where
  assemble_iff : (∃ l, assemble declared config = .ok l) ↔ ∃ l', assemble declared' config' = .ok l'
  resolutions_eq : ∀ l l', assemble declared config = .ok l → assemble declared' config' = .ok l' →
    l'.compiled.table.resolutions = l.compiled.table.resolutions
  parseTokens_eq : ∀ l l', assemble declared config = .ok l → assemble declared' config' = .ok l' →
    ∀ tokens, l'.parseTokens tokens = l.parseTokens tokens

/-- Languages whose grammars differ in priorities only, and have the same table, parse alike. -/
theorem parseTokens_of_regrades {l l' : Language} {rank : Production → Int32}
    (h : l.grammar.Regrades rank l'.grammar) (htable : l'.compiled.table = l.compiled.table)
    (tokens : List Token) : l'.parseTokens tokens = l.parseTokens tokens := by
  have hvalue : (fun t : ParseTree => t.value l'.grammar) = fun t => t.value l.grammar :=
    funext h.value_eq
  rw [parseTokens, parseTokens, treeOfTokens, treeOfTokens, htable, h.parse_eq, hvalue]

section Lowered

variable {declared declared' : List NodeType} {config config' : Config}

/-- Declarations that are refused for the same reason have the same results. -/
theorem sameResults_of_lower_error {e : AssemblyError} (h : lower declared = .error e)
    (h' : lower declared' = .error e) : SameResults declared declared' config config' := by
  have herror : assemble declared config = .error e := by
    rw [assemble_eq_bind, h]
    rfl
  have herror' : assemble declared' config' = .error e := by
    rw [assemble_eq_bind, h']
    rfl
  exact ⟨by simp [herror, herror'], by simp [herror], by simp [herror]⟩

/-- Languages whose stratified grammars differ in priorities only have the same results, if these order
productions alike. -/
theorem sameResults_of_regrades {lowered lowered' : Lowered} (hlower : lower declared = .ok lowered)
    (hlower' : lower declared' = .ok lowered') {rank : Production → Int32}
    (h : lowered.grammar.stratify.Regrades rank lowered'.grammar.stratify)
    (halike : lowered.grammar.stratify.checkLeftRecursion lowered.grammar.stratify.firstTable = .ok () →
      lowered.grammar.stratify.RanksAlike rank) : SameResults declared declared' config config' := by
  have hcompiled : ∀ {l l'}, assemble declared config = .ok l → assemble declared' config' = .ok l' →
      l'.compiled.table = l.compiled.table ∧ l.grammar.Regrades rank l'.grammar := by
    intro l l' hl hl'
    obtain ⟨_, hlowered, -, -, hcompiled⟩ := assemble_eq_ok hl
    obtain rfl := Except.ok.inj (hlower.symm.trans hlowered)
    obtain ⟨_, hlowered', -, -, hcompiled'⟩ := assemble_eq_ok hl'
    obtain rfl := Except.ok.inj (hlower'.symm.trans hlowered')
    refine ⟨h.table_eq halike hcompiled hcompiled', ?_⟩
    rwa [grammar, grammar, (Compiled.ofGrammar_eq_ok hcompiled).1, (Compiled.ofGrammar_eq_ok hcompiled').1]
  constructor
  · rw [assemble_ok_iff_of_lower hlower, assemble_ok_iff_of_lower hlower']
    exact h.ofGrammar_ok_iff halike
  · intro l l' hl hl'
    rw [(hcompiled hl hl').1]
  · intro l l' hl hl'
    exact parseTokens_of_regrades (hcompiled hl hl').2 (hcompiled hl hl').1

end Lowered

section Regrade

variable {declared : List NodeType} {f : Int32 → Int32} (hbuilt : ∀ t ∈ declared, t.Built)
  (hf : IncreasingOn f (declared.flatMap NodeType.priorities))
  (hmin : ∀ p ∈ declared.flatMap NodeType.priorities, p ≠ Int32.minValue ∧ f p ≠ Int32.minValue)
  (hat : ∀ lowered, lower declared = .ok lowered → ∃ e, lowered.grammar.OperatorsAt e)
  (config config' : Config)
include hbuilt hf hmin hat

theorem sameResults_of_injective (hinjective : Function.Injective f) :
    SameResults declared (declared.map (NodeType.regrade f)) config config' := by
  have hlower' := lower_regrade hinjective declared
  cases hlower : lower declared with
  | error err =>
      rw [hlower] at hlower'
      exact sameResults_of_lower_error hlower hlower'
  | ok lowered =>
      rw [hlower] at hlower'
      obtain ⟨e, hat⟩ := hat lowered hlower
      obtain ⟨hstaged, -, -⟩ := staged_of_lower hlower hbuilt
      have hps := fun nt p hp => priority_mem_of_lower hlower nt (p := p) hp
      exact sameResults_of_regrades hlower hlower' (hstaged.regrades_stratify hat hf hps)
        (hstaged.ranksAlike_stratify hf hps hmin hat)

/-- Only the order of priorities matters: the images of all priorities under an increasing map give the
same results. -/
theorem sameResults_regrade :
    SameResults declared (declared.map (NodeType.regrade f)) config config' := by
  -- Lowering compares declarations, so the map is made one that tells all priorities apart.
  obtain ⟨σ, hσ, heq⟩ := exists_injective_eq_on fun p hp q hq => (hf.eq_iff hp hq).1
  have hσf : IncreasingOn σ (declared.flatMap NodeType.priorities) := by
    intro p hp q hq hlt
    rw [heq p hp, heq q hq]
    exact hf p hp q hq hlt
  have hσmin : ∀ p ∈ declared.flatMap NodeType.priorities,
      p ≠ Int32.minValue ∧ σ p ≠ Int32.minValue := by
    intro p hp
    rw [heq p hp]
    exact hmin p hp
  rw [← NodeType.map_regrade_congr heq]
  exact sameResults_of_injective hbuilt hσf hσmin hat config config' hσ

end Regrade

/-- Numbers with sums, signs, and powers to the right. -/
def signTypes : List NodeType :=
  let expr : Sym := .node "Expr"
  [((NodeType.named "Expr").generates [Sym.literal "x"] Prec.default).start,
    ((NodeType.named "Sum").generates
      [.field "left" expr none, Sym.literal "+", .field "right" expr none] ⟨.left, 10⟩).replaces
        "Expr" Prec.default,
    ((NodeType.named "Minus").generates [Sym.literal "-", .field "of" expr none] ⟨.none, 15⟩).replaces
      "Expr" Prec.default,
    ((NodeType.named "Power").generates
      [.field "base" expr none, Sym.literal "^", .field "exponent" expr none] ⟨.right, 20⟩).replaces
        "Expr" Prec.default]

theorem signTypes_built : ∀ t ∈ signTypes, t.Built := by
  intro t ht
  simp only [signTypes, List.mem_cons, List.not_mem_nil, or_false] at ht
  rcases ht with rfl | rfl | rfl | rfl
  · exact ((NodeType.Built.named _).generates _ _).start
  · exact ((NodeType.Built.named _).generates _ _).replaces _ _
  · exact ((NodeType.Built.named _).generates _ _).replaces _ _
  · exact ((NodeType.Built.named _).generates _ _).replaces _ _

/-- The tokens of `- x ^ x + x`. -/
def signRow : List Token :=
  let literal : Nat → String → Token := fun terminal text => ⟨terminal, text, .token text, .outside⟩
  [literal 2 "-", literal 0 "x", literal 3 "^", literal 0 "x", literal 1 "+", literal 0 "x"]

set_option maxRecDepth 20000 in
/-- The priorities `10`, `15`, `20` and `100` may as well be `-10`, `5`, `20` and `260`. -/
theorem sameResults_regrade_signTypes :
    ∃ l l', assemble signTypes .quiet = .ok l ∧
      assemble (signTypes.map (NodeType.regrade (3 * · - 40))) .quiet = .ok l' ∧
      l'.compiled.table.resolutions = l.compiled.table.resolutions ∧
      l'.parseTokens signRow = l.parseTokens signRow ∧
      (l.parseTokens signRow).toOption.isSome = true := by
  have hcheck : (assemble signTypes .quiet).toOption.any (fun l =>
      (l.parseTokens signRow).toOption.isSome) = true := by cbv
  have hlower : (lower signTypes).toOption.any
      (fun lowered => decide (lowered.grammar.OperatorsAt 0)) = true := by cbv
  have hmin : (signTypes.flatMap NodeType.priorities).all
      (fun p => decide (p ≠ Int32.minValue ∧ 3 * p - 40 ≠ Int32.minValue)) = true := by cbv
  obtain ⟨l, hl, hparses⟩ := exists_of_any_assemble hcheck
  obtain ⟨lowered, hlowered, hoperators⟩ := Except.exists_of_any hlower
  have hat : ∀ x, lower signTypes = .ok x → ∃ e, x.grammar.OperatorsAt e := by
    intro x hx
    obtain rfl := Except.ok.inj (hlowered.symm.trans hx)
    exact ⟨0, of_decide_eq_true hoperators⟩
  have hsame := sameResults_regrade (f := (3 * · - 40)) signTypes_built (by decide +kernel)
    (fun p hp => of_decide_eq_true (List.all_eq_true.1 hmin p hp)) hat .quiet .quiet
  obtain ⟨l', hl'⟩ := hsame.assemble_iff.1 ⟨l, hl⟩
  exact ⟨l, l', hl, hl', hsame.resolutions_eq l l' hl hl', hsame.parseTokens_eq l l' hl hl' signRow,
    hparses⟩

end Language

end SmallLang
