import SmallLang.Proofs.Assembly.Blamed
import SmallLang.Proofs.Priorities.Language

/-!
# Where a tail ends

The production that ends a tail has the lowest priority that there is, and all operators of the tail
have the priority of its level (`Staged.priority_of_takesOperator`). So an operator that applies wins
over the end of its tail, and only an operator that is declared with the lowest priority itself does
not: it is tied with the end wherever both apply (`Language.operators_beat_ends`). Such an operator
can be declared, and then assembly is refused for an ambiguity between going on and ending
(`Language.ends_tied_of_signedSums`).
-/

set_option autoImplicit false

namespace SmallLang

theorem Production.Declared.construction_ne_endOfTail {types size i : Nat} {p : Production}
    (h : p.Declared types size i) : p.construction ≠ .endOfTail := by
  cases h <;> exact Construction.noConfusion

namespace Grammar

/-- The production applies to the lookahead, by the sets of the grammar. -/
abbrev Applies (g : Grammar) (nt : Nat) (la : Lookahead) (p : Nat) : Prop :=
  g.IsCandidate g.firstTable (g.followTable g.firstTable) nt la p

/-- The production applies to the lookahead, and none that applies has a higher priority. -/
abbrev Prevails (g : Grammar) (nt : Nat) (la : Lookahead) (p : Nat) : Prop :=
  g.IsTop g.firstTable (g.followTable g.firstTable) nt la p

/-- The production ends a tail. -/
def EndsTail (g : Grammar) (nt p : Nat) : Prop :=
  (g.production? nt p).map Production.construction = some .endOfTail

/-- The production begins with an operator, whose left operand stands before the tail. -/
def TakesOperator (g : Grammar) (nt p : Nat) : Prop :=
  ∃ inner looping,
    (g.production? nt p).map Production.construction = some (.operator inner looping)

instance (g : Grammar) (nt p : Nat) : Decidable (g.EndsTail nt p) :=
  inferInstanceAs (Decidable (_ = _))

instance (g : Grammar) (nt p : Nat) : Decidable (g.TakesOperator nt p) :=
  match h : (g.production? nt p).map Production.construction with
  | some (.operator inner looping) => isTrue ⟨inner, looping, h⟩
  | none => isFalse (by simp [TakesOperator, h])
  | some (.node ..) | some (.child _) | some .emptyList | some .listHead | some .listNext
  | some .climb | some .endOfTail => isFalse (by simp [TakesOperator, h])

section

variable {g : Grammar} {nt e p : Nat}

theorem TakesOperator.ne_of_endsTail (hp : g.TakesOperator nt p) (he : g.EndsTail nt e) :
    p ≠ e := by
  obtain ⟨inner, looping, hp⟩ := hp
  rintro rfl
  exact Construction.noConfusion (Option.some.inj (hp.symm.trans he))

end

namespace Staged

variable {types : Nat} {g : Grammar} (h : g.Staged types g.size)
include h

theorem construction_arranged_ne_endOfTail {k m i : Nat} {q : Production}
    (hq : g.production? m i = some q) : (g.arranged k m i q).construction ≠ .endOfTail := by
  rcases g.arranged_cases k m i q with ⟨heq, -⟩ | ⟨x, -, j, op, -, heq⟩
  · rw [heq]
    exact (h.declared_of_mem (mem_productionsOf_iff.2 ⟨i, hq⟩)).construction_ne_endOfTail
  · rw [heq]
    exact Construction.noConfusion

/-- Only tails have a production that ends a tail. -/
theorem exists_level_of_endsTail {nt e : Nat} (he : g.stratify.EndsTail nt e) :
    ∃ x k p, x < g.size ∧ (g.ladder x).levels[k]? = some p ∧ nt = (g.ladder x).tail k := by
  obtain ⟨q, hq, hends⟩ := Option.map_eq_some_iff.1 he
  have hmem := mem_productionsOf_iff.2 ⟨e, hq⟩
  obtain ⟨o, howns⟩ := g.exists_owns (lt_size_of_production? hq)
  cases howns with
  | tail hx hladder hk => exact ⟨o, _, _, hx, List.getElem?_eq_getElem hk, rfl⟩
  | self hnt =>
      by_cases hladder : g.HasLadder nt
      · have honly := h.productionsOf_head_stratify hladder hnt hladder.height_pos
        obtain rfl := List.mem_singleton.1 (honly ▸ hmem)
        exact absurd hends Construction.noConfusion
      · rw [h.production?_stratify hnt hladder] at hq
        obtain ⟨r, hr, rfl⟩ := Option.map_eq_some_iff.1 hq
        exact absurd hends (h.construction_arranged_ne_endOfTail hr)
  | head hx hladder _ hk =>
      rw [h.productionsOf_head_stratify hladder hx hk, List.mem_singleton] at hmem
      exact absurd hends (hmem ▸ Construction.noConfusion)
  | atom hx hladder =>
      rw [h.productionsOf_atom_stratify hladder hx] at hmem
      obtain ⟨r, hr, rfl⟩ := List.mem_map.1 hmem
      rw [Ladder.atomProduction_construction] at hends
      rcases (h.mem_atomsAt_iff hx).1 hr with ⟨m, -, -, -, rfl⟩ | ⟨m, -, -, i, s, hs, -, -, rfl⟩
      · exact absurd hends Construction.noConfusion
      · exact absurd hends (h.construction_arranged_ne_endOfTail hs)
  | forced hx hfinds =>
      rw [h.productionsOf_forced_stratify hx hfinds, List.mem_singleton] at hmem
      exact absurd hends (hmem ▸ Construction.noConfusion)

section Level

variable {x k : Nat} {p : Int32} (hx : x < g.size) (hp : (g.ladder x).levels[k]? = some p)
include hx hp

/-- A production of a tail is an operator of its level, or ends the tail. -/
theorem tail_production_cases {i : Nat} {q : Production}
    (hq : g.stratify.production? ((g.ladder x).tail k) i = some q) :
    (∃ op ∈ g.usesAt x, op.prec.priority = p ∧ q = (g.ladder x).tailProduction op) ∨
      q = Ladder.endProduction := by
  have hmem := mem_productionsOf_iff.2 ⟨i, hq⟩
  rw [h.productionsOf_tail_stratify (HasLadder.of_level hp) hx hp, List.mem_append, List.mem_map,
    List.mem_singleton] at hmem
  rcases hmem with ⟨op, hop, rfl⟩ | rfl
  · obtain ⟨hop, hpriority⟩ := List.mem_filter.1 hop
    exact Or.inl ⟨op, hop, eq_of_beq hpriority, rfl⟩
  · exact Or.inr rfl

/-- The operators of a tail have the priority of its level. -/
theorem priority_of_takesOperator {i : Nat}
    (hi : g.stratify.TakesOperator ((g.ladder x).tail k) i) :
    g.stratify.priority ((g.ladder x).tail k) i = p := by
  obtain ⟨inner, looping, hi⟩ := hi
  obtain ⟨q, hq, hc⟩ := Option.map_eq_some_iff.1 hi
  rw [priority, hq]
  rcases h.tail_production_cases hx hp hq with ⟨op, -, hpriority, rfl⟩ | rfl
  · exact hpriority
  · exact Construction.noConfusion hc

/-- What ends a tail has the lowest priority, and everything else in the tail that of its level. -/
theorem priority_tail_le {i : Nat} {q : Production}
    (hq : g.stratify.production? ((g.ladder x).tail k) i = some q) :
    g.stratify.priority ((g.ladder x).tail k) i ≤ p := by
  rw [priority, hq]
  rcases h.tail_production_cases hx hp hq with ⟨op, -, hpriority, rfl⟩ | rfl
  · exact Int32.le_of_eq hpriority
  · exact Int32.minValue_le p

theorem priority_of_endsTail {i : Nat} (hi : g.stratify.EndsTail ((g.ladder x).tail k) i) :
    g.stratify.priority ((g.ladder x).tail k) i = Int32.minValue := by
  obtain ⟨q, hq, hc⟩ := Option.map_eq_some_iff.1 hi
  rw [priority, hq]
  rcases h.tail_production_cases hx hp hq with ⟨op, -, -, rfl⟩ | rfl
  · exact Construction.noConfusion hc
  · rfl

/-- A tail has one end. -/
theorem eq_of_endsTail {i j : Nat} (hi : g.stratify.EndsTail ((g.ladder x).tail k) i)
    (hj : g.stratify.EndsTail ((g.ladder x).tail k) j) : i = j := by
  have hlast : ∀ i, g.stratify.EndsTail ((g.ladder x).tail k) i →
      i = ((g.usesAt x).filter (·.prec.priority == p)).length := by
    intro i hi
    obtain ⟨q, hq, hc⟩ := Option.map_eq_some_iff.1 hi
    rw [production?, h.productionsOf_tail_stratify (HasLadder.of_level hp) hx hp] at hq
    rw [List.getElem?_append] at hq
    split at hq
    · obtain ⟨op, -, rfl⟩ := List.mem_map.1 (List.mem_of_getElem? hq)
      exact Construction.noConfusion hc
    · rename_i hle
      have hlt := (List.getElem?_eq_some_iff.1 hq).1
      rw [List.length_singleton] at hlt
      rw [List.length_map] at hle hlt
      omega
  rw [hlast i hi, hlast j hj]

/-- What is tied with the end of a tail is an operator. -/
theorem takesOperator_of_ne {e i : Nat} (he : g.stratify.EndsTail ((g.ladder x).tail k) e)
    {q : Production} (hq : g.stratify.production? ((g.ladder x).tail k) i = some q) (hne : i ≠ e) :
    g.stratify.TakesOperator ((g.ladder x).tail k) i := by
  rcases h.tail_production_cases hx hp hq with ⟨op, -, -, rfl⟩ | rfl
  · exact ⟨op.construction, (g.ladder x).loops op, by rw [hq]; rfl⟩
  · exact absurd (h.eq_of_endsTail hx hp (by rw [EndsTail, hq]; rfl) he) hne

end Level

/-- The priority of an operator in a tail is that of the production that declares it. -/
theorem exists_priority_of_takesOperator {nt e i : Nat} (he : g.stratify.EndsTail nt e)
    (hi : g.stratify.TakesOperator nt i) :
    ∃ m, ∃ q ∈ g.productionsOf m, g.stratify.priority nt i = q.prec.priority := by
  obtain ⟨x, k, p, hx, hp, rfl⟩ := h.exists_level_of_endsTail he
  obtain ⟨op, hop, rfl⟩ := mem_levels_ladder_iff.1 (List.mem_of_getElem? hp)
  obtain ⟨m, j, q, -, -, hq, -, rfl⟩ := (h.mem_usesAt_iff hx).1 hop
  exact ⟨m, q, mem_productionsOf_iff.2 ⟨j, hq⟩, h.priority_of_takesOperator hx hp hi⟩

/-- Where an operator applies, nothing beats the end of its tail only if the operator has the lowest
priority that there is. -/
theorem prevails_end_iff {nt e i : Nat} {la : Lookahead} (he : g.stratify.EndsTail nt e)
    (hi : g.stratify.TakesOperator nt i) (happlies : g.stratify.Applies nt la i) :
    g.stratify.Prevails nt la e ↔
      g.stratify.Applies nt la e ∧ g.stratify.priority nt i = Int32.minValue := by
  obtain ⟨x, k, p, hx, hp, rfl⟩ := h.exists_level_of_endsTail he
  have hend := h.priority_of_endsTail hx hp he
  have hlevel := h.priority_of_takesOperator hx hp hi
  constructor
  · rintro ⟨hcandidate, htop⟩
    have hle := htop i happlies
    rw [hend] at hle
    exact ⟨hcandidate, Int32.le_antisymm hle (Int32.minValue_le _)⟩
  · rintro ⟨hcandidate, hmin⟩
    refine ⟨hcandidate, fun j hj => ?_⟩
    obtain ⟨q, hq, -⟩ := hj
    rw [hend, ← hmin, hlevel]
    exact h.priority_tail_le hx hp hq

/-- Where both apply and the end is not beaten, neither is the operator. -/
theorem prevails_of_end {nt e i : Nat} {la : Lookahead} (he : g.stratify.EndsTail nt e)
    (hi : g.stratify.TakesOperator nt i) (happlies : g.stratify.Applies nt la i)
    (hend : g.stratify.Prevails nt la e) : g.stratify.Prevails nt la i := by
  refine ⟨happlies, fun j hj => ?_⟩
  have hmin := ((h.prevails_end_iff he hi happlies).1 hend).2
  obtain ⟨x, k, p, hx, hp, rfl⟩ := h.exists_level_of_endsTail he
  have hle := hend.2 j hj
  rw [h.priority_of_endsTail hx hp he] at hle
  rwa [hmin]

/-- A table without ties does not end a tail where an operator applies. -/
theorem get?_ne_of_endsTail {nt e i : Nat} {la : Lookahead} (he : g.stratify.EndsTail nt e)
    (hi : g.stratify.TakesOperator nt i) (happlies : g.stratify.Applies nt la i) {table : ParseTable}
    (htable : g.stratify.parseTable g.stratify.firstTable
      (g.stratify.followTable g.stratify.firstTable) = .ok table) : table.get? nt la ≠ some e := by
  intro hget
  obtain ⟨rfl, hnone⟩ := parseTable_eq_ok htable
  have hties := firstTie?_eq_none_iff.1 hnone
  have hend := (get?_eq_some_iff hties).1 hget
  -- The operator has the priority of the end, so the cell would be tied.
  exact hties nt la ⟨i, e, hi.ne_of_endsTail he, h.prevails_of_end he hi happlies hend, hend⟩

/-- If the end of a tail is tied with something else, a production is declared with the lowest priority. -/
theorem exists_lowest_of_tied {nt e : Nat} {la : Lookahead} (he : g.stratify.EndsTail nt e)
    (hend : g.stratify.Prevails nt la e)
    (htied : g.stratify.IsTied g.stratify.firstTable
      (g.stratify.followTable g.stratify.firstTable) nt la) :
    ∃ m, ∃ q ∈ g.productionsOf m, q.prec.priority = Int32.minValue := by
  obtain ⟨i, hi, hne⟩ : ∃ i, g.stratify.Prevails nt la i ∧ i ≠ e := by
    obtain ⟨i, j, hij, hi, hj⟩ := htied
    by_cases hie : i = e
    · exact ⟨j, hj, fun hje => hij (hie.trans hje.symm)⟩
    · exact ⟨i, hi, hie⟩
  have htakes : g.stratify.TakesOperator nt i := by
    obtain ⟨x, k, p, hx, hp, rfl⟩ := h.exists_level_of_endsTail he
    obtain ⟨⟨q, hq, -⟩, -⟩ := hi
    exact h.takesOperator_of_ne hx hp he hq hne
  obtain ⟨m, q, hq, hpriority⟩ := h.exists_priority_of_takesOperator he htakes
  exact ⟨m, q, hq, hpriority.symm.trans ((h.prevails_end_iff he htakes hi.1).1 hend).2⟩

end Staged

end Grammar

namespace Language

variable {declared : List NodeType} {lowered : Lowered}

/-- For whatever types can be lowered: in a cell that an operator of a tail applies to, the end of the tail
is beaten, unless it applies as well and the operator has the lowest priority that there is. No table
chooses the end there, and assembly reports an ambiguity between the end of a tail and something else only
if a rule is declared with the lowest priority. -/
theorem operators_beat_ends (hbuilt : ∀ t ∈ declared, t.Built)
    (hlower : lower declared = .ok lowered) :
    (∀ nt la e p, lowered.grammar.stratify.EndsTail nt e →
        lowered.grammar.stratify.TakesOperator nt p →
        lowered.grammar.stratify.Applies nt la p →
        (lowered.grammar.stratify.Prevails nt la e ↔
          lowered.grammar.stratify.Applies nt la e ∧
            lowered.grammar.stratify.priority nt p = Int32.minValue)) ∧
      (∀ config l, assemble declared config = .ok l → ∀ nt la e p,
        lowered.grammar.stratify.EndsTail nt e → lowered.grammar.stratify.TakesOperator nt p →
        lowered.grammar.stratify.Applies nt la p → l.compiled.table.get? nt la ≠ some e) ∧
      ∀ config name lookahead productions,
        assemble declared config = .error (.ambiguous name lookahead productions) →
        ∃ nt la ps, lowered.grammar.stratify.IsFirstTie lowered.grammar.stratify.firstTable
            (lowered.grammar.stratify.followTable lowered.grammar.stratify.firstTable) nt la ps ∧
          name = lowered.grammar.stratify.nameOf nt ∧
          lookahead = la.render lowered.grammar.stratify.arena ∧
          productions = ps.map (lowered.grammar.stratify.renderNumbered nt) ∧
          ∀ e ∈ ps, lowered.grammar.stratify.EndsTail nt e →
            ∃ t ∈ declared, ∃ r ∈ t.rules, r.prec.priority = Int32.minValue := by
  obtain ⟨hstaged, hstart, -⟩ := staged_of_lower hlower hbuilt
  refine ⟨fun nt la e p he hp happlies => hstaged.prevails_end_iff he hp happlies, ?_, ?_⟩
  · intro config l hl nt la e p he hp happlies
    obtain ⟨lowered', hlower', -, -, hcompiled⟩ := assemble_eq_ok hl
    obtain rfl := Except.ok.inj (hlower.symm.trans hlower')
    exact hstaged.get?_ne_of_endsTail he hp happlies (Compiled.ofGrammar_eq_ok hcompiled).2.2
  · intro config name lookahead productions herror
    have hg := hstaged.wellFormed_stratify hstart
    obtain hfailed | ⟨lowered', hlower', herror⟩ := Except.bind_eq_error_iff.1 herror
    · exact absurd (hlower.symm.trans hfailed) (by simp)
    obtain rfl := Except.ok.inj (hlower.symm.trans hlower')
    obtain hcompiled | ⟨compiled, -, herror⟩ := Except.bind_eq_error_iff.1 herror
    · obtain ⟨nt, hblames⟩ := hg.exists_blames hcompiled rfl
      cases hblames with
      | @ambiguous _ la ps htie =>
          refine ⟨nt, la, ps, htie, rfl, rfl, rfl, fun e he hends => ?_⟩
          obtain ⟨m, q, hq, hmin⟩ :=
            hstaged.exists_lowest_of_tied hends ((htie.tops e).1 he) htie.tied
          obtain ⟨t, ht, hmem⟩ := List.mem_flatMap.1 (priority_mem_of_lower hlower m hq)
          obtain ⟨r, hr, hpriority⟩ := List.mem_map.1 hmem
          exact ⟨t, ht, r, hr, hpriority.trans hmin⟩
    · exact absurd herror (by simp [pure, Except.pure])

/-- Sums, and signs whose operand is a sum. -/
def signedSums (priority : Int32) : List NodeType :=
  [((NodeType.named "Expr").generates [.literal "x"] Prec.default).start,
    ((NodeType.named "Sum").generates
      [.field "left" (.node "Expr") none, .literal "+", .field "right" (.node "Expr") none]
      ⟨.left, priority⟩).replaces "Expr" Prec.default,
    ((NodeType.named "Minus").generates [.literal "-", .field "of" (.node "Expr") none]
      ⟨.right, priority⟩).replaces "Expr" Prec.default]

theorem built_signedSums (priority : Int32) : ∀ t ∈ signedSums priority, t.Built := by
  intro t ht
  simp only [signedSums, List.mem_cons, List.not_mem_nil, or_false] at ht
  rcases ht with rfl | rfl | rfl
  · exact ((NodeType.Built.named _).generates _ _).start
  · exact ((NodeType.Built.named _).generates _ _).replaces _ _
  · exact ((NodeType.Built.named _).generates _ _).replaces _ _

/-- Before `+` the tail of the sums has an operator of that priority, and may end as well. -/
def goesOnOrEnds (g : Grammar) (priority : Int32) : Bool :=
  decide (g.EndsTail 3 1) && decide (g.TakesOperator 3 0) && decide ((Lookahead.terminal 1).column ≤ g.arena.size) &&
    g.candidates g.firstTable (g.followTable g.firstTable) 3 (.terminal 1) ==
      [(0, priority), (1, Int32.minValue)]

theorem of_goesOnOrEnds {g : Grammar} {priority : Int32} (h : goesOnOrEnds g priority = true) :
    g.EndsTail 3 1 ∧ g.TakesOperator 3 0 ∧ g.Applies 3 (.terminal 1) 0 ∧ g.Applies 3 (.terminal 1) 1 ∧
      ∀ p, g.Applies 3 (.terminal 1) p →
        p = 0 ∧ g.priority 3 p = priority ∨ p = 1 ∧ g.priority 3 p = Int32.minValue := by
  simp only [goesOnOrEnds, Bool.and_eq_true, decide_eq_true_eq, beq_iff_eq] at h
  obtain ⟨⟨⟨hends, htakes⟩, hsize⟩, hcell⟩ := h
  have hiff : ∀ p n, (p, n) ∈ [(0, priority), (1, Int32.minValue)] ↔
      g.Applies 3 (.terminal 1) p ∧ n = g.priority 3 p := fun p n => by
    rw [← hcell]
    exact Grammar.mem_candidates_iff_isCandidate hsize
  refine ⟨hends, htakes, ((hiff 0 priority).1 (by simp)).1,
    ((hiff 1 Int32.minValue).1 (by simp)).1, fun p hp => ?_⟩
  have hmem := (hiff p _).2 ⟨hp, rfl⟩
  rcases List.mem_pair.1 hmem with heq | heq
  · exact Or.inl (Prod.mk.inj heq)
  · exact Or.inr (Prod.mk.inj heq)

set_option maxRecDepth 4000 in
/-- The sign has the priority of the sums, so both apply before `+`, and the sum goes on. -/
theorem operators_beat_ends_of_signedSums :
    ∃ lowered l, lower (signedSums 10) = .ok lowered ∧ assemble (signedSums 10) .quiet = .ok l ∧
      lowered.grammar.stratify.EndsTail 3 1 ∧ lowered.grammar.stratify.TakesOperator 3 0 ∧
      lowered.grammar.stratify.Applies 3 (.terminal 1) 0 ∧
      lowered.grammar.stratify.Applies 3 (.terminal 1) 1 ∧
      ¬ lowered.grammar.stratify.Prevails 3 (.terminal 1) 1 ∧
      l.compiled.table.get? 3 (.terminal 1) ≠ some 1 := by
  have hcheck : (lower (signedSums 10)).toOption.any
      (fun lowered => goesOnOrEnds lowered.grammar.stratify 10) = true := by
    cbv
  have hassembles : (assemble (signedSums 10) .quiet).toOption.any (fun _ => true) = true := by
    cbv
  obtain ⟨lowered, hlower, hcell⟩ := Except.exists_of_any hcheck
  obtain ⟨l, hl, -⟩ := exists_of_any_assemble hassembles
  obtain ⟨hends, htakes, happlies, happlies', hcases⟩ := of_goesOnOrEnds hcell
  obtain ⟨hprevails, hnever, -⟩ := operators_beat_ends (built_signedSums 10) hlower
  refine ⟨lowered, l, hlower, hl, hends, htakes, happlies, happlies', ?_,
    hnever .quiet l hl 3 _ 1 0 hends htakes happlies⟩
  intro htop
  have hmin := ((hprevails 3 _ 1 0 hends htakes happlies).1 htop).2
  obtain ⟨-, hten⟩ := (hcases 0 happlies).resolve_right (by simp)
  exact absurd (hten.symm.trans hmin) (by decide)

set_option maxRecDepth 4000 in
/-- Sums of the lowest priority are tied with the end of their tail, and assembly is refused for it. -/
theorem ends_tied_of_signedSums :
    ∃ lowered, lower (signedSums Int32.minValue) = .ok lowered ∧
      lowered.grammar.stratify.EndsTail 3 1 ∧ lowered.grammar.stratify.TakesOperator 3 0 ∧
      lowered.grammar.stratify.Applies 3 (.terminal 1) 0 ∧
      lowered.grammar.stratify.Prevails 3 (.terminal 1) 1 ∧
      lowered.grammar.stratify.IsTied lowered.grammar.stratify.firstTable
        (lowered.grammar.stratify.followTable lowered.grammar.stratify.firstTable) 3 (.terminal 1) ∧
      assemble (signedSums Int32.minValue) .quiet =
        .error (.ambiguous "Expr#-2147483648'" "\"+\""
          ["\"+\" Expr#atom Expr#-2147483648'  \x7blowest, left\x7d", "(empty)  \x7blowest\x7d"]) := by
  have hcheck : (lower (signedSums Int32.minValue)).toOption.any
      (fun lowered => goesOnOrEnds lowered.grammar.stratify Int32.minValue) = true := by
    cbv
  have hrefused : assemble (signedSums Int32.minValue) .quiet =
      .error (.ambiguous "Expr#-2147483648'" "\"+\""
        ["\"+\" Expr#atom Expr#-2147483648'  \x7blowest, left\x7d", "(empty)  \x7blowest\x7d"]) := by
    cbv
  obtain ⟨lowered, hlower, hcell⟩ := Except.exists_of_any hcheck
  obtain ⟨hends, htakes, happlies, happlies', hcases⟩ := of_goesOnOrEnds hcell
  have hlowest : ∀ p, lowered.grammar.stratify.Applies 3 (.terminal 1) p →
      lowered.grammar.stratify.priority 3 p = Int32.minValue := fun p hp =>
    (hcases p hp).elim And.right And.right
  have hprevails : ∀ p, lowered.grammar.stratify.Applies 3 (.terminal 1) p →
      lowered.grammar.stratify.Prevails 3 (.terminal 1) p := fun p hp =>
    ⟨hp, fun q hq => Int32.le_of_eq ((hlowest q hq).trans (hlowest p hp).symm)⟩
  exact ⟨lowered, hlower, hends, htakes, happlies, hprevails 1 happlies',
    ⟨0, 1, by decide, hprevails 0 happlies, hprevails 1 happlies'⟩, hrefused⟩

end Language

end SmallLang
