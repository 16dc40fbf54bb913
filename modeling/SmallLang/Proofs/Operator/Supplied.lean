import SmallLang.Proofs.Operator.Unfold
import SmallLang.Proofs.Renaming.Values

/-!
# Productions with all the children that they ask for

Where a construction asks for a child that is not there, a default takes its place. In a stratified
grammar this does not happen (`Grammar.Staged.supplied_stratify`): a production has all children that its
construction asks for, an operator together with the operand before it. The operators after an operand
have no value of their own, only what they make of the operand (`Grammar.Valued`).

So what a tree yields can be followed through a change of the kinds of its nodes, role by role
(`Meaning.Renamed`).
-/

set_option autoImplicit false

namespace SmallLang

open List (Forall₂)

/-! ## The forms of productions -/

/-- The forms of productions that have all children which their constructions ask for. These children
are of symbols with the property `V`; what follows an operand is not looked at. -/
inductive Production.Supplied (V : Symbol → Prop) : Production → Prop
  | plain {symbols : List Symbol} {c : Construction} (prec : Prec) (hc : c.Plain symbols.length)
      (hs : ∀ s ∈ symbols, V s) : Supplied V ⟨symbols, c, prec⟩
  | climb {operand : Symbol} (next : Symbol) (prec : Prec) (hs : V operand) :
      Supplied V ⟨[operand, next], .climb, prec⟩
  | operator {symbols : List Symbol} {inner : Construction} (prec : Prec)
      (hc : inner.Plain (symbols.length + 1)) (hs : ∀ s ∈ symbols, V s) :
      Supplied V ⟨symbols, .operator inner false, prec⟩
  | looping {symbols : List Symbol} {inner : Construction} (tail : Symbol) (prec : Prec)
      (hc : inner.Plain (symbols.length + 1)) (hs : ∀ s ∈ symbols, V s) :
      Supplied V ⟨symbols ++ [tail], .operator inner true, prec⟩
  | ending (prec : Prec) : Supplied V ⟨[], .endOfTail, prec⟩

theorem Production.Supplied.imp {V W : Symbol → Prop} {p : Production} (h : p.Supplied V)
    (hVW : ∀ s ∈ p.symbols, V s → W s) : p.Supplied W := by
  cases h with
  | plain prec hc hs => exact .plain prec hc fun s hmem => hVW s hmem (hs s hmem)
  | climb next prec hs => exact .climb next prec (hVW _ List.mem_cons_self hs)
  | operator prec hc hs => exact .operator prec hc fun s hmem => hVW s hmem (hs s hmem)
  | looping tail prec hc hs =>
      exact .looping tail prec hc fun s hmem => hVW s (List.mem_append_left _ hmem) (hs s hmem)
  | ending prec => exact .ending prec

theorem length_replaceLast {α : Type} {xs : List α} (h : xs ≠ []) (x : α) :
    (replaceLast xs x).length = xs.length := by
  have hpos := List.length_pos_iff.2 h
  rw [replaceLast, List.length_append, List.length_dropLast, List.length_singleton]
  omega

namespace Grammar

/-- The trees of the symbol have values of their own: they are no operators after an operand. -/
def Valued (g : Grammar) : Symbol → Prop
  | .terminal _ => True
  | .nonTerminal i =>
      ∀ p ∈ g.productionsOf i, ∀ inner looping, p.construction ≠ .operator inner looping

/-- All productions have the children that their constructions ask for. -/
def Supplied (g : Grammar) : Prop := ∀ i, ∀ p ∈ g.productionsOf i, p.Supplied g.Valued

namespace Staged

variable {types size : Nat} {g : Grammar} {e : Nat} (h : g.Staged types size)
include h

/-! ## What was there from the beginning -/

theorem construction_ne_operator {i : Nat} (hi : i < size) {p : Production}
    (hp : p ∈ g.productionsOf i) (inner : Construction) (looping : Bool) :
    p.construction ≠ .operator inner looping := by
  rcases h.declared i hi p hp with hd | ⟨-, hclimb, -⟩
  · cases hd <;> exact Construction.noConfusion
  · rw [hclimb]
    exact Construction.noConfusion

theorem valued_of_lt {i : Nat} (hi : i < size) : g.Valued (.nonTerminal i) :=
  fun _ hp inner looping => h.construction_ne_operator hi hp inner looping

/-- What was there from the beginning builds something from children with values, or climbs. -/
theorem plain_or_climb {i : Nat} (hi : i < size) {p : Production} (hp : p ∈ g.productionsOf i)
    (hsupplied : p.Supplied g.Valued) :
    (p.construction.Plain p.symbols.length ∧ ∀ s ∈ p.symbols, g.Valued s) ∨
      ∃ operand next, p = ⟨[operand, next], .climb, p.prec⟩ ∧ g.Valued operand := by
  have hnot := h.construction_ne_operator hi hp
  have hforms := h.declared i hi p hp
  cases hsupplied with
  | plain prec hc hs => exact Or.inl ⟨hc, hs⟩
  | climb next prec hs => exact Or.inr ⟨_, _, rfl, hs⟩
  | operator prec hc hs => exact absurd rfl (hnot _ _)
  | looping tail prec hc hs => exact absurd rfl (hnot _ _)
  | ending prec =>
      rcases hforms with hd | ⟨-, hclimb, -⟩
      · cases hd
      · exact absurd hclimb Construction.noConfusion

/-! ## One step -/

section Step

variable (he : e < size) (hops : g.operatorsOn e ≠ [])
include he hops

/-- A step leaves the symbols with values of their own. -/
theorem valued_old {s : Symbol} (hs : g.HasSymbol s) (hv : g.Valued s) :
    (g.stratifyAt e).Valued s := by
  have hes : e < g.size := Nat.lt_of_lt_of_le he h.size_le
  cases s with
  | terminal i => trivial
  | nonTerminal i =>
      intro p hp inner looping
      have hi : i < g.size := hs
      by_cases hie : i = e
      · subst hie
        rw [productionsOf_base hops hes] at hp
        rw [List.mem_singleton.1 hp]
        exact Construction.noConfusion
      · obtain ⟨k, hk⟩ := mem_productionsOf_iff.1 hp
        rw [production?_kept hops hi hie] at hk
        obtain ⟨q, hq, rfl⟩ := Option.map_eq_some_iff.1 hk
        rcases keptProduction_cases g e i k q with heq | ⟨j, op, -, -, heq⟩
        · rw [heq]
          exact hv q (mem_productionsOf_iff.2 ⟨k, hq⟩) inner looping
        · rw [heq]
          exact Construction.noConfusion

theorem valued_head {k : Nat} (hk : k < (g.ladderAt e).height) :
    (g.stratifyAt e).Valued (.nonTerminal ((g.ladderAt e).head k)) := by
  intro p hp inner looping
  have hclimb : p = (g.ladderAt e).climbProduction k ((g.ladderAt e).tail k) := by
    rcases Nat.eq_zero_or_pos k with rfl | hpos
    · rw [Ladder.head_zero, ladderAt_base,
        productionsOf_base hops (Nat.lt_of_lt_of_le he h.size_le)] at hp
      exact List.mem_singleton.1 hp
    · rw [productionsOf_head hops hpos hk] at hp
      exact List.mem_singleton.1 hp
  rw [hclimb]
  exact Construction.noConfusion

theorem valued_atom : (g.stratifyAt e).Valued (.nonTerminal (g.ladderAt e).atom) := by
  intro p hp inner looping
  rw [productionsOf_atom hops] at hp
  obtain ⟨q, hq, rfl⟩ := List.mem_map.1 hp
  obtain ⟨m, hm, hq, -⟩ := mem_atomsOf_iff.1 hq
  rw [Ladder.atomProduction_construction]
  exact h.construction_ne_operator (h.lt_size_of_mem_unitClosure he hm) hq inner looping

theorem valued_operand (k : Nat) :
    (g.stratifyAt e).Valued (.nonTerminal ((g.ladderAt e).operand k)) := by
  rcases (g.ladderAt e).operand_eq k with ⟨hk, heq⟩ | ⟨-, heq⟩
  · rw [heq]
    exact h.valued_head he hops hk
  · rw [heq]
    exact h.valued_atom he hops

theorem valued_prefixOperand (prec : Prec) :
    (g.stratifyAt e).Valued (.nonTerminal ((g.ladderAt e).prefixOperand prec)) := by
  rcases prefixOperand_cases g e prec with ⟨k, hk, heq⟩ | heq
  · rw [heq]
    exact h.valued_head he hops hk
  · rw [heq]
    exact h.valued_atom he hops

theorem valued_rightOperand {op : OperatorUse} (hop : op ∈ g.operatorsOn e) :
    (g.stratifyAt e).Valued (.nonTerminal ((g.ladderAt e).rightOperand op)) := by
  have hlevel := Ladder.levelOf_lt (mem_levels_ladderAt_iff.2 ⟨op, hop, rfl⟩)
  simp only [Ladder.rightOperand]
  split
  · exact h.valued_head he hops hlevel
  · exact h.valued_operand he hops _

variable (hsupplied : g.Supplied)
include hsupplied

/-- An operator has what it asks for, with the operand before it. -/
theorem supplied_tailProduction {op : OperatorUse} (hop : op ∈ g.operatorsOn e) :
    ((g.ladderAt e).tailProduction op).Supplied (g.stratifyAt e).Valued := by
  obtain ⟨m, i, p, hm, hp, hisop, huse⟩ := mem_operatorsOn_iff.1 hop
  have hms := h.lt_size_of_mem_unitClosure he hm
  have hmem := mem_productionsOf_iff.2 ⟨i, hp⟩
  obtain ⟨s, rest, hsymbols⟩ := Production.isOperatorOn_iff.1 hisop
  have hrest : op.rest = s :: rest := by
    rw [huse, operatorUse, hsymbols, List.tail_cons]
  -- The declared production is no climb, so it builds something from its children.
  obtain ⟨hplain, hvalued⟩ :
      p.construction.Plain p.symbols.length ∧ ∀ x ∈ p.symbols, g.Valued x := by
    refine (h.plain_or_climb hms hmem (hsupplied m p hmem)).resolve_right ?_
    rintro ⟨operand, next, hclimb, -⟩
    exact h.construction_ne_climb he hms hmem hisop (congrArg Production.construction hclimb)
  have hold : ∀ x ∈ op.rest, (g.stratifyAt e).Valued x := by
    intro x hx
    have hx' : x ∈ p.symbols := by
      rw [hsymbols]
      exact List.mem_cons_of_mem _ (hrest ▸ hx)
    exact h.valued_old he hops (h.hasSymbol m p hmem x hx') (hvalued x hx')
  have hoperands : ∀ x ∈ (g.ladderAt e).operatorSymbols op, (g.stratifyAt e).Valued x := by
    intro x hx
    rw [Ladder.operatorSymbols] at hx
    split at hx
    · rcases mem_of_mem_replaceLast hx with hx | rfl
      · exact hold x hx
      · exact h.valued_rightOperand he hops hop
    · exact hold x hx
  have hlength : ((g.ladderAt e).operatorSymbols op).length + 1 = p.symbols.length := by
    rw [Ladder.operatorSymbols, hsymbols, List.length_cons, ← hrest]
    split
    · rw [length_replaceLast (by simp [hrest])]
    · rfl
  have hinner : op.construction.Plain (((g.ladderAt e).operatorSymbols op).length + 1) := by
    rw [hlength, huse]
    exact hplain
  have htail : (g.ladderAt e).tailProduction op =
      ⟨((g.ladderAt e).tailProduction op).symbols,
        .operator op.construction ((g.ladderAt e).loops op), op.prec⟩ := rfl
  rw [htail, Ladder.tailProduction_symbols]
  cases (g.ladderAt e).loops op with
  | true => exact .looping _ op.prec hinner hoperands
  | false =>
      rw [if_neg Bool.false_ne_true, List.append_nil]
      exact .operator op.prec hinner hoperands

theorem supplied_atomProduction {p : Production} (hp : p ∈ g.atomsOf e) :
    ((g.ladderAt e).atomProduction p).Supplied (g.stratifyAt e).Valued := by
  obtain ⟨m, hm, hmem, -⟩ := mem_atomsOf_iff.1 hp
  have hms := h.lt_size_of_mem_unitClosure he hm
  have hold : ∀ x ∈ p.symbols, g.Valued x → (g.stratifyAt e).Valued x := fun x hx hv =>
    h.valued_old he hops (h.hasSymbol m p hmem x hx) hv
  have hlast := h.valued_prefixOperand he hops p.prec
  rw [Ladder.atomProduction]
  split
  · rename_i hends
    have hne : p.symbols ≠ [] := by
      rintro hnil
      simp [hnil] at hends
    rcases h.plain_or_climb hms hmem (hsupplied m p hmem) with
      ⟨hplain, hvalued⟩ | ⟨operand, next, hclimb, hv⟩
    · refine .plain p.prec (by rwa [length_replaceLast hne]) fun x hx => ?_
      rcases mem_of_mem_replaceLast hx with hx | rfl
      · exact hold x hx (hvalued x hx)
      · exact hlast
    · have hoperand : operand ∈ p.symbols := by
        rw [hclimb]
        exact List.mem_cons_self
      rw [hclimb]
      exact .climb _ p.prec (hold operand hoperand hv)
  · exact (hsupplied m p hmem).imp hold

/-- After a step productions still have what they ask for. -/
theorem supplied_stratified {nt : Nat} {p : Production} (hp : g.Stratified e nt p) :
    p.Supplied (g.stratifyAt e).Valued := by
  cases hp with
  | @kept i k q hi hq =>
      have hmem := mem_productionsOf_iff.2 ⟨k, hq⟩
      rcases keptProduction_cases g e nt k q with heq | ⟨j, op, -, -, heq⟩
      · rw [heq]
        exact (hsupplied nt q hmem).imp fun s hs hv =>
          h.valued_old he hops (h.hasSymbol nt q hmem s hs) hv
      · rw [heq]
        exact .climb _ _ (h.valued_operand he hops _)
  | head hk => exact .climb _ _ (h.valued_operand he hops _)
  | operator hop => exact h.supplied_tailProduction he hops hsupplied hop
  | ending hk => exact .ending _
  | atom hq => exact h.supplied_atomProduction he hops hsupplied hq
  | forced hop =>
      exact h.supplied_tailProduction he hops hsupplied
        (List.mem_filter.1 (List.mem_of_getElem? hop)).1

end Step

theorem supplied_stratifyAt (he : e < size) (hsupplied : g.Supplied) : (g.stratifyAt e).Supplied := by
  by_cases hops : g.operatorsOn e = []
  · rw [stratifyAt_of_eq_nil hops]
    exact hsupplied
  · intro i p hp
    have hes : e < g.size := Nat.lt_of_lt_of_le he h.size_le
    exact h.supplied_stratified he hops hsupplied ((mem_productionsOf_stratifyAt_iff hops hes).1 hp)

end Staged

/-- In a stratified grammar all productions have what they ask for, if they had it before. -/
theorem Staged.supplied_stratify {types : Nat} {g : Grammar} (h : g.Staged types g.size)
    (hsupplied : g.Supplied) : g.stratify.Supplied := by
  have hstage : ∀ k ≤ g.size, (g.stage k).Supplied := by
    intro k hk
    induction k with
    | zero => exact hsupplied
    | succ k ih =>
        rw [stage_succ]
        exact (h.stage (Nat.le_of_succ_le hk)).supplied_stratifyAt hk (ih (Nat.le_of_succ_le hk))
  rw [stratify_eq_stage]
  exact hstage g.size (Nat.le_refl _)

end Grammar

/-- What a rule of the type builds asks only for children that are there. -/
theorem NodeType.plain_construction {t : NodeType} {r : Rule} (hr : r ∈ t.rules)
    (hchecked : t.checkFields = .ok ()) {c : Construction} (hc : t.construction r = .ok c) :
    c.Plain r.body.length := by
  cases htemplate : r.template with
  | construct =>
      have hbuilds : r ∈ t.buildingRules := List.mem_filter.2 ⟨hr, by rw [htemplate]; rfl⟩
      simp only [construction, htemplate] at hc
      obtain rfl := Except.ok.inj hc
      intro slot hslot
      obtain ⟨d, hd, rfl⟩ := List.mem_map.1 hslot
      exact t.fieldPlace_lt hchecked hbuilds hd
  | skip =>
      simp only [construction, htemplate] at hc
      split at hc
      · obtain rfl := Except.ok.inj hc
        trivial
      · simp at hc
  | _ =>
      simp only [construction, htemplate] at hc
      obtain rfl := Except.ok.inj hc
      trivial

/-- The productions of node types have what they ask for: each field of a type is one of the children. -/
theorem Naming.Makes.supplied {ns : Naming} {declared : List NodeType} {lowered : Lowered}
    (h : ns.Makes declared lowered) (hbuilt : ∀ t ∈ ns.types, t.Built) :
    lowered.grammar.Supplied := by
  have hstaged := Grammar.staged_of_lowered h hbuilt
  intro i p hp
  obtain ⟨t, ht, r, hr, hproduction⟩ := (h.mem_productionsOf_iff i p).1 hp
  obtain ⟨-, hsymbols, hc, -⟩ := production?_eq_some_iff.1 hproduction
  refine .plain p.prec ?_ fun s hs => ?_
  · rw [← hsymbols.length_eq]
    exact t.plain_construction hr (h.checkFields t ht) hc
  · cases s with
    | terminal j => trivial
    | nonTerminal j => exact hstaged.valued_of_lt (h.hasSymbol hp _ hs)

/-! ## What trees yield under other kinds -/

/-- The second meaning is the first one with other kinds of nodes. The values are compared only where the
tree has one of its own. -/
structure Meaning.Renamed (ρ : String → String) (valued : Prop) (m m' : Meaning) : Prop where
  value : valued → m'.value = m.value.rename ρ
  items : m'.items = m.items.map (Value.rename ρ)
  climb : ∀ left, m'.climb (left.rename ρ) = (m.climb left).rename ρ

namespace Meaning

variable {ρ : String → String} {ms ms' : List Meaning}

theorem renamed_plain {v v' : Value} (h : v' = v.rename ρ) (valued : Prop) :
    Renamed ρ valued (plain v) (plain v') :=
  ⟨fun _ => h, rfl, fun _ => rfl⟩

/-- The values of meanings that all have one. -/
theorem map_value_of_renamed (h : Forall₂ (Renamed ρ True) ms ms') :
    ms'.map value = (ms.map value).map (Value.rename ρ) := by
  induction h with
  | nil => rfl
  | cons hm _ ih => rw [List.map_cons, List.map_cons, List.map_cons, ih, hm.value trivial]

theorem listItems_of_renamed (h : Forall₂ (Renamed ρ True) ms ms') :
    listItems ms' = (listItems ms).map (Value.rename ρ) := by
  match h with
  | .nil => rfl
  | .cons hm .nil => exact congrArg ([·]) (hm.value trivial)
  | .cons hm (.cons hm' _) =>
      rw [listItems, listItems, List.map_cons, hm.value trivial, hm'.items]

theorem operated_ending_of_renamed (h : Forall₂ (Renamed ρ True) ms ms') {inner : Construction}
    (hc : inner.Plain (ms.length + 1)) (left : Value) :
    operated (inner.rename ρ) false ms' (left.rename ρ) =
      (operated inner false ms left).rename ρ := by
  have hplain : inner.Plain (left :: ms.map value).length := by simpa using hc
  rw [operated_ending, operated_ending, map_value_of_renamed h, ← Construction.apply_rename hplain,
    List.map_cons]

theorem operated_looping_of_renamed (h : Forall₂ (Renamed ρ True) ms ms') {valued : Prop}
    {tail tail' : Meaning} (htail : Renamed ρ valued tail tail') {inner : Construction}
    (hc : inner.Plain (ms.length + 1)) (left : Value) :
    operated (inner.rename ρ) true (ms' ++ [tail']) (left.rename ρ) =
      (operated inner true (ms ++ [tail]) left).rename ρ := by
  have hplain : inner.Plain (left :: ms.map value).length := by simpa using hc
  rw [operated_looping, operated_looping, map_value_of_renamed h, ← htail.climb,
    ← Construction.apply_rename hplain, List.map_cons]

/-- Where a construction makes no operator, the meaning of the node is the value that it builds. -/
theorem renamed_ofNode_of_plain (h : Forall₂ (Renamed ρ True) ms ms') {c : Construction}
    (hc : c.Plain ms.length) (valued : Prop) :
    Renamed ρ valued (ofNode c ms) (ofNode (c.rename ρ) ms') := by
  have hplain : c.Plain (ms.map value).length := by simpa using hc
  have hvalue : (c.rename ρ).apply (ms'.map value) = (c.apply (ms.map value)).rename ρ := by
    rw [map_value_of_renamed h, Construction.apply_rename hplain]
  cases c with
  | node kind slots => exact renamed_plain hvalue valued
  | child i => exact renamed_plain hvalue valued
  | emptyList => exact renamed_plain hvalue valued
  | listHead =>
      refine renamed_plain ?_ valued
      rw [listItems_of_renamed h, Value.rename_list]
  | listNext =>
      have htail : Forall₂ (Renamed ρ True) ms.tail ms'.tail := by
        cases h with
        | nil => exact .nil
        | cons _ hms => exact hms
      have hitems := listItems_of_renamed htail
      refine ⟨fun _ => ?_, hitems, fun _ => rfl⟩
      show Value.list (listItems ms'.tail) = (Value.list (listItems ms.tail)).rename ρ
      rw [hitems, Value.rename_list]
  | climb => exact hc.elim
  | operator inner looping => exact hc.elim
  | endOfTail => exact hc.elim

/-- The trees of symbols that all have values. -/
theorem renamed_of_row {α : Type} {V : Symbol → Prop} {f f' : α → Meaning} {ss : List Symbol}
    {cs : List α} (hcs : Forall₂ (fun s c => Renamed ρ (V s) (f c) (f' c)) ss cs)
    (hss : ∀ s ∈ ss, V s) : Forall₂ (Renamed ρ True) (cs.map f) (cs.map f') := by
  induction hcs with
  | nil => exact .nil
  | @cons s c ss cs hc _ ih =>
      obtain ⟨hs, hss⟩ := List.forall_mem_cons.1 hss
      exact .cons ⟨fun _ => hc.value hs, hc.items, hc.climb⟩ (ih hss)

/-- A production that has what it asks for means the same under other kinds, if its children do. Where it
stands for an operator it has no value of its own. -/
theorem renamed_ofNode {α : Type} {V : Symbol → Prop} {p : Production} (h : p.Supplied V)
    {f f' : α → Meaning} {cs : List α}
    (hcs : Forall₂ (fun s c => Renamed ρ (V s) (f c) (f' c)) p.symbols cs) {valued : Prop}
    (hvalued : valued → ∀ inner looping, p.construction ≠ .operator inner looping) :
    Renamed ρ valued (ofNode p.construction (cs.map f))
      (ofNode (p.construction.rename ρ) (cs.map f')) := by
  cases h with
  | plain prec hc hs =>
      rw [hcs.length_eq, ← List.length_map f] at hc
      exact renamed_ofNode_of_plain (renamed_of_row hcs hs) hc valued
  | climb next prec hs =>
      obtain ⟨c, c', rfl, hoperand, hnext⟩ := forall₂_pair hcs
      refine renamed_plain ?_ valued
      show (f' c').climb (f' c).value = ((f c').climb (f c).value).rename ρ
      rw [hoperand.value hs, hnext.climb]
  | operator prec hc hs =>
      rw [hcs.length_eq, ← List.length_map f] at hc
      exact ⟨fun hv => absurd rfl (hvalued hv _ _), rfl,
        operated_ending_of_renamed (renamed_of_row hcs hs) hc⟩
  | looping tail prec hc hs =>
      obtain ⟨us, ts, rfl, hus, hts⟩ := exists_append_of_forall₂ hcs
      cases hts with
      | @cons _ t _ _ ht hts =>
          cases hts
          rw [hus.length_eq, ← List.length_map f] at hc
          refine ⟨fun hv => absurd rfl (hvalued hv _ _), rfl, fun left => ?_⟩
          rw [List.map_append, List.map_append]
          exact operated_looping_of_renamed (renamed_of_row hus hs) ht hc left
  | ending prec =>
      cases hcs
      exact renamed_plain (Value.rename_empty ρ).symm valued

end Meaning

end SmallLang
