import SmallLang.Proofs.Extension.Holder
import SmallLang.Proofs.Extension.Operand
import SmallLang.Proofs.Operator.Unfold

/-!
# What the new grammar makes of the trees of the old one

`Extension.Carried` says, for each kind of non-terminal of the old stratified grammar, where its trees
embed in the new one: a type embeds as itself, a level as every looser level of the grown ladder, and a
tail as the tail of the same priority. A type that units lead to from a new ladder embeds in the atoms
of this ladder. Then no operator of an old ladder inside it can have been taken, since the table of the
new grammar would have had to decide whether to take it (`Extension.not_canPrecede_of_inlined`).

Here are the steps of the induction, one for each kind of production.
-/

set_option autoImplicit false

namespace SmallLang

open List (Forall₂)

/-- A tree over a declared production of a type has a value and nothing else. -/
theorem Production.Declared.exists_plain {types size i : Nat} {p : Production}
    (h : p.Declared types size i) (hi : i < types) (ms : List Meaning) :
    ∃ v, Meaning.ofNode p.construction ms = .plain v := by
  cases h with
  | node kind slots prec _ hs => exact ⟨_, rfl⟩
  | child place prec _ hs => exact ⟨_, rfl⟩
  | emptyList prec => exact ⟨_, rfl⟩
  | listHead prec _ hs hrest hlt => exact ⟨_, rfl⟩
  | listNext divider prec hge hs hrest hlt => exact absurd hi (Nat.not_lt.2 hge)

namespace Grammar

namespace Extension

/-- The atoms of a ladder that was none before take in the type. -/
structure Inlines (n : Nat) (g g' : Grammar) (e x : Nat) : Prop where
  lt : e < n
  ladder : g'.HasLadder e
  new : ¬ g.HasLadder e
  mem : x ∈ g.closureAt e

/-- Where a tree of a level of the given priority embeds. -/
structure LevelCarried (n : Nat) (g g' : Grammar) (x : Nat) (p : Int32) (t : ParseTree) : Prop where
  climbs : ∀ j q b, (g'.ladder x).levels[j]? = some q → q ≤ p →
    (g'.ladder x).climbProduction j ((g'.ladder x).tail j) ∈ g'.stratify.productionsOf b →
      Embeds g.stratify g'.stratify t (.nonTerminal b)
  inlined : ∀ e, Inlines n g g' e x → e < x →
    Embeds g.stratify g'.stratify t (.nonTerminal (g'.ladder e).atom)
  plain : ∃ v, t.meaning g.stratify = .plain v

/-- Where a tree of the atoms embeds. -/
structure AtomCarried (n : Nat) (g g' : Grammar) (x : Nat) (t : ParseTree) : Prop where
  atom : Embeds g.stratify g'.stratify t (.nonTerminal (g'.ladder x).atom)
  inlined : ∀ e, Inlines n g g' e x → e < x →
    Embeds g.stratify g'.stratify t (.nonTerminal (g'.ladder e).atom)
  plain : ∃ v, t.meaning g.stratify = .plain v

/-- Where a tree of the tail of the given priority embeds, and that it has to be empty where a ladder
that was none before takes in its type. -/
structure TailCarried (n : Nat) (g g' : Grammar) (x : Nat) (p : Int32) (t : ParseTree) : Prop where
  tail : Embeds g.stratify g'.stratify t
    (.nonTerminal ((g'.ladder x).tail ((g'.ladder x).levelOf p)))
  idle : ∀ e rest, Inlines n g g' e x → e < x →
    g'.stratify.CanPrecede (.nonTerminal (g'.ladder e).atom) rest →
      t.tokens = [] ∧ (t.meaning g.stratify).climb = id

/-- Where a tree of a forced operator embeds, and where there cannot be one. -/
structure ForcedCarried (n n' : Nat) (g g' : Grammar) (x m i : Nat) (op : OperatorUse)
    (t : ParseTree) : Prop where
  forced : ∀ j, g'.Finds x m i j (op.renumber n n') →
    Embeds g.stratify g'.stratify t (.nonTerminal ((g'.ladder x).forced j))
  absurd : ∀ e rest, Inlines n g g' e m → e < x →
    ¬ g'.stratify.CanPrecede (.nonTerminal (g'.ladder e).atom) rest

/-- A derivation tree of the old stratified grammar, and where it embeds in the new one. -/
structure Carried (n n' : Nat) (g g' : Grammar) (s : Symbol) (t : ParseTree) : Prop where
  derives : g.stratify.Derives s t
  old : g.HasSymbol s → Embeds g.stratify g'.stratify t (s.renumber n n')
  inlined : ∀ x e, s = .nonTerminal x → Inlines n g g' e x →
    Embeds g.stratify g'.stratify t (.nonTerminal (g'.ladder e).atom)
  level : ∀ x k p, x < n → (g.ladder x).levels[k]? = some p →
    s = .nonTerminal ((g.ladder x).head k) → LevelCarried n g g' x p t
  atom : ∀ x, x < n → g.HasLadder x → s = .nonTerminal (g.ladder x).atom → AtomCarried n g g' x t
  tail : ∀ x k p, x < n → (g.ladder x).levels[k]? = some p →
    s = .nonTerminal ((g.ladder x).tail k) → TailCarried n g g' x p t
  forced : ∀ x m i j op, x < n → g.Finds x m i j op →
    s = .nonTerminal ((g.ladder x).forced j) → ForcedCarried n n' g g' x m i op t

variable {n n' : Nat} {g g' : Grammar} (h : Extension n n' g g') (hg' : g'.stratify.WellFormed)
include h hg'

/-! ## Operands and rows -/

/-- Where a tree of a limited operand embeds: with the same limit, and as the whole ladder. -/
theorem embeds_operand {x : Nat} (hx : x < n) (hladder : g.HasLadder x) {prec : Prec}
    {t : ParseTree}
    (ht : Carried n n' g g' (.nonTerminal ((g.ladder x).prefixOperand prec)) t) :
    Embeds g.stratify g'.stratify t (.nonTerminal ((g'.ladder x).prefixOperand prec)) ∧
      Embeds g.stratify g'.stratify t (.nonTerminal x) ∧
      (∀ e, Inlines n g g' e x → e < x →
        Embeds g.stratify g'.stratify t (.nonTerminal (g'.ladder e).atom)) ∧
      ∃ v, t.meaning g.stratify = .plain v := by
  have hladder' := h.hasLadder hx hladder
  have hclimb : ∀ {j q}, (g'.ladder x).levels[j]? = some q →
      (g'.ladder x).climbProduction j ((g'.ladder x).tail j) ∈
        g'.stratify.productionsOf ((g'.ladder x).head j) := by
    intro j q hq
    exact h.new.climb_mem_head hladder' (h.lt_new hx) (List.getElem?_eq_some_iff.1 hq).1
  rcases (g.ladder x).prefixOperand_spec prec with ⟨k, p, hp, hadmits, -, heq⟩ | ⟨-, heq⟩
  · rw [heq] at ht
    have hlevel := ht.level x k p hx hp rfl
    obtain ⟨j, q, hq, hqp, heq'⟩ := h.exists_level_of_prefixOperand hx hp hadmits
    obtain ⟨q₀, hq₀, hqp₀⟩ := h.exists_level_zero hx hp
    refine ⟨?_, ?_, hlevel.inlined, hlevel.plain⟩
    · rw [heq']
      exact hlevel.climbs j q _ hq hqp (hclimb hq)
    · exact hlevel.climbs 0 q₀ x hq₀ hqp₀ (hclimb hq₀)
  · rw [heq] at ht
    have hatom := ht.atom x hx hladder rfl
    obtain ⟨hinto, hwhole⟩ := h.new.into_prefixOperand hg' hladder' (h.lt_new hx) prec
    refine ⟨?_, ?_, hatom.inlined, hatom.plain⟩
    · exact hatom.atom.into hinto hatom.plain
    · exact hatom.atom.into (hinto.trans hwhole) hatom.plain

omit hg' in
/-- A tree of a type has a value and nothing else. -/
theorem exists_plain {x : Nat} (hx : x < n) {t : ParseTree}
    (ht : g.stratify.Derives (.nonTerminal x) t) : ∃ v, t.meaning g.stratify = .plain v :=
  ⟨_, (h.old.stage (Nat.le_refl _)).meaning_eq_plain hx ht⟩

/-- A tree embeds as whatever stands for its symbol. -/
theorem embeds_of_maps {s s' : Symbol} {t : ParseTree} (ht : Carried n n' g g' s t)
    (hs : Maps n n' g g' s s') : Embeds g.stratify g'.stratify t s' := by
  cases hs with
  | old hs => exact ht.old hs
  | operand hx hladder prec => exact (h.embeds_operand hg' hx hladder ht).1
  | whole hx hladder prec => exact (h.embeds_operand hg' hx hladder ht).2.1
  | @limited x hx hno hladder prec =>
      have hatom := ht.inlined x x rfl ⟨hx, hladder, hno, Staged.self_mem_closureAt g x⟩
      apply hatom.into (h.new.into_prefixOperand hg' hladder (h.lt_new hx) prec).1
      exact h.exists_plain hx ht.derives

theorem embeds_row {ss ss' : List Symbol} {cs : List ParseTree}
    (hcs : Forall₂ (Carried n n' g g') ss cs) (hss : Forall₂ (Maps n n' g g') ss ss') :
    Forall₂ (Embeds g.stratify g'.stratify) cs ss' := by
  induction hcs generalizing ss' with
  | nil =>
      cases hss
      exact .nil
  | cons hc _ ih =>
      cases hss with
      | cons hs hss => exact .cons (h.embeds_of_maps hg' hc hs) (ih hss)

/-! ## Climbs -/

section Climb

variable {x k nt i : Nat} {p : Int32} {c c' : ParseTree} (hx : x < n)
  (hp : (g.ladder x).levels[k]? = some p)
  (hproduction : g.stratify.production? nt i =
    some ((g.ladder x).climbProduction k ((g.ladder x).tail k)))
  (hoperand : Carried n n' g g' (.nonTerminal ((g.ladder x).operand k)) c)
  (htail : TailCarried n g g' x p c')

omit h hg' in
include hproduction in
/-- The value of a climb is that of its operand, continued by the tail. -/
theorem meaning_climb :
    (ParseTree.node nt i [c, c']).meaning g.stratify =
      .plain ((c'.meaning g.stratify).climb (c.meaning g.stratify).value) := by
  rw [ParseTree.meaning_node, constructionOf_eq hproduction]
  rfl

omit hg' in
include hx hp in
/-- The operand of a level, as an operand that is limited by the priority of the level. -/
theorem operand_eq_prefixOperand :
    (g.ladder x).operand k = (g.ladder x).prefixOperand ⟨.none, p⟩ ∧
      (g'.ladder x).operand ((g'.ladder x).levelOf p) =
        (g'.ladder x).prefixOperand ⟨.none, p⟩ := by
  refine ⟨?_, ?_⟩
  · exact (sorted_ladder g x).operand_eq_prefixOperand hp .none (by simp)
  · exact (sorted_ladder g' x).operand_eq_prefixOperand (h.exists_level hx hp) .none (by simp)

include hx hp hproduction hoperand htail

/-- A climb embeds in every climb from a level that is as loose or looser, with empty tails at the
levels between them. -/
theorem embeds_climb {j : Nat} {q : Int32} {b : Nat} (hq : (g'.ladder x).levels[j]? = some q)
    (hqp : q ≤ p) (hb : (g'.ladder x).climbProduction j ((g'.ladder x).tail j) ∈
      g'.stratify.productionsOf b) :
    Embeds g.stratify g'.stratify (.node nt i [c, c']) (.nonTerminal b) := by
  have hladder := HasLadder.of_level hp
  have hladder' := h.hasLadder hx hladder
  have hnew := h.exists_level hx hp
  have hsorted := sorted_ladder g' x
  obtain ⟨hlt, -⟩ := List.getElem?_eq_some_iff.1 hnew
  have hle : ∀ {j q}, (g'.ladder x).levels[j]? = some q → q ≤ p →
      j ≤ (g'.ladder x).levelOf p := by
    intro j q hq hqp
    by_contra hgt
    have hpq := (hsorted.lt_iff hnew hq).1 (Nat.lt_of_not_le hgt)
    exact Int32.lt_irrefl (Int32.lt_of_lt_of_le hpq hqp)
  obtain ⟨d, hd⟩ : ∃ d, (g'.ladder x).levelOf p - j = d := ⟨_, rfl⟩
  induction d generalizing j q b with
  | zero =>
      -- The level of the same priority.
      obtain rfl : j = (g'.ladder x).levelOf p := by
        have := hle hq hqp
        omega
      obtain ⟨heq, heq'⟩ := h.operand_eq_prefixOperand hx hp
      rw [heq] at hoperand
      have hembeds := (h.embeds_operand hg' hx hladder hoperand).1
      rw [← heq'] at hembeds
      exact Embeds.node hg' hproduction hb rfl (.cons hembeds (.cons htail.tail .nil))
  | succ d ih =>
      -- A looser level, of which the next one is an operand.
      have hjlt : j + 1 ≤ (g'.ladder x).levelOf p := by omega
      have hheight : j + 1 < (g'.ladder x).height := Nat.lt_of_le_of_lt hjlt hlt
      have hnext := List.getElem?_eq_getElem hheight
      have hhead := ih hnext (hsorted.le_of_getElem? hnext hnew hjlt)
        (h.new.climb_mem_head hladder' (h.lt_new hx) hheight) (by omega)
      have hinto := h.new.into_of_climbProduction hg' hladder' (h.lt_new hx)
        (List.getElem?_eq_some_iff.1 hq).1 hb
      rw [Ladder.operand, if_pos hheight] at hinto
      exact hhead.into hinto ⟨_, meaning_climb hproduction⟩

/-- Where a ladder that was none before takes in the type, the tail is empty and the operand embeds
by itself. -/
theorem embeds_climb_of_inlines {e : Nat} (he : Inlines n g g' e x) (hex : e < x) :
    Embeds g.stratify g'.stratify (.node nt i [c, c']) (.nonTerminal (g'.ladder e).atom) := by
  have hladder := HasLadder.of_level hp
  rw [(h.operand_eq_prefixOperand hx hp).1] at hoperand
  obtain ⟨-, -, hinlined, v, hv⟩ := h.embeds_operand hg' hx hladder hoperand
  intro rest hrest
  obtain ⟨htokens, hclimb⟩ := htail.idle e rest he hex hrest
  have hcongr : Embeds g.stratify g'.stratify (.node nt i [c, c'])
      (.nonTerminal (g'.ladder e).atom) := by
    apply (hinlined e he hex).congr
    · rw [ParseTree.tokens_node, List.flatMap_cons, List.flatMap_singleton, htokens,
        List.append_nil]
    · rw [meaning_climb hproduction, hclimb, hv]
      rfl
  exact hcongr rest hrest

/-- A climb in the closure of a ladder embeds in the atoms of this ladder. -/
theorem embeds_climb_of_mem_closureAt {e : Nat} (he : e < n)
    (hladder' : g'.HasLadder e) (hmem : x ∈ g.closureAt e) (hne : e ≠ x)
    (hlt : g.HasLadder e → x < e) :
    Embeds g.stratify g'.stratify (.node nt i [c, c']) (.nonTerminal (g'.ladder e).atom) := by
  have hladder := HasLadder.of_level hp
  obtain ⟨y, hy⟩ := h.exists_holder hg' he hladder' hmem
  have hyn : y < n := Nat.lt_of_le_of_lt hy.le he
  apply Embeds.into (a := (g'.ladder y).atom) _ hy.into ⟨_, meaning_climb hproduction⟩
  by_cases hxy : x < y
  · -- The holder copies the climb.
    obtain ⟨q, hq, hqp⟩ := h.exists_level_zero hx hp
    apply h.embeds_climb hg' hx hp hproduction hoperand htail hq hqp
    exact h.new.climb_mem_atom hy.ladder (h.lt_new hyn) hy.closure (h.hasLadder hx hladder) hxy
  · have hnew : ¬ g.HasLadder y := by
      rcases hy.new with rfl | hnew
      · exact fun hyladder => hxy (hlt hyladder)
      · exact hnew
    have hyx : y ≠ x := by
      rintro rfl
      exact hnew hladder
    exact h.embeds_climb_of_inlines hg' hx hp hproduction hoperand htail
      ⟨hyn, hy.ladder, hnew, hy.old_closure⟩ (by omega)

end Climb

/-! ## Operators -/

omit h hg' in
theorem hasSymbol_rest {x : Nat} {op : OperatorUse} (h : Extension n n' g g') (hx : x < n)
    (hop : op ∈ g.usesAt x) : ∀ s ∈ op.rest, g.HasSymbol s := by
  obtain ⟨m, i, q, -, -, hq, -, rfl⟩ := (h.old.mem_usesAt_iff (h.lt_old hx)).1 hop
  intro s hs
  exact h.old.hasSymbol m q (mem_productionsOf_iff.2 ⟨i, hq⟩) s (List.mem_of_mem_tail hs)

/-- The symbols of an operator map to those of the same operator in the grown ladder. -/
theorem embeds_operatorSymbols {x : Nat} (hx : x < n) {op : OperatorUse} (hop : op ∈ g.usesAt x)
    {cs : List ParseTree}
    (hcs : Forall₂ (Carried n n' g g') ((g.ladder x).operatorSymbols op) cs) :
    Forall₂ (Embeds g.stratify g'.stratify) cs
      ((g'.ladder x).operatorSymbols (op.renumber n n')) := by
  have hladder : g.HasLadder x := List.ne_nil_of_mem hop
  apply h.embeds_row hg' hcs
  rw [operatorSymbols_ladder hop, operatorSymbols_ladder (h.mem_usesAt hx hop)]
  exact h.maps_limited hx hx (h.hasLadder hx hladder) hladder (Or.inl rfl) op.prec
    (hasSymbol_rest h hx hop)

/-- An operator embeds in the same operator of the grown ladder, with its tail if it goes on. -/
theorem embeds_operator {x nt i b : Nat} (hx : x < n) {op : OperatorUse} (hop : op ∈ g.usesAt x)
    (hproduction : g.stratify.production? nt i = some ((g.ladder x).tailProduction op))
    {cs : List ParseTree}
    (hcs : Forall₂ (Carried n n' g g') ((g.ladder x).tailProduction op).symbols cs)
    (hb : (g'.ladder x).tailProduction (op.renumber n n') ∈ g'.stratify.productionsOf b) :
    Embeds g.stratify g'.stratify (.node nt i cs) (.nonTerminal b) := by
  have hloops := h.loops_renumber hx op
  have hconstruction : ((g'.ladder x).tailProduction (op.renumber n n')).construction =
      ((g.ladder x).tailProduction op).construction := by
    simp only [Ladder.tailProduction, hloops]
    rfl
  apply Embeds.node hg' hproduction hb hconstruction
  rw [Ladder.tailProduction_symbols, hloops]
  rw [Ladder.tailProduction_symbols] at hcs
  obtain ⟨us, vs, rfl, hus, hvs⟩ := exists_append_of_forall₂ hcs
  apply List.rel_append (h.embeds_operatorSymbols hg' hx hop hus)
  split at hvs
  · rename_i hgoes
    rw [if_pos hgoes]
    cases hvs with
    | @cons _ v _ vs hv hvs =>
        cases hvs
        have hlevel := Ladder.getElem?_levelOf (mem_levels_ladder_iff.2 ⟨op, hop, rfl⟩)
        exact .cons (hv.tail x _ _ hx hlevel rfl).tail .nil
  · rename_i hends
    rw [if_neg hends]
    cases hvs
    exact .nil

omit hg' in
/-- The holder of what a new ladder takes in has the declaration of an operator on a later type as an
atom. -/
theorem operator_mem_atom_of_holder {e x m i y : Nat} {q : Production} (hex : e < x)
    (he : Inlines n g g' e m) (hy : Holder g g' e m y) (hopen : g.Open e m)
    (hq : g.production? m i = some q) (hisop : q.isOperatorOn x = true) :
    (g'.ladder y).atomProduction (q.renumber n n') ∈
      g'.stratify.productionsOf (g'.ladder y).atom := by
  apply h.atom_mem_of_holder hy he.lt hopen hq
  · exact Production.unitTarget?_of_isOperatorOn hisop
  · exact h.old.isOperatorOn_eq_false (h.lt_old he.lt) he.new he.mem hopen hq
  · intro z hz j op hfinds
    obtain ⟨q', -, -, hq', hisop', -⟩ := h.old.exists_of_finds (h.lt_old hz) hfinds
    obtain rfl : q = q' := Option.some.inj (hq.symm.trans hq')
    obtain rfl := Production.eq_of_isOperatorOn hisop hisop'
    exact hex

omit h hg' in
/-- Such an atom begins with the later type, and what follows are the symbols of the operator. -/
theorem symbols_atomProduction_operator {x : Nat} (l : Ladder) (m i : Nat) {q : Production}
    (hx : x < n) (hisop : q.isOperatorOn x = true) :
    (l.atomProduction (q.renumber n n')).symbols = .nonTerminal x :: l.limited q.prec
      ((operatorUse x m i q).rest.map (Symbol.renumber n n')) := by
  obtain ⟨s, ss, hsymbols⟩ := Production.isOperatorOn_iff.1 hisop
  rw [Ladder.atomProduction_symbols]
  simp only [Production.renumber, operatorUse, hsymbols, List.map_cons, List.length_cons,
    List.tail_cons, Symbol.renumber, renumber_of_lt hx]
  rw [if_pos (by omega), Ladder.limited_cons _ _ _ (List.cons_ne_nil _ _)]

/-- Where a ladder that was none before takes in the declaration of an operator on a later type, this
operator cannot have been taken. The atoms hold the declaration as it is, so what the operator is made
of can follow the later type, and the table would have to decide whether to take it. -/
theorem not_canPrecede_of_inlined {e x m i : Nat} {q : Production} (hx : x < n) (hex : e < x)
    (he : Inlines n g g' e m) (hopen : g.Open e m) (hq : g.production? m i = some q)
    (hisop : q.isOperatorOn x = true) (hop : operatorUse x m i q ∈ g.usesAt x)
    {cs : List ParseTree}
    (hcs : Forall₂ (Carried n n' g g') ((g.ladder x).operatorSymbols (operatorUse x m i q)) cs)
    {table : ParseTable} (htable : g'.stratify.Undecided g'.stratify.firstTable
      (g'.stratify.followTable g'.stratify.firstTable) table) (rest : List Token) :
    ¬ g'.stratify.CanPrecede (.nonTerminal (g'.ladder e).atom) rest := by
  intro hrest
  have hladder : g.HasLadder x := List.ne_nil_of_mem hop
  obtain ⟨y, hy⟩ := h.exists_holder hg' he.lt he.ladder he.mem
  have hyn : y < n := Nat.lt_of_le_of_lt hy.le he.lt
  have hynew : ¬ g.HasLadder y := by
    rcases hy.new with rfl | hnew
    · exact he.new
    · exact hnew
  obtain ⟨k, hk⟩ := mem_productionsOf_iff.1 (h.operator_mem_atom_of_holder hex he hy hopen hq hisop)
  have hsymbols : ((g'.ladder y).atomProduction (q.renumber n n')).symbols = _ :=
    symbols_atomProduction_operator _ m i hx hisop
  have hrow : Forall₂ (Embeds g.stratify g'.stratify) cs ((g'.ladder y).limited q.prec
      ((operatorUse x m i q).rest.map (Symbol.renumber n n'))) := by
    apply h.embeds_row hg' hcs
    rw [operatorSymbols_ladder hop]
    exact h.maps_limited hyn hx hy.ladder hladder (Or.inr hynew) q.prec (hasSymbol_rest h hx hop)
  have hyrest := hy.into.canPrecede rest hrest
  -- Without the later type before it and with nothing after it.
  have hwhole : ((g'.ladder y).atomProduction (q.renumber n n')).symbols =
      [.nonTerminal x] ++ ((g'.ladder y).limited q.prec
        ((operatorUse x m i q).rest.map (Symbol.renumber n n')) ++ []) := by
    rw [hsymbols, List.append_nil]
    rfl
  obtain ⟨ts, hts, htokens, -⟩ := exists_row hg' hk hyrest hwhole .nil hrow
  have hfollows := canPrecede_of_mem_symbols hg' hk hyrest
    (hsymbols.trans (List.nil_append _).symm) hts
  rw [htokens] at hfollows
  refine h.new.not_canPrecede_of_operator hg' htable (h.lt_new hx) (h.mem_usesAt hx hop) ?_
    (h.embeds_operatorSymbols hg' hx hop hcs) rest hfollows
  obtain ⟨s, ss, hq⟩ := Production.isOperatorOn_iff.1 hisop
  simp [OperatorUse.renumber, operatorUse, hq]

end Extension

end Grammar

end SmallLang
