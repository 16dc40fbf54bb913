import Mathlib
import SmallLang.Proofs.Operator.Staged
import SmallLang.Proofs.Lookahead.Follow

/-!
# Unfolding ladders

A derivation of a stratified grammar can be read as one of the grammar before: the tail after an
operand is taken apart into operators, each over what stands before it, and an atom becomes a chain
of units down to the production that it is. This keeps tokens and meanings
(`Grammar.Staged.unfold`), one step of stratification after the other (`Grammar.Staged.unfold_stage`).

The one place from which there is no way back is the tail that a type with an operator of its own
climbs into: it may go on after this operator, and then its tree stands for a larger expression.
`Grammar.forcedNonTerminals` lists these tails.
-/

set_option autoImplicit false

namespace SmallLang

open List (Forall₂)

namespace Grammar

/-! ## Forced operators -/

/-- The non-terminals, added at `e`, that begin with an operator which another type declares. -/
def forcedAt (g : Grammar) (e : Nat) : List Nat :=
  (List.range (g.declaredOperators e).length).map (g.ladderAt e).forced

/-- The non-terminals of the stratified grammar that begin with an operator which another type
declares. -/
def forcedNonTerminals (g : Grammar) : List Nat :=
  (List.range g.size).flatMap fun k => (g.stage k).forcedAt k

theorem forced_mem_forcedAt {g : Grammar} {e j : Nat} {op : OperatorUse}
    (h : (g.declaredOperators e)[j]? = some op) : (g.ladderAt e).forced j ∈ g.forcedAt e :=
  List.mem_map.2 ⟨j, List.mem_range.2 (List.getElem?_eq_some_iff.1 h).1, rfl⟩

/-- A step keeps the names of the non-terminals that are there. -/
theorem nameOf_stratifyAt {g : Grammar} {i : Nat} (hi : i < g.size) (e : Nat) :
    (g.stratifyAt e).nameOf i = g.nameOf i := by
  by_cases h : g.operatorsOn e = []
  · rw [stratifyAt_of_eq_nil h]
  · obtain ⟨nt, hnt⟩ := getElem?_eq_some_of_lt_size hi
    rw [nameOf, nameOf, getElem?_stratifyAt_old h hi, hnt, Option.map_some, Option.map_some,
      Option.map_some, keptNonTerminal]
    split <;> rfl

/-- A forced operator is named after the type that declares it and the number of its production. -/
theorem nameOf_of_mem_forcedAt {g : Grammar} {e m : Nat} (hm : m ∈ g.forcedAt e) :
    ∃ nt i : Nat, (g.stratifyAt e).nameOf m = g.nameOf nt ++ "#op" ++ toString i := by
  obtain ⟨j, hj, rfl⟩ := List.mem_map.1 hm
  have hops : g.operatorsOn e ≠ [] := by
    intro h
    rw [declaredOperators, h] at hj
    exact absurd hj (by simp)
  obtain ⟨op, hop⟩ : ∃ op, (g.declaredOperators e)[j]? = some op :=
    ⟨_, List.getElem?_eq_getElem (List.mem_range.1 hj)⟩
  obtain ⟨origin, ho⟩ := Option.isSome_iff_exists.1 (List.mem_filter.1 (List.mem_of_getElem? hop)).2
  refine ⟨origin.1, origin.2, ?_⟩
  rw [nameOf, getElem?_stratifyAt_forced hops hop ho]
  rfl

/-- A tree avoids some non-terminals if none of its nodes is over one of them. -/
def Avoids (numbers : List Nat) (t : ParseTree) : Prop := ∀ m ∈ t.nonTerminals, m ∉ numbers

theorem Avoids.child {numbers : List Nat} {nt p : Nat} {children : List ParseTree}
    (h : Avoids numbers (.node nt p children)) : ∀ c ∈ children, Avoids numbers c := by
  intro c hc m hm
  refine h m ?_
  rw [ParseTree.nonTerminals_node]
  exact List.mem_cons_of_mem _ (List.mem_flatMap.2 ⟨c, hc, hm⟩)

theorem Avoids.root {numbers : List Nat} {nt p : Nat} {children : List ParseTree}
    (h : Avoids numbers (.node nt p children)) : nt ∉ numbers := by
  refine h nt ?_
  rw [ParseTree.nonTerminals_node]
  exact List.mem_cons_self

/-! ## Meanings in a staged grammar -/

namespace Staged

variable {types size : Nat} {g : Grammar} {e : Nat}

/-- A tree of a type has a value and nothing else. -/
theorem meaning_eq_plain (h : g.Staged types size) {i : Nat} (hi : i < types) {t : ParseTree}
    (ht : g.Derives (.nonTerminal i) t) : t.meaning g = .plain (t.value g) := by
  obtain ⟨k, p, children, rfl, hp, -⟩ := derives_nonTerminal_iff.1 ht
  rw [ParseTree.value, ParseTree.meaning_node, constructionOf_eq hp]
  rcases h.declared i (Nat.lt_of_lt_of_le hi h.types_le) p (mem_productionsOf_iff.2 ⟨k, hp⟩) with
    hd | ⟨-, hclimb, -⟩
  · cases hd with
    | node kind slots prec _ hs => rfl
    | child place prec _ hs => rfl
    | emptyList prec => rfl
    | listHead prec _ hs hrest hlt => rfl
    | listNext divider prec hge hs hrest hlt => exact absurd hi (Nat.not_lt.2 hge)
  · rw [hclimb]
    rfl

/-- The value of the rest of a list is the list of its items. -/
theorem itemsOf_rest (h : g.Staged types size) {i : Nat} (hge : types ≤ i) (hi : i < size)
    {t : ParseTree} (ht : g.Derives (.nonTerminal i) t) :
    itemsOf (some (t.meaning g).value) = (t.meaning g).items := by
  obtain ⟨k, p, children, rfl, hp, -⟩ := derives_nonTerminal_iff.1 ht
  rw [ParseTree.meaning_node, constructionOf_eq hp]
  rcases h.declared i hi p (mem_productionsOf_iff.2 ⟨k, hp⟩) with hd | ⟨hlt, -⟩
  · cases hd with
    | node kind slots prec hlt hs => exact absurd hlt (Nat.not_lt.2 hge)
    | child place prec hlt hs => exact absurd hlt (Nat.not_lt.2 hge)
    | emptyList prec => rfl
    | listHead prec hlt hs hrest hlt' => exact absurd hlt (Nat.not_lt.2 hge)
    | listNext divider prec _ hs hrest hlt => rfl
  · exact absurd hlt (Nat.not_lt.2 hge)

/-- A declared production gives a value that depends on the values of its children only. -/
theorem value_ofNode (h : g.Staged types size) {i : Nat} {p : Production}
    (hp : p.Declared types size i) {children : List ParseTree}
    (hc : g.DerivesRow p.symbols children) :
    (Meaning.ofNode p.construction (children.map (ParseTree.meaning g))).value =
      p.construction.apply (children.map (ParseTree.value g)) := by
  have hvalues : (children.map (ParseTree.meaning g)).map Meaning.value =
      children.map (ParseTree.value g) := by
    rw [List.map_map]
    rfl
  cases hp with
  | node kind slots prec hi htypes => simp only [Meaning.ofNode, Meaning.plain, hvalues]
  | child place prec hi htypes => simp only [Meaning.ofNode, Meaning.plain, hvalues]
  | emptyList prec => rfl
  | listHead prec hi htype hrest hlt =>
      obtain ⟨element, tail, rfl, -, htail⟩ := forall₂_pair hc
      have hitems := h.itemsOf_rest hrest hlt htail
      simp only [Meaning.ofNode, Meaning.plain, List.map_cons, List.map_nil, Meaning.listItems,
        Construction.apply, ParseTree.value] at hitems ⊢
      simp [hitems]
  | listNext divider prec hi htype hrest hlt =>
      cases hc with
      | @cons _ mark _ rows hmark hrow =>
          obtain ⟨element, tail, rfl, -, htail⟩ := forall₂_pair hrow
          have hitems := h.itemsOf_rest hrest hlt htail
          simp only [Meaning.ofNode, List.map_cons, List.map_nil, List.tail_cons, Meaning.listItems,
            Construction.apply, ParseTree.value] at hitems ⊢
          simp [hitems]

/-- A tree of a member of the closure is, below a chain of units, a tree of the non-terminal. -/
theorem exists_chain (h : g.Staged types size) (he : e < types) {m : Nat}
    (hm : m ∈ g.unitClosure e) {b : ParseTree} (hb : g.Derives (.nonTerminal m) b) :
    ∃ t, g.Derives (.nonTerminal e) t ∧ t.tokens = b.tokens ∧ t.meaning g = b.meaning g ∧
      ∀ n ∈ t.nonTerminals, n ∈ b.nonTerminals ∨ n < size := by
  have hpath := mem_unitClosure_iff.1 hm
  clear hm
  induction hpath generalizing b with
  | refl => exact ⟨b, hb, rfl, rfl, fun n hn => Or.inl hn⟩
  | @tail m target hpath hstep ih =>
      obtain ⟨p, hp, htarget, -⟩ := hstep
      obtain ⟨i, hi⟩ := mem_productionsOf_iff.1 hp
      obtain ⟨hsymbols, hc⟩ := Production.unitTarget?_eq_some_iff.1 htarget
      have hmt : m < types := h.lt_of_mem_unitClosure he (mem_unitClosure_iff.2 hpath)
      have hms : m < size := Nat.lt_of_lt_of_le hmt h.types_le
      have htt : target < types := (h.lt_of_unitTarget? hms hp htarget).2
      have hrow : g.DerivesRow p.symbols [b] := by
        rw [hsymbols]
        exact .cons hb .nil
      obtain ⟨t, ht, htokens, hmeaning, hnodes⟩ := ih (Derives.node hi hrow)
      refine ⟨t, ht, ?_, ?_, ?_⟩
      · rw [htokens]
        simp
      · rw [hmeaning, ParseTree.meaning_node, constructionOf_eq hi, hc, h.meaning_eq_plain htt hb]
        rfl
      · intro n hn
        rcases hnodes n hn with hn | hn
        · rw [ParseTree.nonTerminals_node] at hn
          rcases List.mem_cons.1 hn with rfl | hn
          · exact Or.inr hms
          · exact Or.inl (by simpa using hn)
        · exact Or.inr hn

end Staged

/-! ## What the symbols of a ladder stand for -/

/-- The symbol of the stratified grammar derives nothing but what the other one derives in the
grammar before: it is the same, or it is a level or the atoms of the ladder. -/
inductive Stands (g : Grammar) (e : Nat) : Symbol → Symbol → Prop
  | old {s : Symbol} (hs : g.HasSymbol s) : Stands g e s s
  | head {k : Nat} (hk : k < (g.ladderAt e).height) :
      Stands g e (.nonTerminal ((g.ladderAt e).head k)) (.nonTerminal e)
  | atom : Stands g e (.nonTerminal (g.ladderAt e).atom) (.nonTerminal e)

namespace Stands

variable {g : Grammar} {e : Nat}

theorem operand (g : Grammar) (e k : Nat) :
    Stands g e (.nonTerminal ((g.ladderAt e).operand k)) (.nonTerminal e) := by
  rcases (g.ladderAt e).operand_eq k with ⟨hk, heq⟩ | ⟨-, heq⟩
  · rw [heq]
    exact .head hk
  · rw [heq]
    exact .atom

theorem rightOperand {op : OperatorUse} (hop : op ∈ g.operatorsOn e) :
    Stands g e (.nonTerminal ((g.ladderAt e).rightOperand op)) (.nonTerminal e) := by
  simp only [Ladder.rightOperand]
  split
  · exact .head (Ladder.levelOf_lt (mem_levels_ladderAt_iff.2 ⟨op, hop, rfl⟩))
  · exact operand g e _

theorem prefixOperand (g : Grammar) (e : Nat) (prec : Prec) :
    Stands g e (.nonTerminal ((g.ladderAt e).prefixOperand prec)) (.nonTerminal e) := by
  rcases prefixOperand_cases g e prec with ⟨k, hk, heq⟩ | heq
  · rw [heq]
    exact .head hk
  · rw [heq]
    exact .atom

/-- A symbol stands for one symbol only. -/
theorem unique (h : g.operatorsOn e ≠ []) {s₁ s₂ s' : Symbol} (h₁ : Stands g e s' s₁)
    (h₂ : Stands g e s' s₂) : s₁ = s₂ := by
  have hold : ∀ {s}, g.HasSymbol s' → Stands g e s' s → s = s' := by
    intro s hs hstands
    cases hstands with
    | old _ => rfl
    | @head k hk =>
        rcases Nat.eq_zero_or_pos k with rfl | hpos
        · rfl
        · exact absurd hs (Nat.not_lt.2 (head_bounds h hpos hk).1)
    | atom => exact absurd hs (Nat.not_lt.2 (atom_bounds h).1)
  have hnew : ∀ {s}, ¬ g.HasSymbol s' → Stands g e s' s → s = .nonTerminal e := by
    intro s hs hstands
    cases hstands with
    | old hs' => exact absurd hs' hs
    | head _ => rfl
    | atom => rfl
  by_cases hs : g.HasSymbol s'
  · rw [hold hs h₁, hold hs h₂]
  · rw [hnew hs h₁, hnew hs h₂]

/-- A tail stands for nothing. -/
theorem not_tail (h : g.operatorsOn e ≠ []) (he : e < g.size) {k : Nat} {s : Symbol}
    (hk : k < (g.ladderAt e).height) :
    ¬ Stands g e (.nonTerminal ((g.ladderAt e).tail k)) s := by
  have hbounds := (tail_bounds h hk).1
  generalize htail : (g.ladderAt e).tail k = n at hbounds
  generalize hs' : Symbol.nonTerminal n = s'
  intro hstands
  cases hstands with
  | old hs =>
      subst hs'
      exact absurd hs (Nat.not_lt.2 hbounds)
  | @head j hj =>
      obtain rfl := Symbol.nonTerminal.inj hs'
      rcases Nat.eq_zero_or_pos j with rfl | hpos
      · rw [Ladder.head_zero, ladderAt_base] at hbounds
        exact absurd he (Nat.not_lt.2 hbounds)
      · rw [Ladder.tail, Ladder.head_of_pos hpos] at htail
        omega
  | atom =>
      obtain rfl := Symbol.nonTerminal.inj hs'
      rw [Ladder.tail, Ladder.atom] at htail
      omega

/-- The symbols of a row that was changed in its last place only stand for those of the row. -/
theorem replaceLast {ss : List Symbol} (hss : ∀ s ∈ ss, g.HasSymbol s) {s' : Symbol}
    (hlast : ss.getLast? = some (.nonTerminal e)) (hs' : Stands g e s' (.nonTerminal e)) :
    Forall₂ (Stands g e) (SmallLang.replaceLast ss s') ss := by
  have hne : ss ≠ [] := by
    rintro rfl
    simp at hlast
  have hsplit := List.dropLast_append_getLast hne
  rw [List.getLast?_eq_some_getLast hne] at hlast
  rw [Option.some.inj hlast] at hsplit
  rw [SmallLang.replaceLast]
  conv => arg 3; rw [← hsplit]
  refine List.rel_append (List.forall₂_same.2 fun s hs => ?_) (.cons hs' .nil)
  exact .old (hss s ((List.dropLast_sublist _).subset hs))

end Stands

/-! ## One step back -/

/-- The second tree says in the grammar `g` what the first one says in the grammar `g'`. Further
nodes of it are over non-terminals that were there from the beginning. -/
structure Unfolds (g g' : Grammar) (size : Nat) (t' t : ParseTree) : Prop where
  tokens : t.tokens = t'.tokens
  meaning : t.meaning g = t'.meaning g'
  nodes : ∀ m ∈ t.nonTerminals, m ∈ t'.nonTerminals ∨ m < size

theorem unfolds_row {g g' : Grammar} {size : Nat} {cs' cs : List ParseTree}
    (h : Forall₂ (Unfolds g g' size) cs' cs) :
    cs.flatMap ParseTree.tokens = cs'.flatMap ParseTree.tokens ∧
      cs.map (ParseTree.meaning g) = cs'.map (ParseTree.meaning g') ∧
      ∀ m ∈ cs.flatMap ParseTree.nonTerminals,
        m ∈ cs'.flatMap ParseTree.nonTerminals ∨ m < size := by
  induction h with
  | nil => exact ⟨rfl, rfl, fun m hm => absurd hm List.not_mem_nil⟩
  | cons hc _ ih =>
      obtain ⟨htokens, hmeaning, hnodes⟩ := ih
      refine ⟨?_, ?_, ?_⟩
      · rw [List.flatMap_cons, List.flatMap_cons, hc.tokens, htokens]
      · rw [List.map_cons, List.map_cons, hc.meaning, hmeaning]
      · intro m hm
        rw [List.flatMap_cons, List.mem_append] at hm ⊢
        rcases hm with hm | hm
        · exact (hc.nodes m hm).imp_left Or.inl
        · exact (hnodes m hm).imp_left Or.inr

/-- What a tree of a tail does with an operand: the operators of the tail over the operand. -/
def Continues (g g' : Grammar) (size e : Nat) (t' : ParseTree) : Prop :=
  ∀ a, g.Derives (.nonTerminal e) a →
    ∃ t, g.Derives (.nonTerminal e) t ∧ t.tokens = a.tokens ++ t'.tokens ∧
      t.value g = (t'.meaning g').climb (a.value g) ∧
      ∀ m ∈ t.nonTerminals, m ∈ a.nonTerminals ∨ m ∈ t'.nonTerminals ∨ m < size

/-- The tree can be read in the grammar `g` as every symbol that its own symbol stands for. -/
def Reads (g g' : Grammar) (size e : Nat) (s' : Symbol) (t' : ParseTree) : Prop :=
  ∀ s, g.Stands e s' s → ∃ t, g.Derives s t ∧ Unfolds g g' size t' t

theorem exists_row_of_reads {g g' : Grammar} {size e : Nat} {ss' ss : List Symbol}
    {cs' : List ParseTree} (hc : Forall₂ (Reads g g' size e) ss' cs')
    (hstands : Forall₂ (g.Stands e) ss' ss) :
    ∃ cs, g.DerivesRow ss cs ∧ Forall₂ (Unfolds g g' size) cs' cs := by
  induction hc generalizing ss with
  | nil =>
      cases hstands
      exact ⟨[], .nil, .nil⟩
  | cons hread _ ih =>
      cases hstands with
      | cons hs hss =>
          obtain ⟨t, ht, hunfolds⟩ := hread _ hs
          obtain ⟨ts, hts, hunfolds'⟩ := ih hss
          exact ⟨t :: ts, .cons ht hts, .cons hunfolds hunfolds'⟩

end Grammar

namespace Meaning

theorem operated_looping (inner : Construction) (ms : List Meaning) (tail : Meaning) (left : Value) :
    operated inner true (ms ++ [tail]) left =
      tail.climb (inner.apply (left :: ms.map Meaning.value)) := by
  simp [operated]

theorem operated_ending (inner : Construction) (ms : List Meaning) (left : Value) :
    operated inner false ms left = inner.apply (left :: ms.map Meaning.value) := by
  simp [operated]

end Meaning

namespace Grammar

namespace Staged

variable {types size : Nat} {g : Grammar} {e : Nat}

theorem stands_operatorSymbols (h : g.Staged types size) {op : OperatorUse}
    (hop : op ∈ g.operatorsOn e) :
    Forall₂ (g.Stands e) ((g.ladderAt e).operatorSymbols op) op.rest := by
  have hrest := h.hasSymbol_of_operator hop
  rw [Ladder.operatorSymbols]
  split
  · rename_i hinfix
    exact Stands.replaceLast hrest (eq_of_beq hinfix) (Stands.rightOperand hop)
  · exact List.forall₂_same.2 fun s hs => .old (hrest s hs)

theorem stands_atomProduction (h : g.Staged types size) {p : Production} (hp : p ∈ g.atomsOf e) :
    Forall₂ (g.Stands e) ((g.ladderAt e).atomProduction p).symbols p.symbols := by
  obtain ⟨m, -, hmem, -⟩ := mem_atomsOf_iff.1 hp
  have hsymbols := h.hasSymbol m p hmem
  rw [Ladder.atomProduction]
  split
  · rename_i hprefix
    have hlast := eq_of_beq (Bool.and_eq_true_iff.1 hprefix).2
    exact Stands.replaceLast hsymbols hlast (Stands.prefixOperand g e p.prec)
  · exact List.forall₂_same.2 fun s hs => .old (hsymbols s hs)

/-- An operator over an operand, as the production that declares it. -/
theorem exists_operator_node (h : g.Staged types size) (he : e < size) {op : OperatorUse}
    (hop : op ∈ g.operatorsOn e) {a : ParseTree} (ha : g.Derives (.nonTerminal e) a)
    {cs : List ParseTree} (hcs : g.DerivesRow op.rest cs) :
    ∃ t, g.Derives (.nonTerminal e) t ∧ t.tokens = a.tokens ++ cs.flatMap ParseTree.tokens ∧
      t.value g = op.construction.apply (a.value g :: cs.map (ParseTree.value g)) ∧
      ∀ m ∈ t.nonTerminals,
        m ∈ a.nonTerminals ∨ m ∈ cs.flatMap ParseTree.nonTerminals ∨ m < size := by
  obtain ⟨m, i, p, hm, hp, hisop, rfl⟩ := mem_operatorsOn_iff.1 hop
  obtain ⟨s, rest, hsymbols⟩ := Production.isOperatorOn_iff.1 hisop
  obtain ⟨hd, het, hmt⟩ := h.declared_of_isOperatorOn he hm (mem_productionsOf_iff.2 ⟨i, hp⟩) hisop
  have hrow : g.DerivesRow p.symbols (a :: cs) := by
    simp only [operatorUse, hsymbols, List.tail_cons] at hcs
    rw [hsymbols]
    exact .cons ha hcs
  obtain ⟨t, ht, htokens, hmeaning, hnodes⟩ := h.exists_chain het hm (Derives.node hp hrow)
  refine ⟨t, ht, ?_, ?_, ?_⟩
  · rw [htokens, ParseTree.tokens_node, List.flatMap_cons]
  · rw [ParseTree.value, hmeaning, ParseTree.meaning_node, constructionOf_eq hp,
      h.value_ofNode hd hrow]
    rfl
  · intro n hn
    rcases hnodes n hn with hn | hn
    · rw [ParseTree.nonTerminals_node, List.flatMap_cons] at hn
      rcases List.mem_cons.1 hn with rfl | hn
      · exact Or.inr (Or.inr (Nat.lt_of_lt_of_le hmt h.types_le))
      · exact (List.mem_append.1 hn).imp_right Or.inl
    · exact Or.inr (Or.inr hn)

/-- What the induction over a tree of the stratified grammar shows: the tree can be read in the
grammar before, and if it is one of a tail, then it continues operands. -/
def Unfoldable (g : Grammar) (size e : Nat) (s' : Symbol) (t' : ParseTree) : Prop :=
  Reads g (g.stratifyAt e) size e s' t' ∧
    ∀ k < (g.ladderAt e).height, s' = .nonTerminal ((g.ladderAt e).tail k) →
      Continues g (g.stratifyAt e) size e t'

theorem reads_of_row {ss : List Symbol} {cs : List ParseTree}
    (hc : Forall₂ (Unfoldable g size e) ss cs) :
    Forall₂ (Reads g (g.stratifyAt e) size e) ss cs :=
  hc.imp fun _ _ h => h.1

/-- An operator over an operand, with the other operands read back. -/
theorem exists_operator_of_unfoldable (h : g.Staged types size) (he : e < size) {op : OperatorUse}
    (hop : op ∈ g.operatorsOn e) {a : ParseTree} (ha : g.Derives (.nonTerminal e) a)
    {operands : List ParseTree}
    (hoperands : Forall₂ (Unfoldable g size e) ((g.ladderAt e).operatorSymbols op) operands) :
    ∃ t, g.Derives (.nonTerminal e) t ∧
      t.tokens = a.tokens ++ operands.flatMap ParseTree.tokens ∧
      t.value g = op.construction.apply
        (a.value g :: (operands.map (ParseTree.meaning (g.stratifyAt e))).map Meaning.value) ∧
      ∀ m ∈ t.nonTerminals,
        m ∈ a.nonTerminals ∨ m ∈ operands.flatMap ParseTree.nonTerminals ∨ m < size := by
  obtain ⟨ts, hts, hunfolds⟩ :=
    exists_row_of_reads (reads_of_row hoperands) (h.stands_operatorSymbols hop)
  obtain ⟨htokens, hmeaning, hnodes⟩ := unfolds_row hunfolds
  obtain ⟨t, ht, httokens, htvalue, htnodes⟩ := h.exists_operator_node he hop ha hts
  have hvalues : ts.map (ParseTree.value g) =
      (operands.map (ParseTree.meaning (g.stratifyAt e))).map Meaning.value := by
    rw [← hmeaning, List.map_map]
    rfl
  refine ⟨t, ht, by rw [httokens, htokens], by rw [htvalue, hvalues], fun m hm => ?_⟩
  rcases htnodes m hm with hm | hm | hm
  · exact Or.inl hm
  · exact Or.inr (hnodes m hm)
  · exact Or.inr (Or.inr hm)

/-- An operator and the rest of its tail continue an operand. -/
theorem continues_operator (h : g.Staged types size) (he : e < size) {op : OperatorUse}
    (hop : op ∈ g.operatorsOn e) {nt i : Nat} {cs : List ParseTree}
    (hp : (g.stratifyAt e).production? nt i = some ((g.ladderAt e).tailProduction op))
    (hc : Forall₂ (Unfoldable g size e) ((g.ladderAt e).tailProduction op).symbols cs) :
    Continues g (g.stratifyAt e) size e (.node nt i cs) := by
  intro a ha
  have hconstruction : (g.stratifyAt e).constructionOf nt i =
      .operator op.construction ((g.ladderAt e).loops op) := constructionOf_eq hp
  rw [Ladder.tailProduction_symbols] at hc
  obtain ⟨operands, tails, rfl, hoperands, htails⟩ := exists_append_of_forall₂ hc
  obtain ⟨t, ht, htokens, hvalue, hnodes⟩ := h.exists_operator_of_unfoldable he hop ha hoperands
  by_cases hloops : (g.ladderAt e).loops op = true
  · -- The rest of the tail continues what the operator has made.
    rw [if_pos hloops] at htails
    obtain _ | @⟨_, tail, _, _, htail, _ | _⟩ := htails
    have hlevel := Ladder.levelOf_lt (mem_levels_ladderAt_iff.2 ⟨op, hop, rfl⟩)
    obtain ⟨t', ht', htokens', hvalue', hnodes'⟩ := htail.2 _ hlevel rfl t ht
    refine ⟨t', ht', ?_, ?_, fun m hm => ?_⟩
    · rw [htokens', htokens, ParseTree.tokens_node, List.flatMap_append, List.append_assoc,
        List.flatMap_singleton]
    · rw [hvalue', hvalue, ParseTree.meaning_node, hconstruction, hloops, List.map_append,
        List.map_singleton]
      exact (Meaning.operated_looping _ _ _ _).symm
    · have hm := (hnodes' m hm).imp_left (hnodes m)
      rw [ParseTree.nonTerminals_node, List.flatMap_append, List.flatMap_singleton, List.mem_cons,
        List.mem_append]
      tauto
  · have hends : (g.ladderAt e).loops op = false := Bool.eq_false_iff.2 hloops
    rw [if_neg hloops] at htails
    cases htails
    refine ⟨t, ht, ?_, ?_, fun m hm => ?_⟩
    · rw [htokens, ParseTree.tokens_node, List.append_nil]
    · rw [hvalue, ParseTree.meaning_node, hconstruction, List.append_nil, hends]
      exact (Meaning.operated_ending _ _ _).symm
    · rw [ParseTree.nonTerminals_node, List.append_nil]
      exact (hnodes m hm).imp_right (Or.imp_left (List.mem_cons_of_mem _))

/-- The end of a tail continues an operand by nothing. -/
theorem continues_ending {nt i : Nat}
    (hp : (g.stratifyAt e).production? nt i = some Ladder.endProduction) :
    Continues g (g.stratifyAt e) size e (.node nt i []) := by
  intro a ha
  refine ⟨a, ha, ?_, ?_, fun m hm => Or.inl hm⟩
  · simp
  · rw [ParseTree.meaning_node, constructionOf_eq hp]
    rfl

/-- A level is an operand continued by its tail. -/
theorem exists_of_climb (h : g.Staged types size) (he : e < types) {nt i k : Nat}
    (hk : k < (g.ladderAt e).height) {cs : List ParseTree}
    (hp : (g.stratifyAt e).production? nt i =
      some ((g.ladderAt e).climbProduction k ((g.ladderAt e).tail k)))
    (hc : Forall₂ (Unfoldable g size e)
      ((g.ladderAt e).climbProduction k ((g.ladderAt e).tail k)).symbols cs) :
    ∃ t, g.Derives (.nonTerminal e) t ∧
      Unfolds g (g.stratifyAt e) size (.node nt i cs) t := by
  cases hc with
  | @cons _ operand _ cs hoperand hc =>
      cases hc with
      | @cons _ tail _ cs htail hc =>
          cases hc
          obtain ⟨a, ha, hunfolds⟩ := hoperand.1 _ (Stands.operand g e k)
          obtain ⟨t, ht, htokens, hvalue, hnodes⟩ := htail.2 k hk rfl a ha
          refine ⟨t, ht, ?_, ?_, ?_⟩
          · rw [htokens, hunfolds.tokens]
            simp
          · rw [h.meaning_eq_plain he ht, hvalue, ParseTree.meaning_node, constructionOf_eq hp,
              ParseTree.value, hunfolds.meaning]
            rfl
          · intro m hm
            rw [ParseTree.nonTerminals_node, List.flatMap_cons, List.flatMap_singleton]
            rcases hnodes m hm with hm | hm | hm
            · rcases hunfolds.nodes m hm with hm | hm
              · exact Or.inl (List.mem_cons_of_mem _ (List.mem_append_left _ hm))
              · exact Or.inr hm
            · exact Or.inl (List.mem_cons_of_mem _ (List.mem_append_right _ hm))
            · exact Or.inr hm

/-- An atom is, below a chain of units, the production that it comes from. -/
theorem exists_of_atom (h : g.Staged types size) (he : e < types) {i : Nat} {p : Production}
    (hatom : p ∈ g.atomsOf e) {cs : List ParseTree}
    (hp : (g.stratifyAt e).production? (g.ladderAt e).atom i =
      some ((g.ladderAt e).atomProduction p))
    (hc : Forall₂ (Unfoldable g size e) ((g.ladderAt e).atomProduction p).symbols cs) :
    ∃ t, g.Derives (.nonTerminal e) t ∧
      Unfolds g (g.stratifyAt e) size (.node (g.ladderAt e).atom i cs) t := by
  obtain ⟨m, hm, hmem, -⟩ := mem_atomsOf_iff.1 hatom
  obtain ⟨j, hj⟩ := mem_productionsOf_iff.1 hmem
  obtain ⟨ts, hts, hunfolds⟩ := exists_row_of_reads (reads_of_row hc) (h.stands_atomProduction hatom)
  obtain ⟨htokens, hmeaning, hnodes⟩ := unfolds_row hunfolds
  obtain ⟨t, ht, httokens, htmeaning, htnodes⟩ := h.exists_chain he hm (Derives.node hj hts)
  refine ⟨t, ht, ?_, ?_, ?_⟩
  · rw [httokens, ParseTree.tokens_node, htokens, ParseTree.tokens_node]
  · rw [htmeaning, ParseTree.meaning_node, ParseTree.meaning_node, constructionOf_eq hj,
      constructionOf_eq hp, Ladder.atomProduction_construction, hmeaning]
  · intro n hn
    rcases htnodes n hn with hn | hn
    · rw [ParseTree.nonTerminals_node] at hn ⊢
      rcases List.mem_cons.1 hn with rfl | hn
      · exact Or.inr (Nat.lt_of_lt_of_le (h.lt_of_mem_unitClosure he hm) h.types_le)
      · exact (hnodes n hn).imp_left (List.mem_cons_of_mem _)
    · exact Or.inr hn

/-- A production that stayed as it was says the same in both grammars. -/
theorem unfolds_kept (h : g.Staged types size) {nt i k : Nat} {p : Production}
    (hk : g.production? nt k = some p) (hp : (g.stratifyAt e).production? nt i = some p)
    {cs : List ParseTree} (hc : Forall₂ (Unfoldable g size e) p.symbols cs) :
    ∃ t, g.Derives (.nonTerminal nt) t ∧
      Unfolds g (g.stratifyAt e) size (.node nt i cs) t := by
  have hstands : Forall₂ (g.Stands e) p.symbols p.symbols := List.forall₂_same.2 fun s hs =>
    .old (h.hasSymbol nt p (mem_productionsOf_iff.2 ⟨k, hk⟩) s hs)
  obtain ⟨ts, hts, hunfolds⟩ := exists_row_of_reads (reads_of_row hc) hstands
  obtain ⟨htokens, hmeaning, hnodes⟩ := unfolds_row hunfolds
  refine ⟨.node nt k ts, Derives.node hk hts, ?_, ?_, ?_⟩
  · rw [ParseTree.tokens_node, htokens, ParseTree.tokens_node]
  · rw [ParseTree.meaning_node, ParseTree.meaning_node, constructionOf_eq hk, constructionOf_eq hp,
      hmeaning]
  · intro n hn
    rw [ParseTree.nonTerminals_node] at hn ⊢
    rcases List.mem_cons.1 hn with rfl | hn
    · exact Or.inl List.mem_cons_self
    · exact (hnodes n hn).imp_left (List.mem_cons_of_mem _)

/-- Every derivation of the stratified grammar without a forced operator can be read in the grammar
before. -/
theorem unfoldable (h : g.Staged types size) (he : e < size) (hops : g.operatorsOn e ≠ [])
    {s' : Symbol} {t' : ParseTree} (ht' : (g.stratifyAt e).Derives s' t') :
    Avoids (g.forcedAt e) t' → Unfoldable g size e s' t' := by
  have het := h.lt_types_of_operatorsOn_ne_nil he hops
  have hes := Nat.lt_of_lt_of_le he h.size_le
  -- What stands for something is read in one way, and is not a tail.
  have hone : ∀ {s'} {t'} {s}, g.Stands e s' s →
      (∃ t, g.Derives s t ∧ Unfolds g (g.stratifyAt e) size t' t) →
      Unfoldable g size e s' t' := by
    intro s' t' s hs ht
    refine ⟨fun s₁ hs₁ => ?_, fun k hk htail => ?_⟩
    · rw [hs₁.unique hops hs]
      exact ht
    · rw [htail] at hs
      exact absurd hs (Stands.not_tail hops hes hk)
  -- A tail is not read as anything.
  have htail : ∀ {k} {t'}, k < (g.ladderAt e).height → Continues g (g.stratifyAt e) size e t' →
      Unfoldable g size e (.nonTerminal ((g.ladderAt e).tail k)) t' := by
    intro k t' hk hcontinues
    exact ⟨fun s hs => absurd hs (Stands.not_tail hops hes hk), fun _ _ _ => hcontinues⟩
  induction ht' using Derives.rec_on with
  | token t =>
      intro _
      refine ⟨fun s hs => ?_, fun k _ hk => absurd hk (by simp)⟩
      generalize hs' : Symbol.terminal t.terminal = s' at hs
      cases hs with
      | old _ => exact ⟨.token t, hs' ▸ Derives.token t, rfl, rfl, fun m hm => Or.inl hm⟩
      | head _ => exact absurd hs' (by simp)
      | atom => exact absurd hs' (by simp)
  | node nt i p cs hp hc ih =>
      intro havoids
      -- The children avoid forced operators as well, so they can be read.
      have hreads : Forall₂ (Unfoldable g size e) p.symbols cs :=
        forall₂_imp_of_mem ih fun s c hmem hc => hc.2 (havoids.child c hmem)
      have hstratified := (mem_productionsOf_stratifyAt_iff hops hes).1
        (mem_productionsOf_iff.2 ⟨i, hp⟩)
      cases hstratified with
      | @kept _ k q hne hq =>
          rcases keptProduction_cases g e nt k q with heq | ⟨j, op, hop, -, heq⟩
          · rw [heq] at hp hreads
            exact hone (.old (lt_size_of_production? hq)) (h.unfolds_kept hq hp hreads)
          · -- The second child is over a forced operator.
            rw [heq] at hc
            obtain ⟨operand, forced, rfl, -, hforced⟩ := forall₂_pair hc
            obtain ⟨i', -, cs', rfl, -⟩ := derives_nonTerminal_iff.1 hforced
            have hroot := (havoids.child _ (List.mem_cons_of_mem _ List.mem_cons_self)).root
            exact absurd (forced_mem_forcedAt hop) hroot
      | @head k hk => exact hone (.head hk) (h.exists_of_climb het hk hp hreads)
      | @operator op hop =>
          have hlevel := Ladder.levelOf_lt (mem_levels_ladderAt_iff.2 ⟨op, hop, rfl⟩)
          exact htail hlevel (h.continues_operator he hop hp hreads)
      | @ending k hk =>
          cases hc
          exact htail hk (continues_ending hp)
      | @atom q hq => exact hone .atom (h.exists_of_atom het hq hp hreads)
      | @forced j op hop => exact absurd (forced_mem_forcedAt hop) havoids.root

/-- One step: what a non-terminal derives without forced operators, it derived before. -/
theorem unfold (h : g.Staged types size) (he : e < size) {n : Nat} (hn : n < g.size)
    {t' : ParseTree} (ht' : (g.stratifyAt e).Derives (.nonTerminal n) t')
    (havoids : Avoids (g.forcedAt e) t') :
    ∃ t, g.Derives (.nonTerminal n) t ∧ Unfolds g (g.stratifyAt e) size t' t := by
  by_cases hops : g.operatorsOn e = []
  · rw [stratifyAt_of_eq_nil hops] at ht' ⊢
    exact ⟨t', ht', rfl, rfl, fun m hm => Or.inl hm⟩
  · exact (h.unfoldable he hops ht' havoids).1 _ (.old hn)

end Staged

/-! ## All steps back -/

/-- The non-terminals that begin with a forced operator were not there from the beginning. -/
theorem Staged.size_le_of_mem_forced {types : Nat} {g : Grammar} (h : g.Staged types g.size)
    {m : Nat} (hm : m ∈ g.forcedNonTerminals) : g.size ≤ m := by
  obtain ⟨k, hk, hm⟩ := List.mem_flatMap.1 hm
  have hk := List.mem_range.1 hk
  obtain ⟨j, hj, rfl⟩ := List.mem_map.1 hm
  by_cases hops : (g.stage k).operatorsOn k = []
  · rw [declaredOperators, hops] at hj
    exact absurd hj (by simp)
  · exact Nat.le_trans (h.stage (Nat.le_of_lt hk)).size_le
      (forced_bounds hops (List.mem_range.1 hj)).1

theorem nameOf_stage {g : Grammar} {j k i : Nat} (hjk : j ≤ k) (hi : i < (g.stage j).size) :
    (g.stage k).nameOf i = (g.stage j).nameOf i ∧ i < (g.stage k).size := by
  induction hjk with
  | refl => exact ⟨rfl, hi⟩
  | @step k hjk ih =>
      obtain ⟨hname, hlt⟩ := ih
      rw [stage_succ, nameOf_stratifyAt hlt, hname]
      refine ⟨rfl, ?_⟩
      by_cases hops : (g.stage k).operatorsOn k = []
      · rw [stratifyAt_of_eq_nil hops]
        exact hlt
      · exact Nat.lt_of_lt_of_le hlt (size_le_stratifyAt hops)

/-- The names of the forced operators of a stratified grammar. -/
theorem nameOf_of_mem_forced {g : Grammar} {m : Nat} (hm : m ∈ g.forcedNonTerminals) :
    ∃ (name : String) (i : Nat), g.stratify.nameOf m = name ++ "#op" ++ toString i := by
  obtain ⟨k, hk, hm⟩ := List.mem_flatMap.1 hm
  have hk := List.mem_range.1 hk
  obtain ⟨nt, i, hname⟩ := nameOf_of_mem_forcedAt hm
  obtain ⟨j, hj, rfl⟩ := List.mem_map.1 hm
  have hops : (g.stage k).operatorsOn k ≠ [] := by
    intro h
    rw [declaredOperators, h] at hj
    exact absurd hj (by simp)
  have hlt := (forced_bounds hops (List.mem_range.1 hj)).2
  rw [← stage_succ] at hlt hname
  obtain ⟨hkept, -⟩ := nameOf_stage (Nat.succ_le_of_lt hk) hlt
  exact ⟨_, i, by rw [stratify_eq_stage, hkept, hname]⟩

/-- What a non-terminal derives after so many steps without forced operators, it derives in the
grammar that the steps began with. -/
theorem Staged.unfold_stage {types : Nat} {g : Grammar} (h : g.Staged types g.size) {k : Nat}
    (hk : k ≤ g.size) {n : Nat} (hn : n < g.size) {t' : ParseTree}
    (ht' : (g.stage k).Derives (.nonTerminal n) t') (havoids : Avoids g.forcedNonTerminals t') :
    ∃ t, g.Derives (.nonTerminal n) t ∧ Unfolds g (g.stage k) g.size t' t := by
  induction k generalizing t' with
  | zero => exact ⟨t', ht', rfl, rfl, fun m hm => Or.inl hm⟩
  | succ k ih =>
      have hstaged := h.stage (Nat.le_of_succ_le hk)
      rw [stage_succ] at ht' ⊢
      have havoids' : Avoids ((g.stage k).forcedAt k) t' := fun m hm hforced =>
        havoids m hm (List.mem_flatMap.2 ⟨k, List.mem_range.2 hk, hforced⟩)
      obtain ⟨t₁, ht₁, hunfolds₁⟩ :=
        hstaged.unfold hk (Nat.lt_of_lt_of_le hn hstaged.size_le) ht' havoids'
      have havoids₁ : Avoids g.forcedNonTerminals t₁ := by
        intro m hm hforced
        rcases hunfolds₁.nodes m hm with hm | hm
        · exact havoids m hm hforced
        · exact absurd hm (Nat.not_lt.2 (h.size_le_of_mem_forced hforced))
      obtain ⟨t, ht, hunfolds⟩ := ih (Nat.le_of_succ_le hk) ht₁ havoids₁
      refine ⟨t, ht, ?_, ?_, ?_⟩
      · rw [hunfolds.tokens, hunfolds₁.tokens]
      · rw [hunfolds.meaning, hunfolds₁.meaning]
      · intro m hm
        rcases hunfolds.nodes m hm with hm | hm
        · exact hunfolds₁.nodes m hm
        · exact Or.inr hm

/-- The non-terminals of a derivation tree can be reached from its root. -/
theorem path_of_mem_nonTerminals {g : Grammar} {s : Symbol} {t : ParseTree} (ht : g.Derives s t) :
    ∀ n, s = .nonTerminal n → ∀ m ∈ t.nonTerminals, Reach.Path g.size g.mentioned n m := by
  induction ht using Derives.rec_on with
  | token t => exact fun n hn => absurd hn (by simp)
  | node nt i p cs hp hc ih =>
      rintro n hn m hm
      obtain rfl := Symbol.nonTerminal.inj hn
      rw [ParseTree.nonTerminals_node] at hm
      rcases List.mem_cons.1 hm with rfl | hm
      · exact .refl
      obtain ⟨c, hc', hm⟩ := List.mem_flatMap.1 hm
      obtain ⟨s, hs, hsc, hreach⟩ := exists_of_forall₂_right ih hc'
      -- The root of a child that has a node is mentioned by the production.
      cases s with
      | terminal i =>
          obtain ⟨token, rfl, -⟩ := derives_terminal_iff.1 hsc
          exact absurd hm List.not_mem_nil
      | nonTerminal k =>
          have hedge : Reach.Edge g.size g.mentioned nt k :=
            ⟨mem_mentioned_iff.2 ⟨p, mem_productionsOf_iff.2 ⟨i, hp⟩, hs⟩, lt_size_of_derives hsc⟩
          exact .head hedge (hreach k rfl m hm)

end Grammar

/-- Stratification keeps meanings: what a declared non-terminal derives in the stratified grammar, it
derives in the lowered one, with the same tokens and the same value. The non-terminal must not reach
the tail of a forced operator. -/
theorem stratify_keeps_meaning {declared : List NodeType} {lowered : Lowered}
    (hlower : lower declared = .ok lowered) (hbuilt : ∀ t ∈ declared, t.Built) {n : Nat}
    (hn : n < lowered.grammar.size)
    (hforced : ∀ m ∈ lowered.grammar.forcedNonTerminals,
      ¬ Reach.Path lowered.grammar.stratify.size lowered.grammar.stratify.mentioned n m)
    {tree : ParseTree} (htree : lowered.grammar.stratify.Derives (.nonTerminal n) tree) :
    ∃ tree', lowered.grammar.Derives (.nonTerminal n) tree' ∧ tree'.tokens = tree.tokens ∧
      tree'.value lowered.grammar = tree.value lowered.grammar.stratify := by
  obtain ⟨ns, hmakes⟩ := lower_eq_ok hlower
  have htypes : ∀ t ∈ ns.types, t.Built := fun t ht =>
    hbuilt t (Upgrades.mem_of_settle hmakes.ofTypes hmakes.settle t ht)
  have hstaged := Grammar.staged_of_lowered hmakes htypes
  have havoids : Grammar.Avoids lowered.grammar.forcedNonTerminals tree := fun m hm hmem =>
    hforced m hmem (Grammar.path_of_mem_nonTerminals htree n rfl m hm)
  rw [Grammar.stratify_eq_stage] at htree ⊢
  obtain ⟨tree', htree', hunfolds⟩ := hstaged.unfold_stage (Nat.le_refl _) hn htree havoids
  refine ⟨tree', htree', hunfolds.tokens, ?_⟩
  rw [ParseTree.value, hunfolds.meaning]
  rfl

/-- Numbers and sums: `Sum` declares an operator on `Expr`, so it has a tail of its own. -/
def sumTypes : List NodeType :=
  [(((NodeType.named "Expr").skip [.literal "(", .this, .literal ")"] Prec.default).start),
    ((NodeType.named "Num").generates [.field "value" (.terminal .number) none]
      Prec.default).replaces "Expr" Prec.default,
    ((NodeType.named "Sum").generates
      [.field "left" (.node "Expr") none, .literal "+", .field "right" (.node "Expr") none]
      ⟨.left, 10⟩).replaces "Expr" Prec.default]

/-- A token of the number class of `sumTypes`. -/
def sumNumber (n : Int) : Token := ⟨2, toString n, .int n, .outside⟩

/-- The tree of `1 + 2 + 3` in the stratified grammar of `sumTypes`. -/
def sumTree : ParseTree :=
  let number (n : Int) : ParseTree := .node 4 1 [.token (sumNumber n)]
  let plus : ParseTree := .token ⟨3, "+", .token "+", .outside⟩
  .node 0 0 [number 1, .node 3 0 [plus, number 2, .node 3 0 [plus, number 3, .node 3 1 []]]]

theorem stratify_keeps_meaning_of_sumTypes :
    ∃ lowered tree', lower sumTypes = .ok lowered ∧
      lowered.grammar.Derives (.nonTerminal 0) tree' ∧ tree'.tokens = sumTree.tokens ∧
      tree'.value lowered.grammar = sumTree.value lowered.grammar.stratify := by
  have hcheck : (lower sumTypes).toOption.any (fun l =>
      decide (0 < l.grammar.size) && decide (l.grammar.forcedNonTerminals = [5]) &&
        !(Reach.reachable l.grammar.stratify.size l.grammar.stratify.mentioned 0).contains 5 &&
        decide (l.grammar.stratify.Derives (.nonTerminal 0) sumTree)) = true := by
    cbv
  have hbuilt : ∀ t ∈ sumTypes, t.Built := by
    intro t ht
    simp only [sumTypes, List.mem_cons, List.not_mem_nil, or_false] at ht
    rcases ht with rfl | rfl | rfl
    · exact ((NodeType.Built.named _).skip _ _).start
    · exact ((NodeType.Built.named _).generates _ _).replaces _ _
    · exact ((NodeType.Built.named _).generates _ _).replaces _ _
  cases hlower : lower sumTypes with
  | error err => exact absurd hcheck (by simp [hlower, Except.toOption])
  | ok lowered =>
      simp only [hlower, Except.toOption, Option.any_some, Bool.and_eq_true, decide_eq_true_eq,
        Bool.not_eq_true', List.contains_eq_mem, decide_eq_false_iff_not] at hcheck
      obtain ⟨⟨⟨hsize, hforced⟩, hreach⟩, htree⟩ := hcheck
      obtain ⟨tree', htree', htokens, hvalue⟩ := stratify_keeps_meaning hlower hbuilt hsize
        (fun m hm hpath => by
          rw [hforced, List.mem_singleton] at hm
          subst hm
          exact hreach (Reach.mem_reachable_iff.2 hpath)) htree
      exact ⟨lowered, tree', rfl, htree', htokens, hvalue⟩

end SmallLang
