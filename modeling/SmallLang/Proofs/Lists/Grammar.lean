import SmallLang.Proofs.Lookahead.ParseTable
import SmallLang.Proofs.Operator.Stage

/-!
# Lists in a grammar

A list is made of two non-terminals (`Grammar.ListAt`): one for the list itself, which begins with an
element, and one for its rest, which is empty or goes on with a divider and a further element. A tree of
the list is empty, or it has the tokens and the value of a row of elements (`Elements`), and every row of
elements has such a tree (`Grammar.ListAt.exists_derives_iff`). Arranging operators in levels leaves a
list alone unless its elements are lists of the same type (`Grammar.Staged.listAt_stratify`), and with
such elements the table decides something by priority (`Grammar.Staged.not_undecided_of_own_element`).
-/

set_option autoImplicit false

namespace SmallLang

open List (Forall₂)

/-- The elements of a list that is not empty: the first one, and each further one with the divider before
it. -/
structure Elements where
  head : ParseTree
  further : List (Token × ParseTree)

namespace Elements

/-- The elements in order. -/
def trees (xs : Elements) : List ParseTree := xs.head :: xs.further.map Prod.snd

/-- The tokens of the elements, with the dividers between them. -/
def tokens (xs : Elements) : List Token :=
  xs.head.tokens ++ xs.further.flatMap fun x => x.1 :: x.2.tokens

/-- The list of the values of the elements. -/
def value (g : Grammar) (xs : Elements) : Value := .list (xs.trees.map (ParseTree.value g))

/-- The elements are derived from the symbol, and the dividers are tokens of that terminal. -/
structure Derived (g : Grammar) (element : Symbol) (divider : Nat) (xs : Elements) : Prop where
  trees : ∀ t ∈ xs.trees, g.Derives element t
  dividers : ∀ x ∈ xs.further, x.1.terminal = divider

end Elements

namespace Grammar

/-- The productions of the two non-terminals are those of a list, and they have no others. -/
structure ListAt (g : Grammar) (nt rest : Nat) (element : Symbol) (divider : Nat)
    (allowEmpty : Bool) : Prop where
  mem_iff : ∀ p, p ∈ g.productionsOf nt ↔
    allowEmpty = true ∧ p = ⟨[], .emptyList, Prec.default⟩ ∨
      p = ⟨[element, .nonTerminal rest], .listHead, Prec.default⟩
  mem_rest_iff : ∀ p, p ∈ g.productionsOf rest ↔
    p = ⟨[.terminal divider, element, .nonTerminal rest], .listNext, Prec.default⟩ ∨
      p = ⟨[], .emptyList, Prec.default⟩

/-- Trees of the symbols of a production make a tree of its non-terminal. -/
theorem exists_derives_of_mem {g : Grammar} {nt : Nat} {q : Production} (hq : q ∈ g.productionsOf nt)
    {children : List ParseTree} (hrow : g.DerivesRow q.symbols children) :
    ∃ t, g.Derives (.nonTerminal nt) t ∧ t.tokens = children.flatMap ParseTree.tokens ∧
      t.meaning g = .ofNode q.construction (children.map (ParseTree.meaning g)) := by
  obtain ⟨i, hi⟩ := mem_productionsOf_iff.1 hq
  refine ⟨.node nt i children, .node hi hrow, ParseTree.tokens_node nt i children, ?_⟩
  rw [ParseTree.meaning_node, constructionOf_eq hi]

/-- What a row of further elements adds to a list. -/
structure Adds (g : Grammar) (element : Symbol) (divider : Nat) (xs : List (Token × ParseTree))
    (t : ParseTree) : Prop where
  derives : ∀ x ∈ xs, g.Derives element x.2
  dividers : ∀ x ∈ xs, x.1.terminal = divider
  tokens : t.tokens = xs.flatMap fun x => x.1 :: x.2.tokens
  items : (t.meaning g).items = xs.map fun x => x.2.value g

namespace ListAt

variable {g : Grammar} {nt rest divider : Nat} {element : Symbol} {allowEmpty : Bool}
  (h : g.ListAt nt rest element divider allowEmpty)
include h

/-- The tree of a rest holds further elements. -/
theorem exists_adds_of_derives {t : ParseTree} (ht : g.Derives (.nonTerminal rest) t) :
    ∃ xs, g.Adds element divider xs t := by
  -- By induction over the tree: the rest after an element is a tree inside it.
  induction t using ParseTree.induct with
  | token t => exact absurd (derives_token_iff.1 ht) Symbol.noConfusion
  | node m i children ih =>
      obtain ⟨heq, q, hq, hrow⟩ := derives_node_iff.1 ht
      obtain rfl := Symbol.nonTerminal.inj heq
      rcases (h.mem_rest_iff q).1 (mem_productionsOf_iff.2 ⟨i, hq⟩) with rfl | rfl
      · obtain ⟨d, _, hd, hpair, rfl⟩ := List.forall₂_cons_left_iff.1 hrow
        obtain ⟨x, after, rfl, hx, hafter⟩ := forall₂_pair hpair
        obtain ⟨token, rfl, htoken⟩ := derives_terminal_iff.1 hd
        obtain ⟨xs, hxs⟩ := ih after (by simp) hafter
        refine ⟨(token, x) :: xs, ?_, ?_, ?_, ?_⟩
        · exact List.forall_mem_cons.2 ⟨hx, hxs.derives⟩
        · exact List.forall_mem_cons.2 ⟨htoken, hxs.dividers⟩
        · simp [hxs.tokens]
        · rw [ParseTree.meaning_node, constructionOf_eq hq]
          simp [Meaning.ofNode, Meaning.listItems, hxs.items, ParseTree.value]
      · obtain rfl := List.forall₂_nil_left_iff.1 hrow
        refine ⟨[], by simp, by simp, by simp, ?_⟩
        rw [ParseTree.meaning_node, constructionOf_eq hq]
        rfl

/-- Further elements have a tree of the rest. -/
theorem exists_derives_of_adds {xs : List (Token × ParseTree)}
    (hderives : ∀ x ∈ xs, g.Derives element x.2) (hdividers : ∀ x ∈ xs, x.1.terminal = divider) :
    ∃ t, g.Derives (.nonTerminal rest) t ∧ g.Adds element divider xs t := by
  induction xs with
  | nil =>
      obtain ⟨t, ht, htokens, hmeaning⟩ :=
        exists_derives_of_mem ((h.mem_rest_iff _).2 (Or.inr rfl)) Forall₂.nil
      exact ⟨t, ht, hderives, hdividers, htokens, by rw [hmeaning]; rfl⟩
  | cons x xs ih =>
      rw [List.forall_mem_cons] at hderives hdividers
      obtain ⟨after, hafter, hadds⟩ := ih hderives.2 hdividers.2
      have hrow : g.DerivesRow [.terminal divider, element, .nonTerminal rest]
          [.token x.1, x.2, after] :=
        .cons (derives_terminal_iff.2 ⟨x.1, rfl, hdividers.1⟩)
          (.cons hderives.1 (.cons hafter .nil))
      obtain ⟨t, ht, htokens, hmeaning⟩ :=
        exists_derives_of_mem ((h.mem_rest_iff _).2 (Or.inl rfl)) hrow
      refine ⟨t, ht, List.forall_mem_cons.2 ⟨hderives.1, hadds.derives⟩,
        List.forall_mem_cons.2 ⟨hdividers.1, hadds.dividers⟩, ?_, ?_⟩
      · rw [htokens]
        simp [hadds.tokens]
      · rw [hmeaning]
        simp [Meaning.ofNode, Meaning.listItems, hadds.items, ParseTree.value]

/-- What is derived from a list is empty or a row of elements, and its value is the list of theirs. -/
theorem exists_derives_iff {tokens : List Token} {v : Value} :
    (∃ t, g.Derives (.nonTerminal nt) t ∧ t.tokens = tokens ∧ t.value g = v) ↔
      (∃ xs : Elements, xs.Derived g element divider ∧ xs.tokens = tokens ∧ xs.value g = v) ∨
        allowEmpty = true ∧ tokens = [] ∧ v = .list [] := by
  constructor
  · rintro ⟨t, ht, rfl, rfl⟩
    obtain ⟨i, q, children, rfl, hq, hrow⟩ := derives_nonTerminal_iff.1 ht
    rcases (h.mem_iff q).1 (mem_productionsOf_iff.2 ⟨i, hq⟩) with ⟨hempty, rfl⟩ | rfl
    · obtain rfl := List.forall₂_nil_left_iff.1 hrow
      refine Or.inr ⟨hempty, by simp, ?_⟩
      rw [ParseTree.value, ParseTree.meaning_node, constructionOf_eq hq]
      rfl
    · obtain ⟨x, after, rfl, hx, hafter⟩ := forall₂_pair hrow
      obtain ⟨xs, hxs⟩ := h.exists_adds_of_derives hafter
      refine Or.inl ⟨⟨x, xs⟩, ⟨?_, hxs.dividers⟩, ?_, ?_⟩
      · simpa [Elements.trees, hx] using fun t d hmem => hxs.derives (d, t) hmem
      · simp [Elements.tokens, hxs.tokens]
      · rw [ParseTree.value, ParseTree.meaning_node, constructionOf_eq hq]
        simp [Meaning.ofNode, Meaning.plain, Meaning.listItems, hxs.items, Elements.value,
          Elements.trees, ParseTree.value]
  · rintro (⟨xs, hxs, rfl, rfl⟩ | ⟨hempty, rfl, rfl⟩)
    · have hderives : ∀ x ∈ xs.further, g.Derives element x.2 := fun x hx =>
        hxs.trees x.2 (List.mem_cons_of_mem _ (List.mem_map_of_mem hx))
      obtain ⟨after, hafter, hadds⟩ := h.exists_derives_of_adds hderives hxs.dividers
      obtain ⟨t, ht, htokens, hmeaning⟩ :=
        exists_derives_of_mem ((h.mem_iff _).2 (Or.inr rfl))
          (.cons (hxs.trees xs.head List.mem_cons_self) (.cons hafter .nil))
      refine ⟨t, ht, ?_, ?_⟩
      · rw [htokens]
        simp [Elements.tokens, hadds.tokens]
      · rw [ParseTree.value, hmeaning]
        simp [Meaning.ofNode, Meaning.plain, Meaning.listItems, hadds.items, Elements.value,
          Elements.trees, ParseTree.value]
    · obtain ⟨t, ht, htokens, hmeaning⟩ :=
        exists_derives_of_mem ((h.mem_iff _).2 (Or.inl ⟨hempty, rfl⟩)) Forall₂.nil
      exact ⟨t, ht, htokens, by rw [ParseTree.value, hmeaning]; rfl⟩

end ListAt

namespace Staged

variable {types : Nat} {g : Grammar} (h : g.Staged types g.size)
include h

/-- Only unit steps lead into a closure. -/
theorem eq_of_mem_closureAt {x m : Nat} (hx : x < g.size) (hm : m ∈ g.closureAt x)
    (hto : ∀ a, ¬ g.UnitStep a m) : m = x := by
  by_contra hne
  refine h.closureAt_induction hx hm (motive := fun n => n ≠ m) (Ne.symm hne) ?_ rfl
  rintro a b - - hstep - rfl
  exact hto a hstep

/-- A non-terminal that no unit step leads to and that has no operators keeps its productions. -/
theorem productionsOf_stratify_eq {m : Nat} (hm : m < g.size) (hto : ∀ a, ¬ g.UnitStep a m)
    (hladder : ¬ g.HasLadder m) : g.stratify.productionsOf m = g.productionsOf m := by
  refine List.ext_getElem? fun i => ?_
  have hkept : ∀ q, g.arranged g.size m i q = q := by
    intro q
    rcases g.arranged_cases g.size m i q with ⟨heq, -⟩ | ⟨x, hx, j, op, hfinds, -⟩
    · exact heq
    · obtain ⟨q', hmem, -, -, -, hne, -⟩ := h.exists_of_finds hx hfinds
      exact absurd (h.eq_of_mem_closureAt hx hmem hto) hne
  calc (g.stratify.productionsOf m)[i]? = (g.production? m i).map (g.arranged g.size m i) :=
        h.production?_stratify hm hladder i
    _ = (g.productionsOf m)[i]? := by
        rw [funext hkept]
        exact Option.map_id'

/-- The operators on a non-terminal without unit steps are among its own productions. -/
theorem exists_of_mem_usesAt {x : Nat} (hx : x < g.size) (hfrom : ∀ b, ¬ g.UnitStep x b)
    {op : OperatorUse} (hop : op ∈ g.usesAt x) :
    ∃ i, ∃ q ∈ g.productionsOf x, q.isOperatorOn x = true ∧ op = operatorUse x x i q := by
  obtain ⟨m, i, q, hm, -, hq, hisop, rfl⟩ := (h.mem_usesAt_iff hx).1 hop
  obtain rfl : m = x := by
    refine h.closureAt_induction hx hm (motive := fun n => n = x) rfl ?_
    rintro a b - - hstep rfl
    exact absurd hstep (hfrom b)
  exact ⟨i, q, mem_productionsOf_iff.2 ⟨i, hq⟩, hisop, rfl⟩

end Staged

namespace ListAt

variable {types : Nat} {g : Grammar} {nt rest divider : Nat} {element : Symbol} {allowEmpty : Bool}
  (hlist : g.ListAt nt rest element divider allowEmpty) (h : g.Staged types g.size)
include hlist

/-- A list hands nothing on. -/
theorem not_unitStep (b : Nat) : ¬ g.UnitStep nt b := by
  rintro ⟨q, hq, hunit, -⟩
  have hconstruction := (Production.unitTarget?_eq_some_iff.1 hunit).2
  rcases (hlist.mem_iff q).1 hq with ⟨-, rfl⟩ | rfl
  · exact Construction.noConfusion hconstruction
  · exact Construction.noConfusion hconstruction

theorem rest_not_unitStep (b : Nat) : ¬ g.UnitStep rest b := by
  rintro ⟨q, hq, hunit, -⟩
  have hconstruction := (Production.unitTarget?_eq_some_iff.1 hunit).2
  rcases (hlist.mem_rest_iff q).1 hq with rfl | rfl
  · exact Construction.noConfusion hconstruction
  · exact Construction.noConfusion hconstruction

/-- A production of a list is an operator on it only if the elements are such lists themselves. -/
theorem of_isOperatorOn {q : Production} (hq : q ∈ g.productionsOf nt)
    (hisop : q.isOperatorOn nt = true) :
    element = .nonTerminal nt ∧ q = ⟨[element, .nonTerminal rest], .listHead, Prec.default⟩ := by
  obtain ⟨s, after, hsymbols⟩ := Production.isOperatorOn_iff.1 hisop
  rcases (hlist.mem_iff q).1 hq with ⟨-, rfl⟩ | rfl
  · exact absurd hsymbols (by simp)
  · exact ⟨(List.cons.inj hsymbols).1, rfl⟩

theorem rest_not_isOperatorOn {q : Production} (hq : q ∈ g.productionsOf rest) (x : Nat) :
    q.isOperatorOn x = false := by
  rcases (hlist.mem_rest_iff q).1 hq with rfl | rfl <;> rfl

include h

/-- The rest of a list stays as it is. -/
theorem productionsOf_rest_stratify (hrest : rest < g.size) (hto : ∀ a, ¬ g.UnitStep a rest) :
    g.stratify.productionsOf rest = g.productionsOf rest := by
  refine h.productionsOf_stratify_eq hrest hto fun hladder => ?_
  obtain ⟨op, hop⟩ := List.exists_mem_of_ne_nil _ hladder
  obtain ⟨i, q, hq, hisop, -⟩ := h.exists_of_mem_usesAt hrest hlist.rest_not_unitStep hop
  rw [hlist.rest_not_isOperatorOn hq] at hisop
  exact Bool.false_ne_true hisop

variable (hnt : nt < g.size) (hrest : rest < g.size) (hto : ∀ a, ¬ g.UnitStep a nt)
  (hto' : ∀ a, ¬ g.UnitStep a rest)
include hnt hrest hto hto'

/-- Levels of operators leave a list alone whose elements are other things. -/
theorem stratify (hne : element ≠ .nonTerminal nt) :
    g.stratify.ListAt nt rest element divider allowEmpty := by
  have hladder : ¬ g.HasLadder nt := by
    intro hladder
    obtain ⟨op, hop⟩ := List.exists_mem_of_ne_nil _ hladder
    obtain ⟨i, q, hq, hisop, -⟩ := h.exists_of_mem_usesAt hnt hlist.not_unitStep hop
    exact hne (hlist.of_isOperatorOn hq hisop).1
  constructor
  · rw [h.productionsOf_stratify_eq hnt hto hladder]
    exact hlist.mem_iff
  · rw [hlist.productionsOf_rest_stratify h hrest hto']
    exact hlist.mem_rest_iff

omit hrest hto hto' in
/-- If the elements of a list are such lists themselves, its tail begins with the rest of a list. -/
theorem exists_rest_mem_tail (hne : rest ≠ nt) (hown : element = .nonTerminal nt) :
    g.HasLadder nt ∧ ∃ q ∈ g.stratify.productionsOf ((g.ladder nt).tail 0),
      q.symbols = [.nonTerminal rest] := by
  have hladder : g.HasLadder nt := by
    obtain ⟨i, hi⟩ := mem_productionsOf_iff.1 ((hlist.mem_iff _).2 (Or.inr rfl))
    refine List.ne_nil_of_mem ((h.mem_usesAt_iff hnt).2
      ⟨nt, i, _, Staged.self_mem_closureAt g nt, Open.self g nt, hi, ?_, rfl⟩)
    rw [hown]
    exact Production.isOperatorOn_iff.2 ⟨_, _, rfl⟩
  refine ⟨hladder, ?_⟩
  have hp := List.getElem?_eq_getElem hladder.height_pos
  obtain ⟨op, hop, hpriority⟩ := mem_levels_ladder_iff.1 (List.mem_of_getElem? hp)
  refine ⟨(g.ladder nt).tailProduction op, ?_, ?_⟩
  · rw [h.productionsOf_tail_stratify hladder hnt hp]
    exact List.mem_append_left _ (List.mem_map_of_mem (List.mem_filter.2 ⟨hop, beq_iff_eq.2 hpriority⟩))
  · obtain ⟨i, q, hq, hisop, rfl⟩ := h.exists_of_mem_usesAt hnt hlist.not_unitStep hop
    obtain ⟨-, rfl⟩ := hlist.of_isOperatorOn hq hisop
    simp [Ladder.tailProduction, Ladder.isInfix, Ladder.loops, operatorUse, Prec.default, hne]

omit hrest hto hto' hlist in
/-- The end of the input may follow the tail of the start. -/
theorem atEnd_tail_start (hstart : g.start = nt) (hladder : g.HasLadder nt) :
    ((g.stratify.followTable g.stratify.firstTable).get ((g.ladder nt).tail 0)).Covers [] := by
  have hwell := h.wellFormed_stratify (hstart ▸ hnt)
  have hstart' : g.stratify.start = nt := by rw [stratify_eq_stage, stage_start, hstart]
  have hclimb : (g.ladder nt).climbProduction 0 ((g.ladder nt).tail 0) ∈
      g.stratify.productionsOf nt := by
    have hhead := h.productionsOf_head_stratify hladder hnt hladder.height_pos
    exact hhead ▸ List.mem_singleton_self _
  have hlt : (g.ladder nt).tail 0 < g.stratify.size := by
    obtain ⟨i, hi⟩ := mem_productionsOf_iff.1 hclimb
    exact hwell.hasSymbol hi (List.mem_cons_of_mem _ List.mem_cons_self)
  have hsymbols : ((g.ladder nt).climbProduction 0 ((g.ladder nt).tail 0)).symbols =
      [.nonTerminal ((g.ladder nt).operand 0)] ++ .nonTerminal ((g.ladder nt).tail 0) :: [] := rfl
  have hnothing : (g.stratify.firstTable.ofSymbols []).Starts [] := rfl
  exact covers_of_mem_symbols (hstart' ▸ start_mem_reachable hwell.1) hclimb hsymbols hlt hnothing
    (hstart' ▸ covers_start_nil hwell.1)

omit hto in
/-- If the elements of a list are such lists themselves, at the end of the input its tail may take a
rest that is empty as well as end. -/
theorem not_undecided (hstart : g.start = nt) (hne : rest ≠ nt)
    (hown : element = .nonTerminal nt) {table : ParseTable} :
    ¬ g.stratify.Undecided g.stratify.firstTable (g.stratify.followTable g.stratify.firstTable)
      table := by
  intro hundecided
  have hwell := h.wellFormed_stratify (hstart ▸ hnt)
  obtain ⟨hladder, q, hq, hsymbols⟩ := hlist.exists_rest_mem_tail h hnt hne hown
  have hend : Ladder.endProduction ∈ g.stratify.productionsOf ((g.ladder nt).tail 0) := by
    rw [h.productionsOf_tail_stratify hladder hnt (List.getElem?_eq_getElem hladder.height_pos)]
    exact List.mem_append_right _ (List.mem_singleton_self _)
  obtain ⟨i, hi⟩ := mem_productionsOf_iff.1 hq
  obtain ⟨j, hj⟩ := mem_productionsOf_iff.1 hend
  have hatEnd := atEnd_tail_start h hnt hstart hladder
  have hempty : (g.stratify.firstTable.ofSymbols q.symbols).Starts [] := by
    have hmem : (⟨[], .emptyList, Prec.default⟩ : Production) ∈ g.stratify.productionsOf rest := by
      rw [hlist.productionsOf_rest_stratify h hrest hto']
      exact (hlist.mem_rest_iff _).2 (Or.inr rfl)
    obtain ⟨t, ht, htokens, -⟩ := exists_derives_of_mem hmem Forall₂.nil
    have hrow : g.stratify.DerivesRow q.symbols [t] := hsymbols ▸ .cons ht .nil
    have hstarts := starts_of_derivesRow hwell hrow fun s hs => hwell.hasSymbol hi hs
    rwa [List.flatMap_singleton, htokens] at hstarts
  have hnothing : (g.stratify.firstTable.ofSymbols Ladder.endProduction.symbols).Starts [] := rfl
  obtain ⟨hadmits, hcolumn⟩ := Lookahead.admits_of_starts hempty hatEnd
  have hij : i = j := hundecided.eq_of_admits hi hj hcolumn hadmits
    (Lookahead.admits_of_starts hnothing hatEnd).1
  subst hij
  obtain rfl := Option.some.inj (hi.symm.trans hj)
  exact absurd hsymbols (by simp [Ladder.endProduction])

end ListAt

end Grammar

end SmallLang
