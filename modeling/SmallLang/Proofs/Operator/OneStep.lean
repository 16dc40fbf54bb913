import SmallLang.Proofs.Renumbering.Language

/-!
# One step at a time

The value of a tree is found along chains: a list takes its items from its rests, and a level hands
what it has built from operator to operator. `ParseTree.oneStep` goes by single steps instead. Every
production is applied to the values of all its children, and the rest of a list is a list of its own.
Only where an operand is followed by operators, these are collected first and then applied to it from
left to right.

On the trees of a stratified grammar both find the same value
(`Language.value_eq_oneStep_of_isDerivation`). What has to be shown is that the rest of a list comes
last, where `Construction.apply` looks for it. Stratification moves the last child of a production and
turns lists into operators, but never changes the rest of a list (`Grammar.Staged.listsDeclared_stratify`).
-/

set_option autoImplicit false

namespace SmallLang

open List (Forall₂)

/-! ## The plain recursion -/

/-- What the operators make of an operand, from left to right. Each comes with the values of its other
operands. -/
def Value.operateAll (left : Value) (operators : List (Construction × List Value)) : Value :=
  operators.foldl (fun left op => op.1.apply (left :: op.2)) left

namespace ParseTree

mutual

/-- The value of a tree by one step of construction at each node, but for the operators after an
operand. -/
def oneStep (g : Grammar) : ParseTree → Value
  | token t => t.value
  | node nt p children =>
      match g.constructionOf nt p with
      | .climb =>
          match oneStepAll g children with
          | [] => .empty
          | operand :: _ => operand.operateAll (operatorsOfSecond g children)
      | c => c.apply (oneStepAll g children)

/-- The values of some trees. -/
def oneStepAll (g : Grammar) : List ParseTree → List Value
  | [] => []
  | t :: ts => oneStep g t :: oneStepAll g ts

/-- The operators of a tail, each with the values of its operands. The last child of one after which
the tail goes on is no operand, but the rest of the tail. -/
def operators (g : Grammar) : ParseTree → List (Construction × List Value)
  | token _ => []
  | node nt p children =>
      match g.constructionOf nt p with
      | .operator inner true => (inner, (oneStepAll g children).dropLast) :: operatorsOfLast g children
      | .operator inner false => [(inner, oneStepAll g children)]
      | _ => []

/-- The operators of the second of some trees. -/
def operatorsOfSecond (g : Grammar) : List ParseTree → List (Construction × List Value)
  | _ :: tail :: _ => operators g tail
  | _ => []

/-- The operators of the last of some trees. -/
def operatorsOfLast (g : Grammar) : List ParseTree → List (Construction × List Value)
  | [] => []
  | [tail] => operators g tail
  | _ :: t :: ts => operatorsOfLast g (t :: ts)

end

theorem oneStepAll_eq_map (g : Grammar) (ts : List ParseTree) :
    oneStepAll g ts = ts.map (oneStep g) := by
  induction ts with
  | nil => rfl
  | cons t ts ih => simp only [oneStepAll, List.map_cons, ih]

theorem operatorsOfLast_eq (g : Grammar) (ts : List ParseTree) :
    operatorsOfLast g ts = (ts.getLast?.map (operators g)).getD [] := by
  induction ts with
  | nil => rfl
  | cons t ts ih =>
      cases ts with
      | nil => rfl
      | cons t' ts => rw [operatorsOfLast, ih, List.getLast?_cons_cons]

/-- Away from the operators after an operand, a node is one step over its children. -/
theorem oneStep_node {g : Grammar} {nt p : Nat} {children : List ParseTree}
    (h : g.constructionOf nt p ≠ .climb) :
    (node nt p children).oneStep g = (g.constructionOf nt p).apply (children.map (oneStep g)) := by
  rw [← oneStepAll_eq_map, oneStep]
  split
  · contradiction
  · rfl

end ParseTree

/-! ## The rest of a list -/

namespace Grammar

/-- The elements of a list are followed by its rest in the productions that were declared so. -/
def ListsDeclared (types size : Nat) (g : Grammar) : Prop :=
  ∀ i, ∀ p ∈ g.productionsOf i, p.construction = .listHead ∨ p.construction = .listNext →
    ∃ m, p.Declared types size m

namespace Staged

variable {types size : Nat} {g : Grammar} {e : Nat}

/-- What builds from an element and the rest of a list does not end in a type, so it stays as it is
among the atoms. -/
theorem atomProduction_eq_of_list {m : Nat} {p : Production} (he : e < types)
    (hp : p.Declared types size m)
    (hlist : p.construction = .listHead ∨ p.construction = .listNext) :
    (g.ladderAt e).atomProduction p = p := by
  have hlast : ∀ {rest : Nat}, types ≤ rest → rest ≠ e := by
    rintro rest hrest rfl
    exact absurd he (Nat.not_lt.2 hrest)
  cases hp with
  | listHead prec hi hs hrest hlt => simp [Ladder.atomProduction, hlast hrest]
  | listNext divider prec hi hs hrest hlt => simp [Ladder.atomProduction, hlast hrest]
  | node kind slots prec hi hs => simp at hlist
  | child place prec hi hs => simp at hlist
  | emptyList prec => simp at hlist

theorem listsDeclared_stratifyAt (h : g.Staged types size) (he : e < size)
    (hlists : g.ListsDeclared types size) : (g.stratifyAt e).ListsDeclared types size := by
  by_cases hops : g.operatorsOn e = []
  · rw [stratifyAt_of_eq_nil hops]
    exact hlists
  intro i p hp hlist
  have het := h.lt_types_of_operatorsOn_ne_nil he hops
  cases (mem_productionsOf_stratifyAt_iff hops (Nat.lt_of_lt_of_le he h.size_le)).1 hp with
  | @kept _ k q hi hq =>
      rcases keptProduction_cases g e i k q with heq | ⟨j, op, -, -, heq⟩
      · rw [heq] at hlist ⊢
        exact hlists i q (mem_productionsOf_iff.2 ⟨k, hq⟩) hlist
      · rw [heq] at hlist
        simp [Ladder.climbProduction] at hlist
  | @atom q hq =>
      -- An atom is limited where it ends in the non-terminal of the ladder. The rest of a list is none.
      obtain ⟨m, hm, hmem, -⟩ := mem_atomsOf_iff.1 hq
      rw [Ladder.atomProduction_construction] at hlist
      rcases h.declared m (h.lt_size_of_mem_unitClosure he hm) q hmem with hd | ⟨-, hclimb, -⟩
      · rw [atomProduction_eq_of_list het hd hlist]
        exact ⟨m, hd⟩
      · rw [hclimb] at hlist
        simp at hlist
  | head hk => simp [Ladder.climbProduction] at hlist
  | operator hop => simp [Ladder.tailProduction] at hlist
  | ending hk => simp [Ladder.endProduction] at hlist
  | forced hop => simp [Ladder.tailProduction] at hlist

/-- Whatever stratification does, an element and the rest of a list stand in a production as it was
declared. -/
theorem listsDeclared_stratify (h : g.Staged types g.size) :
    g.stratify.ListsDeclared types g.size := by
  have hlists : g.ListsDeclared types g.size := by
    intro i p hp hlist
    obtain ⟨k, hk⟩ := mem_productionsOf_iff.1 hp
    rcases h.declared i (lt_size_of_production? hk) p hp with hd | ⟨-, hclimb, -⟩
    · exact ⟨i, hd⟩
    · rw [hclimb] at hlist
      simp at hlist
  have hstage : ∀ k ≤ g.size, (g.stage k).ListsDeclared types g.size := by
    intro k hk
    induction k with
    | zero => exact hlists
    | succ k ih =>
        rw [stage_succ]
        exact (h.stage (Nat.le_of_succ_le hk)).listsDeclared_stratifyAt hk (ih (Nat.le_of_succ_le hk))
  rw [stratify_eq_stage]
  exact hstage g.size (Nat.le_refl _)

/-- Every production but an operand with operators after it is one step over its children. -/
theorem value_node_eq_apply (h : g.Staged types size) (hlists : g.ListsDeclared types size)
    {nt i : Nat} {p : Production} (hp : g.production? nt i = some p) (hne : p.construction ≠ .climb)
    {children : List ParseTree} (hc : g.DerivesRow p.symbols children) :
    (ParseTree.node nt i children).value g =
      p.construction.apply (children.map (ParseTree.value g)) := by
  have hvalues : (children.map (ParseTree.meaning g)).map Meaning.value =
      children.map (ParseTree.value g) := by
    rw [List.map_map]
    rfl
  have hlist : p.construction = .listHead ∨ p.construction = .listNext →
      (ParseTree.node nt i children).value g =
        p.construction.apply (children.map (ParseTree.value g)) := by
    intro hlist
    obtain ⟨m, hd⟩ := hlists nt p (mem_productionsOf_iff.2 ⟨i, hp⟩) hlist
    rw [ParseTree.value, ParseTree.meaning_node, constructionOf_eq hp]
    exact h.value_ofNode hd hc
  cases hconstruction : p.construction with
  | climb => exact absurd hconstruction hne
  | listHead => exact hconstruction ▸ hlist (Or.inl hconstruction)
  | listNext => exact hconstruction ▸ hlist (Or.inr hconstruction)
  | _ =>
      rw [ParseTree.value, ParseTree.meaning_node, constructionOf_eq hp, hconstruction]
      simp only [Meaning.ofNode, Meaning.plain, hvalues, Construction.apply]

/-! ## The same value -/

/-- A tail makes of an operand what its operators make of it one after the other, if the children of
each have the values of the recursion. -/
theorem climb_eq_operateAll {nt i : Nat} {children : List ParseTree}
    (hvalues : ∀ c ∈ children, c.value g = c.oneStep g)
    (htails : ∀ c ∈ children, ∀ left, (c.meaning g).climb left = left.operateAll (c.operators g))
    (left : Value) :
    ((ParseTree.node nt i children).meaning g).climb left =
      left.operateAll ((ParseTree.node nt i children).operators g) := by
  have hoperands : ∀ cs : List ParseTree, (∀ c ∈ cs, c ∈ children) →
      (cs.map (ParseTree.meaning g)).map Meaning.value = cs.map (ParseTree.oneStep g) := by
    intro cs hcs
    rw [List.map_map]
    exact List.map_congr_left fun c hc => hvalues c (hcs c hc)
  rw [ParseTree.meaning_node, ParseTree.operators]
  cases g.constructionOf nt i with
  | operator inner looping =>
      cases looping with
      | false =>
          simp only [Meaning.ofNode, Meaning.operated_ending, ParseTree.oneStepAll_eq_map,
            Value.operateAll, List.foldl_cons, List.foldl_nil]
          rw [hoperands children fun c hc => hc]
      | true =>
          rcases List.eq_nil_or_concat' children with rfl | ⟨operands, tail, rfl⟩
          · rfl
          have htail := htails tail (List.mem_append_right _ List.mem_cons_self)
          simp only [Meaning.ofNode, List.map_append, List.map_cons, List.map_nil,
            Meaning.operated_looping, ParseTree.oneStepAll_eq_map, ParseTree.operatorsOfLast_eq,
            List.getLast?_concat, Option.map_some, Option.getD_some, List.dropLast_concat, htail]
          rw [hoperands operands fun c hc => List.mem_append_left _ hc]
          rfl
  | _ => rfl

/-- An operand with a tail after it. -/
theorem value_climb_eq_oneStep {nt i : Nat} {children : List ParseTree}
    (hconstruction : g.constructionOf nt i = .climb)
    (hvalues : ∀ c ∈ children, c.value g = c.oneStep g)
    (htails : ∀ c ∈ children, ∀ left, (c.meaning g).climb left = left.operateAll (c.operators g)) :
    (ParseTree.node nt i children).value g = (ParseTree.node nt i children).oneStep g := by
  rw [ParseTree.value, ParseTree.meaning_node, ParseTree.oneStep, hconstruction]
  cases children with
  | nil => rfl
  | cons operand rest =>
      have hoperand := hvalues operand List.mem_cons_self
      cases rest with
      | nil => exact hoperand
      | cons tail rest =>
          have htail := htails tail (List.mem_cons_of_mem _ List.mem_cons_self)
          simp only [Meaning.ofNode, Meaning.plain, List.map_cons, Meaning.climbed,
            ParseTree.oneStepAll, ParseTree.operatorsOfSecond, htail]
          rw [← hoperand]
          rfl

theorem value_eq_oneStep (h : g.Staged types size) (hlists : g.ListsDeclared types size) {s : Symbol}
    {t : ParseTree} (ht : g.Derives s t) :
    t.value g = t.oneStep g ∧ ∀ left, (t.meaning g).climb left = left.operateAll (t.operators g) := by
  induction ht using Derives.rec_on with
  | token t => exact ⟨rfl, fun left => rfl⟩
  | node nt i p children hp hc ih =>
      have hchildren : ∀ c ∈ children, c.value g = c.oneStep g ∧
          ∀ left, (c.meaning g).climb left = left.operateAll (c.operators g) := by
        intro c hmem
        obtain ⟨s, -, -, hc⟩ := exists_of_forall₂_right ih hmem
        exact hc
      have hvalues := fun c hc => (hchildren c hc).1
      have htails := fun c hc => (hchildren c hc).2
      refine ⟨?_, climb_eq_operateAll hvalues htails⟩
      by_cases hclimb : p.construction = .climb
      · exact value_climb_eq_oneStep ((constructionOf_eq hp).trans hclimb) hvalues htails
      · rw [h.value_node_eq_apply hlists hp hclimb hc, ParseTree.oneStep_node
          (constructionOf_eq hp ▸ hclimb), constructionOf_eq hp, List.map_congr_left hvalues]

end Staged

end Grammar

namespace Language

variable {declared : List NodeType} {config : Config} {l : Language}

/-- The value of a tree of an assembled language is the one that plain recursion finds: one step of
construction at each node over the values of all children, and of an operand with a tail after it what
the operators of the tail make of it, from left to right. The elements and rests of lists are no
exception. -/
theorem value_eq_oneStep_of_isDerivation (hbuilt : ∀ t ∈ declared, t.Built)
    (hassemble : assemble declared config = .ok l) {t : ParseTree} (ht : t.IsDerivation l.grammar) :
    t.value l.grammar = t.oneStep l.grammar ∧
      ∀ nt i children, t = .node nt i children → l.grammar.constructionOf nt i ≠ .climb →
        t.value l.grammar =
          (l.grammar.constructionOf nt i).apply (children.map (ParseTree.value l.grammar)) := by
  obtain ⟨lowered, hlower, -, -, hcompiled⟩ := assemble_eq_ok hassemble
  obtain ⟨hstaged, -⟩ := staged_of_lower hlower hbuilt
  have hstratified := hstaged.stratify
  have hlists := hstaged.listsDeclared_stratify
  rw [show l.grammar = _ from (Compiled.ofGrammar_eq_ok hcompiled).1] at ht ⊢
  refine ⟨(hstratified.value_eq_oneStep hlists ⟨rfl, ht⟩).1, ?_⟩
  rintro nt i children rfl hclimb
  obtain ⟨-, p, hp, hc⟩ := Grammar.derives_node_iff.1 ⟨rfl, ht⟩
  rw [Grammar.constructionOf_eq hp] at hclimb ⊢
  exact hstratified.value_node_eq_apply hlists hp hclimb hc

/-- Series of numbers and differences, which group to the left. -/
def seriesTypes : List NodeType :=
  [((NodeType.named "Series").makeList (.node "Expr") "," false).start,
    (NodeType.named "Expr").skip [.literal "(", .this, .literal ")"] Prec.default,
    ((NodeType.named "Num").generates [.field "value" (.terminal .number) none]
      Prec.default).replaces "Expr" Prec.default,
    ((NodeType.named "Difference").generates
      [.field "left" (.node "Expr") none, .literal "-", .field "right" (.node "Expr") none]
      ⟨.left, 10⟩).replaces "Expr" Prec.default]

theorem built_seriesTypes : ∀ t ∈ seriesTypes, t.Built := by
  intro t ht
  simp only [seriesTypes, List.mem_cons, List.not_mem_nil, or_false] at ht
  rcases ht with rfl | rfl | rfl | rfl
  · exact ((NodeType.Built.named _).makeList _ _ _).start
  · exact (NodeType.Built.named _).skip _ _
  · exact ((NodeType.Built.named _).generates _ _).replaces _ _
  · exact ((NodeType.Built.named _).generates _ _).replaces _ _

/-- The tokens `4 - 2 - 1, 5` of `seriesTypes`. -/
def seriesTokens : List Token :=
  let number : Int → Token := fun n => ⟨3, toString n, .int n, .outside⟩
  let literal : Nat → String → Token := fun terminal text => ⟨terminal, text, .token text, .outside⟩
  [number 4, literal 4 "-", number 2, literal 4 "-", number 1, literal 0 ",", number 5]

/-- The value of `4 - 2 - 1, 5`. -/
def seriesValue : Value :=
  let number : Int → Value := fun n => .node "Num" [("value", .int n)]
  let difference : Value → Value → Value := fun left right =>
    .node "Difference" [("left", left), ("right", right)]
  .list [difference (difference (number 4) (number 2)) (number 1), number 5]

set_option maxRecDepth 8000 in
theorem value_eq_oneStep_of_seriesTypes :
    ∃ l t, assemble seriesTypes .quiet = .ok l ∧ l.treeOfTokens seriesTokens = .ok t ∧
      t.oneStep l.grammar = seriesValue ∧ t.value l.grammar = seriesValue := by
  have hcheck : (assemble seriesTypes .quiet).toOption.any (fun l =>
      (l.treeOfTokens seriesTokens).toOption.any fun t =>
        decide (t.IsDerivation l.grammar) && decide (t.oneStep l.grammar = seriesValue)) = true := by
    cbv
  obtain ⟨l, hl, hcheck⟩ := exists_of_any_assemble hcheck
  obtain ⟨t, ht, hcheck⟩ := Except.exists_of_any hcheck
  simp only [Bool.and_eq_true, decide_eq_true_eq] at hcheck
  obtain ⟨hderivation, hvalue⟩ := hcheck
  have hsame := value_eq_oneStep_of_isDerivation built_seriesTypes hl hderivation
  exact ⟨l, t, hl, ht, hvalue, hsame.1.trans hvalue⟩

end Language

end SmallLang
