import SmallLang.Proofs.Kinds

/-!
# Fields hold nodes of the types that they name

A field whose target is a type that only generates nodes, and that no other type replaces, holds a node
of this type, wherever a parse yields one (`Language.fieldsHold_of_parse`).

This needs a condition on operators. The operators that a type declares on another one stand in a tail
of their own, which may go on with any operator of the same level, and then this operator builds the
value (`Grammar.ChainsBuild`). A field with the type as target can so hold a node of another type
(`Language.not_fieldsHold_of_parse`).
-/

set_option autoImplicit false

namespace SmallLang

open List (Forall₂)

/-- The name of the type that an element stands for, in a body of the owner. -/
def Sym.typeName? (owner : String) : Sym → Option String
  | .this => some owner
  | .node name => some name
  | .terminal _ => none
  | .field _ target _ => target.typeName? owner

/-- The element stands for the type of that name, by its own name or through upgrades. -/
def Sym.StandsFor (u : Upgrades) (owner kind : String) (s : Sym) : Prop :=
  (s.typeName? owner).bind u.finalName? = some kind

/-- All that builds the type are its own bodies. -/
def NodeType.OnlyGenerates (t : NodeType) : Prop :=
  ∀ r ∈ t.rules, r.template = .construct ∨ r.template = .handOn

instance (t : NodeType) : Decidable t.OnlyGenerates :=
  inferInstanceAs (Decidable (∀ r ∈ t.rules, r.template = .construct ∨ r.template = .handOn))

/-- The name of the type that a rule of another type builds. -/
def Head.typeName? : Head → Option String
  | .type name => some name
  | _ => none

/-- The type is accepted wherever the type `kind` is expected. -/
def NodeType.Replaces (u : Upgrades) (kind : String) (t : NodeType) : Prop :=
  ∃ r ∈ t.rules, r.head.typeName?.bind u.finalName? = some kind

instance (u : Upgrades) (kind : String) (t : NodeType) : Decidable (t.Replaces u kind) :=
  inferInstanceAs (Decidable (∃ r ∈ t.rules, r.head.typeName?.bind u.finalName? = some kind))

/-- The fields of a node that a body of the type has built. Each field for which the body names the
type `kind` holds a node of this kind. -/
def NodeType.HoldsNodes (u : Upgrades) (kind : String) (t : NodeType)
    (fields : List (String × Value)) : Prop :=
  fields.map Prod.fst = t.fieldNames ∧ ∃ r ∈ t.buildingRules, ∀ name target default,
    .sym (.field name target default) ∈ r.body → target.StandsFor u t.name kind →
    ∃ w, fields.lookup name = some w ∧ w.IsNode kind

/-- Every node within the value was built by a body of its type, and holds nodes of the kind where
this body asks for them. -/
def FieldsHold (u : Upgrades) (types : List NodeType) (kind : String) (v : Value) : Prop :=
  ∀ k fields, Value.Within (.node k fields) v →
    ∃ t ∈ types, t.name = k ∧ t.HoldsNodes u kind fields

/-! ## Names and numbers -/

namespace Naming

variable {ns : Naming} {declared : List NodeType} {lowered : Lowered}
  (h : ns.Makes declared lowered)
include h

/-- Two types of one number are the same type. -/
theorem Makes.eq_of_typeNumber? {m : Nat} {t t' : NodeType} (ht : ns.types[m]? = some t)
    (ht' : t' ∈ ns.types) (hnumber : ns.typeNumber? t'.name = some m) : t' = t := by
  rw [h.typeNumber?_eq_iff ht, h.finalName?_self ht', Option.some.injEq] at hnumber
  have hnodup := Upgrades.nodup_names_of_settle h.settle
  exact List.inj_on_of_nodup_map hnodup ht' (List.mem_of_getElem? ht) hnumber

/-- An element that stands for the type has its number as symbol. -/
theorem Makes.symbol?_of_standsFor {m : Nat} {t : NodeType} (ht : ns.types[m]? = some t)
    {arena : Arena} {owner : String} {s : Sym} (hs : s.StandsFor ns.upgrades owner t.name)
    {x : Symbol} (hx : ns.symbol? arena owner s = some x) : x = .nonTerminal m := by
  induction s with
  | this =>
      rw [symbol?, (h.typeNumber?_eq_iff ht).2 hs] at hx
      exact (Option.some.inj hx).symm
  | node name =>
      rw [symbol?, (h.typeNumber?_eq_iff ht).2 hs] at hx
      exact (Option.some.inj hx).symm
  | terminal terminal => simp [Sym.StandsFor, Sym.typeName?] at hs
  | field name target default ih => exact ih hs hx

end Naming

/-! ## What the declared productions hand on -/

theorem exists_getElem?_of_forall₂ {α β : Type} {R : α → β → Prop} {xs : List α} {ys : List β}
    (h : Forall₂ R xs ys) {k : Nat} {x : α} (hx : xs[k]? = some x) :
    ∃ y, ys[k]? = some y ∧ R x y := by
  induction h generalizing k with
  | nil => simp at hx
  | @cons x' y' _ _ hR _ ih =>
      cases k with
      | zero =>
          obtain rfl := Option.some.inj hx
          exact ⟨y', rfl, hR⟩
      | succ k => exact ih hx

theorem lookup_map_fields {fields : List FieldDecl} {f : FieldDecl → Value} {name : String} {w : Value}
    (hname : name ∈ fields.map FieldDecl.name) (hw : ∀ d ∈ fields, d.name = name → f d = w) :
    (fields.map fun d => (d.name, f d)).lookup name = some w := by
  induction fields with
  | nil => exact absurd hname List.not_mem_nil
  | cons d fields ih =>
      rw [List.map_cons, List.lookup_cons]
      by_cases heq : d.name = name
      · rw [beq_iff_eq.2 heq.symm, hw d List.mem_cons_self heq]
      · rw [beq_false_of_ne (Ne.symm heq)]
        have htail : name ∈ fields.map FieldDecl.name := by
          rcases List.mem_cons.1 hname with rfl | hmem
          · exact absurd rfl heq
          · exact hmem
        exact ih htail fun d' hd' => hw d' (List.mem_cons_of_mem _ hd')

/-- A value of the symbol: its nodes hold what they should, and if the symbol is the non-terminal of
the type of that name, then it is a node of this type itself. -/
def Typed (ns : Naming) (m : Nat) (kind : String) (s : Symbol) (v : Value) : Prop :=
  FieldsHold ns.upgrades ns.types kind v ∧ (s = .nonTerminal m → v.IsNode kind)

section

variable {ns : Naming} {declared : List NodeType} {lowered : Lowered}
  (h : ns.Makes declared lowered) {m : Nat} {t : NodeType} (ht : ns.types[m]? = some t)
  {t' : NodeType} (ht' : t' ∈ ns.types) {r : Rule} {symbols : List Symbol} {vs : List Value}
  (hsymbols : Forall₂ (fun x s => ns.elementSymbol? lowered.grammar.arena t'.name x = some s)
    r.body symbols)
  (hvs : Forall₂ (Typed ns m t.name) symbols vs)
include h ht ht' hsymbols hvs

/-- A body builds a node that holds what the body asks for. -/
theorem fieldsHold_construct (hr : r ∈ t'.buildingRules) :
    FieldsHold ns.upgrades ns.types t.name
      ((Construction.node t'.name
        (t'.fields.map fun f => ⟨f.name, r.fieldPlace f.name, f.default⟩)).apply vs) := by
  have hchecked := h.checkFields t' ht'
  obtain ⟨hnodup, -⟩ := t'.perm_fieldNames hchecked hr
  have hplace : ∀ name target default, .sym (.field name target default) ∈ r.body →
      ∃ w s, vs[r.fieldPlace name]? = some w ∧ Typed ns m t.name s w ∧
        ns.symbol? lowered.grammar.arena t'.name target = some s := by
    intro name target default hmem
    obtain ⟨s, hs, hsymbol⟩ :=
      exists_getElem?_of_forall₂ hsymbols (Rule.getElem?_fieldPlace hnodup hmem)
    obtain ⟨w, hw, htyped⟩ := exists_getElem?_of_forall₂ hvs hs
    exact ⟨w, s, hw, htyped, hsymbol⟩
  rw [Construction.apply, List.map_map]
  refine Value.allNodes_node_iff.2 ⟨⟨t', ht', rfl, ?_, r, hr, ?_⟩, ?_⟩
  · rw [List.map_map]
    rfl
  · intro name target default hmem hstands
    obtain ⟨w, s, hw, htyped, hsymbol⟩ := hplace name target default hmem
    refine ⟨w, ?_, htyped.2 (h.symbol?_of_standsFor ht hstands hsymbol)⟩
    refine lookup_map_fields (t'.mem_fieldNames hchecked hr hmem) fun d _ hd => ?_
    subst hd
    simp [Slot.value, hw]
  · intro f hf
    obtain ⟨d, hd, rfl⟩ := List.mem_map.1 hf
    obtain ⟨target, default, hmem⟩ :=
      t'.exists_field hchecked hr (List.mem_map.2 ⟨d, hd, rfl⟩)
    obtain ⟨w, s, hw, htyped, -⟩ := hplace d.name target default hmem
    show Value.AllNodes _ (Slot.value ⟨d.name, r.fieldPlace d.name, d.default⟩ vs)
    rw [Slot.value, hw]
    exact htyped.1

/-- What a rule builds holds what the bodies ask for. -/
theorem fieldsHold_apply (hr : r ∈ t'.rules) {c : Construction} (hc : t'.construction r = .ok c) :
    FieldsHold ns.upgrades ns.types t.name (c.apply vs) := by
  have hall : ∀ v ∈ vs, FieldsHold ns.upgrades ns.types t.name v := by
    intro v hv
    obtain ⟨s, -, htyped⟩ := exists_of_forall₂_right hvs hv
    exact htyped.1
  refine NodeType.allNodes_apply hc hall fun htemplate => ?_
  exact fieldsHold_construct h ht ht' hsymbols hvs (List.mem_filter.2 ⟨hr, by rw [htemplate]; rfl⟩)

/-- What belongs to a type that only generates nodes, and that no other type replaces, is a node. -/
theorem isNode_apply (hbuilt : r.Built) (hr : r ∈ t'.rules)
    (hrules : t.OnlyGenerates)
    (hothers : ∀ t' ∈ ns.types, t' ≠ t → ¬ t'.Replaces ns.upgrades t.name)
    (hhead : ns.headNumber? t'.name r.head = some m) {c : Construction}
    (hc : t'.construction r = .ok c) : (c.apply vs).IsNode t.name := by
  have hlt : m < ns.types.length := (List.getElem?_eq_some_iff.1 ht).1
  cases hbuilt with
  | construct body prec =>
      obtain rfl := h.eq_of_typeNumber? ht ht' hhead
      obtain rfl := Except.ok.inj hc
      exact ⟨_, rfl⟩
  | handOn target prec =>
      -- Only the type itself hands on to its place, and what it hands on is of its own type.
      obtain rfl : t' = t := by
        by_contra hne
        exact hothers t' ht' hne ⟨_, hr, (h.typeNumber?_eq_iff ht).1 hhead⟩
      obtain rfl := Except.ok.inj hc
      obtain ⟨s, hs, hsymbol⟩ := exists_getElem?_of_forall₂ hsymbols (k := 0) rfl
      obtain ⟨v, hv, htyped⟩ := exists_getElem?_of_forall₂ hvs hs
      have hstands : Sym.this.StandsFor ns.upgrades t'.name t'.name := h.finalName?_self ht'
      have hthis : ns.symbol? lowered.grammar.arena t'.name .this = some s := hsymbol
      have hnode := htyped.2 (h.symbol?_of_standsFor ht hstands hthis)
      simpa [Construction.apply, hv] using hnode
  | skip body prec =>
      obtain rfl := h.eq_of_typeNumber? ht ht' hhead
      exact absurd (hrules _ hr) (by simp)
  | emptyList =>
      obtain rfl := h.eq_of_typeNumber? ht ht' hhead
      exact absurd (hrules _ hr) (by simp)
  | listHead element =>
      obtain rfl := h.eq_of_typeNumber? ht ht' hhead
      exact absurd (hrules _ hr) (by simp)
  | listNext divider element =>
      -- The rest of a list has a number after those of all types.
      have hle := Naming.length_types_le_restNumber ns t'.name
      rw [Option.some.inj hhead] at hle
      exact absurd hlt (Nat.not_lt.2 hle)
  | listEnd =>
      have hle := Naming.length_types_le_restNumber ns t'.name
      rw [Option.some.inj hhead] at hle
      exact absurd hlt (Nat.not_lt.2 hle)

end

/-- The kind of the nodes that are built. -/
def Construction.kind? : Construction → Option String
  | .node kind _ => some kind
  | _ => none

/-- Where the tail goes on after an operator that the non-terminal declares, all operators of the level
build nodes of the kind, or hand on their left operand. -/
def Grammar.ChainsBuild (g : Grammar) (m : Nat) (kind : String) : Prop :=
  ∀ x < g.size, ∀ op ∈ g.usesAt x, op.origin.map Prod.fst = some m →
    (g.ladder x).loops op = true → ∀ op' ∈ g.usesAt x, op'.prec.priority = op.prec.priority →
      op'.construction.kind? = some kind ∨ op'.construction = .child 0

section

variable {ns : Naming} {declared : List NodeType} {lowered : Lowered}
  (h : ns.Makes declared lowered) {m : Nat} {t : NodeType} (ht : ns.types[m]? = some t)
  (hbuilt : ∀ t ∈ ns.types, t.Built)
  (hrules : t.OnlyGenerates)
  (hothers : ∀ t' ∈ ns.types, t' ≠ t → ¬ t'.Replaces ns.upgrades t.name)
include h ht hbuilt hrules hothers

theorem typed_apply {nt : Nat} {p : Production} (hp : p ∈ lowered.grammar.productionsOf nt)
    {vs : List Value} (hvs : Forall₂ (Typed ns m t.name) p.symbols vs) :
    Typed ns m t.name (.nonTerminal nt) (p.construction.apply vs) := by
  obtain ⟨t', ht', r, hr, hproduction⟩ := (h.mem_productionsOf_iff nt p).1 hp
  obtain ⟨hhead, hsymbols, hc, -⟩ := Naming.production?_eq_some_iff.1 hproduction
  refine ⟨fieldsHold_apply h ht ht' hsymbols hvs hr hc, fun hnt => ?_⟩
  rw [Symbol.nonTerminal.inj hnt] at hhead
  exact isNode_apply h ht ht' hsymbols hvs ((hbuilt t' ht').rules r hr) hr hrules hothers hhead hc

/-- The declared productions hand on that nodes hold what they should. -/
theorem handsOn_typed (hchains : lowered.grammar.ChainsBuild m t.name) :
    lowered.grammar.HandsOn (Typed ns m t.name) where
  production nt i p hp vs hvs :=
    typed_apply h ht hbuilt hrules hothers (Grammar.mem_productionsOf_iff.2 ⟨i, hp⟩) hvs
  forced x hx op hop nt i horigin hloops op' hop' hpriority left hleft hown vs hvs := by
    have hstaged := Grammar.staged_of_lowered h hbuilt
    -- The nodes hold what they should, since the operator is a declared production.
    obtain ⟨nt', j, q, -, -, hq, hisop, rfl⟩ := (hstaged.mem_usesAt_iff hx).1 hop'
    obtain ⟨s, rest, hsymbols⟩ := Production.isOperatorOn_iff.1 hisop
    have hrow : Forall₂ (Typed ns m t.name) q.symbols (left :: vs) := by
      simp only [Grammar.operatorUse, hsymbols, List.tail_cons] at hvs
      rw [hsymbols]
      exact .cons hleft hvs
    have hbuilds := typed_apply h ht hbuilt hrules hothers
      (Grammar.mem_productionsOf_iff.2 ⟨j, hq⟩) hrow
    refine ⟨hbuilds.1, fun hnt => ?_⟩
    obtain rfl := Symbol.nonTerminal.inj hnt
    rcases hchains x hx op hop (by rw [horigin]; rfl) hloops _ hop' hpriority with hkind | hchild
    · cases hc : (Grammar.operatorUse x nt' j q).construction with
      | node kind slots =>
          rw [hc] at hkind
          obtain rfl := Option.some.inj hkind
          exact ⟨_, rfl⟩
      | _ => simp [hc, Construction.kind?] at hkind
    · rw [hchild]
      exact hown.2 rfl

end

/-! ## What a parse yields -/

namespace Language

/-- In every value that a parse yields, the fields that are declared with a type as their target hold
nodes of this type. The type only generates nodes, no other type replaces it, and where the tail goes on
after an operator that it declares, the operators of the level build its nodes too. -/
theorem fieldsHold_of_parse {declared : List NodeType} {config : Config} {l : Language}
    {lowered : Lowered} {u : Upgrades} {m : Nat} {t : NodeType}
    (hbuilt : ∀ t ∈ declared, t.Built) (hassemble : assemble declared config = .ok l)
    (hlower : lower declared = .ok lowered) (hu : Upgrades.ofTypes declared = .ok u)
    (ht : l.types[m]? = some t)
    (hrules : t.OnlyGenerates) (hothers : ∀ t' ∈ l.types, t' ≠ t → ¬ t'.Replaces u t.name)
    (hchains : lowered.grammar.ChainsBuild m t.name) {text : String} {v : Value}
    (hparse : l.parse text = .ok v) : FieldsHold u l.types t.name v := by
  obtain ⟨ns, hmakes⟩ := lower_eq_ok hlower
  obtain ⟨lowered', hlower', htypes, -, -⟩ := assemble_eq_ok hassemble
  obtain rfl : lowered = lowered' := Except.ok.inj (hlower.symm.trans hlower')
  obtain rfl : ns.upgrades = u := Except.ok.inj (hmakes.ofTypes.symm.trans hu)
  have hsettled : ∀ t ∈ ns.types, t.Built := fun t ht =>
    hbuilt t (Upgrades.mem_of_settle hmakes.ofTypes hmakes.settle t ht)
  rw [htypes, hmakes.types] at ht hothers ⊢
  obtain ⟨tokens, htokens, htree⟩ := Except.bind_eq_ok_iff.1 hparse
  have htyped := holds_of_parseTokens hbuilt hassemble hlower
    (handsOn_typed hmakes ht hsettled hrules hothers hchains) htree
  refine (htyped fun token htoken => ⟨?_, fun hnt => Symbol.noConfusion hnt⟩).1
  exact Value.allNodes_of_isScalar (Scanner.isScalar_of_scanFrom htokens token htoken)

end Language

/-- Statements that are a sum of names. -/
def statementTypes : List NodeType :=
  [((NodeType.named "Statement").generates [.field "sum" (.node "Sum") none, .literal ";"]
      Prec.default).start,
    NodeType.named "Expr",
    ((NodeType.named "Name").generates [.field "name" (.literal "x") none]
      Prec.default).replaces "Expr" Prec.default,
    ((NodeType.named "Sum").generates
      [.field "left" (.node "Expr") none, .literal "+", .field "right" (.node "Expr") none]
      ⟨.left, 10⟩).replaces "Expr" Prec.default]

/-- Differences of the priority of the sums of `statementTypes`. -/
def differenceType : NodeType :=
  ((NodeType.named "Difference").generates
    [.field "left" (.node "Expr") none, .literal "-", .field "right" (.node "Expr") none]
    ⟨.left, 10⟩).replaces "Expr" Prec.default

/-- The name `x` of `statementTypes`. -/
def nameNode : Value := .node "Name" [("name", .token "x")]

/-- What `x + x - x;` yields. -/
def differenceValue : Value :=
  .node "Statement" [("sum", .node "Difference"
    [("left", .node "Sum" [("left", nameNode), ("right", nameNode)]), ("right", nameNode)])]

namespace Language

theorem fieldsHold_of_parse_of_statementTypes :
    ∃ l t v, assemble statementTypes .quiet = .ok l ∧ l.types[3]? = some t ∧ t.name = "Sum" ∧
      l.parse "x + x + x;" = .ok v ∧ FieldsHold [] l.types "Sum" v := by
  have hcheck : (assemble statementTypes .quiet).toOption.any (fun l =>
      decide (l.types = statementTypes) && (l.parse "x + x + x;").toOption.isSome) = true := by
    cbv
  have hsums : (lower statementTypes).toOption.any (fun lowered =>
      (List.range lowered.grammar.size).all fun x => (lowered.grammar.usesAt x).all fun op =>
        op.construction.kind? == some "Sum") = true := by
    cbv
  have hbuilt : ∀ t ∈ statementTypes, t.Built := by
    intro t ht
    simp only [statementTypes, List.mem_cons, List.not_mem_nil, or_false] at ht
    rcases ht with rfl | rfl | rfl | rfl
    · exact ((NodeType.Built.named _).generates _ _).start
    · exact NodeType.Built.named _
    all_goals exact ((NodeType.Built.named _).generates _ _).replaces _ _
  obtain ⟨l, hl, hcheck⟩ := exists_of_any_assemble hcheck
  simp only [Bool.and_eq_true, decide_eq_true_eq] at hcheck
  obtain ⟨htypes, hparse⟩ := hcheck
  obtain ⟨lowered, hlower, -⟩ := assemble_eq_ok hl
  simp only [hlower, Except.toOption, Option.any_some, List.all_eq_true, List.mem_range,
    beq_iff_eq] at hsums
  have hsum : l.types[3]? = some statementTypes[3] := by
    rw [htypes]
    rfl
  cases hv : l.parse "x + x + x;" with
  | error err => simp [hv, Except.toOption] at hparse
  | ok v =>
      refine ⟨l, _, v, hl, hsum, rfl, hv, ?_⟩
      refine fieldsHold_of_parse hbuilt hl hlower (by decide) hsum (by decide) ?_ ?_ hv
      · rw [htypes]
        decide
      · exact fun x hx op _ _ _ op' hop' _ => Or.inl (hsums x hx op' hop')

/-- A sum begins with a sum, but the tail after it may go on with a difference, which then stands in
the field for the sum. -/
theorem not_fieldsHold_of_parse :
    ∃ l t v, assemble (statementTypes ++ [differenceType]) .quiet = .ok l ∧
      l.types[3]? = some t ∧ t.name = "Sum" ∧ t.OnlyGenerates ∧
      (∀ t' ∈ l.types, t' ≠ t → t'.upgraded = [] ∧ ¬ t'.Replaces [] "Sum") ∧
      l.parse "x + x - x;" = .ok v ∧ ¬ FieldsHold [] l.types "Sum" v := by
  have hcheck : (assemble (statementTypes ++ [differenceType]) .quiet).toOption.any (fun l =>
      decide (l.types = statementTypes ++ [differenceType]) &&
        (l.parse "x + x - x;").toOption == some differenceValue) = true := by
    cbv
  obtain ⟨l, hl, hcheck⟩ := exists_of_any_assemble hcheck
  simp only [Bool.and_eq_true, decide_eq_true_eq, beq_iff_eq] at hcheck
  obtain ⟨htypes, hparse⟩ := hcheck
  have hv : l.parse "x + x - x;" = .ok differenceValue := by
    cases hv : l.parse "x + x - x;" with
    | error err => simp [hv, Except.toOption] at hparse
    | ok v => simpa [hv, Except.toOption] using hparse
  refine ⟨l, statementTypes[3], _, hl, ?_, rfl, by decide, ?_, hv, ?_⟩
  · rw [htypes]
    rfl
  · rw [htypes]
    decide
  · intro hholds
    obtain ⟨t, ht, hname, -, r, hr, hfields⟩ := hholds _ _ (.self _)
    rw [htypes] at ht
    have honly : ∀ t ∈ statementTypes ++ [differenceType], t.name = "Statement" →
        ∀ r ∈ t.buildingRules, .sym (.field "sum" (.node "Sum") none) ∈ r.body := by
      decide
    obtain ⟨w, hw, fields, hnode⟩ := hfields _ _ _ (honly t ht hname r hr) rfl
    rw [hnode] at hw
    exact absurd hw (by simp)

end Language

end SmallLang
