import SmallLang.Proofs.Assembly.Succeeds
import SmallLang.Proofs.Operator.Staged

/-!
# Languages of infix operators

An `InfixLanguage` has a base type with parentheses, numbers, and infix operators between operands of
the base type. Its types may be declared in any order (`InfixLanguage.Declares`). Lowering such
declarations succeeds, and the grammar has the four kinds of productions that
`InfixLanguage.Produces` lists, each once (`InfixLanguage.exists_isLowered`).
-/

set_option autoImplicit false

namespace SmallLang

/-- An infix operator: the name of its type, the literal between the operands, the names of the
operands as fields, and the precedence. -/
structure InfixOperator where
  name : String
  sign : String
  left : String
  right : String
  prec : Prec
  deriving DecidableEq

/-- The type of an operator between operands of the base type. -/
def InfixOperator.nodeType (o : InfixOperator) (base : String) : NodeType :=
  ((NodeType.named o.name).generates
    [.field o.left (.node base) none, Sym.literal o.sign, .field o.right (.node base) none]
    o.prec).replaces base Prec.default

/-- The rule that builds the nodes of an operator. -/
def InfixOperator.rule (o : InfixOperator) (base : String) : Rule :=
  ⟨.this, [.sym (.field o.left (.node base) none), .sym (Sym.literal o.sign),
    .sym (.field o.right (.node base) none)], .construct, o.prec⟩

/-- What the nodes of an operator are made of. -/
def InfixOperator.construction (o : InfixOperator) : Construction :=
  .node o.name [⟨o.left, 0, none⟩, ⟨o.right, 2, none⟩]

/-- A language with parentheses around the base type, numbers and infix operators. Operators of one
priority group in the same way. -/
structure InfixLanguage where
  base : String
  number : String
  /-- The field of a number's node. -/
  field : String
  operators : List InfixOperator
  operators_ne_nil : operators ≠ []
  nodup_names : (base :: number :: operators.map InfixOperator.name).Nodup
  nodup_signs : ("(" :: ")" :: operators.map InfixOperator.sign).Nodup
  left_ne_right : ∀ o ∈ operators, o.left ≠ o.right
  assoc_eq : ∀ o ∈ operators, ∀ p ∈ operators, o.prec.priority = p.prec.priority →
    o.prec.assoc = p.prec.assoc

namespace InfixLanguage

variable (l : InfixLanguage)

/-- The base type. -/
def baseType : NodeType :=
  ((NodeType.named l.base).skip [Sym.literal "(", .this, Sym.literal ")"] Prec.default).start

/-- The type of numbers. -/
def numberType : NodeType :=
  ((NodeType.named l.number).generates [.field l.field (.terminal .number) none]
    Prec.default).replaces l.base Prec.default

/-- All types. -/
def types : List NodeType := l.baseType :: l.numberType :: l.operators.map (·.nodeType l.base)

/-- The names of all types. -/
def names : List String := l.base :: l.number :: l.operators.map InfixOperator.name

/-- The literals and the class of numbers. -/
def terminals : List Terminal :=
  .literal "(" :: .literal ")" :: .number :: l.operators.map fun o => .literal o.sign

theorem names_eq : l.types.map NodeType.name = l.names := by
  simp only [types, names, List.map_cons, List.map_map]
  rfl

variable {l}

theorem mem_types_iff {t : NodeType} :
    t ∈ l.types ↔ t = l.baseType ∨ t = l.numberType ∨ ∃ o ∈ l.operators, o.nodeType l.base = t := by
  rw [types, List.mem_cons, List.mem_cons, List.mem_map]

theorem base_mem_names : l.base ∈ l.names := List.mem_cons_self

theorem number_mem_names : l.number ∈ l.names := List.mem_cons_of_mem _ List.mem_cons_self

theorem name_mem_names {o : InfixOperator} (ho : o ∈ l.operators) : o.name ∈ l.names :=
  List.mem_cons_of_mem _ (List.mem_cons_of_mem _ (List.mem_map_of_mem ho))

theorem open_mem_terminals : .literal "(" ∈ l.terminals := List.mem_cons_self

theorem close_mem_terminals : .literal ")" ∈ l.terminals :=
  List.mem_cons_of_mem _ List.mem_cons_self

theorem number_mem_terminals : .number ∈ l.terminals :=
  List.mem_cons_of_mem _ (List.mem_cons_of_mem _ List.mem_cons_self)

theorem sign_mem_terminals {o : InfixOperator} (ho : o ∈ l.operators) :
    .literal o.sign ∈ l.terminals :=
  List.mem_cons_of_mem _ (List.mem_cons_of_mem _ (List.mem_cons_of_mem _
    (List.mem_map_of_mem (f := fun o : InfixOperator => Terminal.literal o.sign) ho)))

theorem mem_terminals_iff {t : Terminal} :
    t ∈ l.terminals ↔ t = .literal "(" ∨ t = .literal ")" ∨ t = .number ∨
      ∃ o ∈ l.operators, .literal o.sign = t := by
  simp only [terminals, List.mem_cons, List.mem_map]

/-- Only the class of numbers is not a literal, so terminals of one key are the same. -/
theorem consistent_terminals : Arena.Consistent (· ∈ l.terminals) := by
  have hcases : ∀ t ∈ l.terminals, (∃ text, t = .literal text) ∨ t = .number := by
    intro t ht
    rcases mem_terminals_iff.1 ht with rfl | rfl | rfl | ⟨o, -, rfl⟩
    · exact Or.inl ⟨_, rfl⟩
    · exact Or.inl ⟨_, rfl⟩
    · exact Or.inr rfl
    · exact Or.inl ⟨_, rfl⟩
  intro s t hs ht hkey
  rcases hcases s hs with ⟨x, rfl⟩ | rfl
  · rcases hcases t ht with ⟨y, rfl⟩ | rfl
    · rw [eq_of_beq (show (x == y) = true from hkey)]
    · exact absurd hkey (by simp [Terminal.sameKey, Terminal.number, Terminal.tokenClass])
  · rcases hcases t ht with ⟨y, rfl⟩ | rfl
    · exact absurd hkey (by simp [Terminal.sameKey, Terminal.number, Terminal.tokenClass])
    · rfl

/-- Operators of one sign are the same. -/
theorem eq_of_sign_eq {o p : InfixOperator} (ho : o ∈ l.operators) (hp : p ∈ l.operators)
    (h : o.sign = p.sign) : o = p := by
  have hnodup := (List.nodup_cons.1 (List.nodup_cons.1 l.nodup_signs).2).2
  exact List.inj_on_of_nodup_map hnodup ho hp h

/-- Operators of one name are the same. -/
theorem eq_of_name_eq {o p : InfixOperator} (ho : o ∈ l.operators) (hp : p ∈ l.operators)
    (h : o.name = p.name) : o = p := by
  have hnodup := (List.nodup_cons.1 (List.nodup_cons.1 l.nodup_names).2).2
  exact List.inj_on_of_nodup_map hnodup ho hp h

theorem name_ne_base {o : InfixOperator} (ho : o ∈ l.operators) : o.name ≠ l.base := by
  have hnot := (List.nodup_cons.1 l.nodup_names).1
  rintro heq
  exact hnot (heq ▸ List.mem_cons_of_mem _ (List.mem_map_of_mem ho))

theorem name_ne_number {o : InfixOperator} (ho : o ∈ l.operators) : o.name ≠ l.number := by
  have hnot := (List.nodup_cons.1 (List.nodup_cons.1 l.nodup_names).2).1
  rintro heq
  exact hnot (heq ▸ List.mem_map_of_mem ho)

theorem number_ne_base : l.number ≠ l.base := by
  have hnot := (List.nodup_cons.1 l.nodup_names).1
  rintro heq
  exact hnot (heq ▸ List.mem_cons_self)

theorem sign_ne_open {o : InfixOperator} (ho : o ∈ l.operators) : o.sign ≠ "(" := by
  have hnot := (List.nodup_cons.1 l.nodup_signs).1
  rintro heq
  exact hnot (heq ▸ List.mem_cons_of_mem _ (List.mem_map_of_mem ho))

theorem sign_ne_close {o : InfixOperator} (ho : o ∈ l.operators) : o.sign ≠ ")" := by
  have hnot := (List.nodup_cons.1 (List.nodup_cons.1 l.nodup_signs).2).1
  rintro heq
  exact hnot (heq ▸ List.mem_map_of_mem ho)

/-- The types of the language in any order. -/
def Declares (l : InfixLanguage) (declared : List NodeType) : Prop := declared.Perm l.types

/-! ## The productions -/

/-- Numbers for the types and the terminals. -/
structure Numbering where
  type : String → Nat
  terminal : Terminal → Nat

section Productions

variable (l : InfixLanguage) (num : Numbering)

/-- The base type in parentheses. -/
def parensProduction : Production :=
  ⟨[.terminal (num.terminal (.literal "(")), .nonTerminal (num.type l.base),
    .terminal (num.terminal (.literal ")"))], .child 1, Prec.default⟩

/-- A number. -/
def numberProduction : Production :=
  ⟨[.terminal (num.terminal .number)], .node l.number [⟨l.field, 0, none⟩], Prec.default⟩

/-- An operator between two operands. -/
def operatorProduction (o : InfixOperator) : Production :=
  ⟨[.nonTerminal (num.type l.base), .terminal (num.terminal (.literal o.sign)),
    .nonTerminal (num.type l.base)], o.construction, o.prec⟩

/-- A type that stands where the base type is expected. -/
def unitProduction (name : String) : Production :=
  ⟨[.nonTerminal (num.type name)], .child 0, Prec.default⟩

/-- The productions, each with the number of its non-terminal. -/
inductive Produces : Nat → Production → Prop
  | parens : Produces (num.type l.base) (l.parensProduction num)
  | number : Produces (num.type l.number) (l.numberProduction num)
  | numberUnit : Produces (num.type l.base) (unitProduction num l.number)
  | operator (o : InfixOperator) (ho : o ∈ l.operators) :
      Produces (num.type o.name) (l.operatorProduction num o)
  | operatorUnit (o : InfixOperator) (ho : o ∈ l.operators) :
      Produces (num.type l.base) (unitProduction num o.name)

/-- The grammar is that of the language under the numbering. -/
structure IsLowered (g : Grammar) : Prop where
  start : g.start = num.type l.base
  type_lt : ∀ name ∈ l.names, num.type name < g.size
  type_injOn : ∀ s ∈ l.names, ∀ t ∈ l.names, num.type s = num.type t → s = t
  arena_mem : ∀ t ∈ g.arena.terminals, t ∈ l.terminals
  terminal_iff : ∀ t ∈ l.terminals, ∀ i, g.arena.get? i = some t ↔ i = num.terminal t
  staged : ∃ types, g.Staged types g.size
  nodup : ∀ i, (g.productionsOf i).Nodup
  mem_iff : ∀ i p, p ∈ g.productionsOf i ↔ l.Produces num i p

end Productions

/-! ## Lowering -/

section Lowering

variable {l : InfixLanguage} {declared : List NodeType}

theorem Declares.mem_iff (h : l.Declares declared) {t : NodeType} :
    t ∈ declared ↔ t = l.baseType ∨ t = l.numberType ∨ ∃ o ∈ l.operators, o.nodeType l.base = t :=
  (List.Perm.mem_iff h).trans mem_types_iff

theorem Declares.nodup_names (h : l.Declares declared) :
    (declared.map NodeType.name).Nodup := by
  refine ((List.Perm.map NodeType.name h).nodup_iff).2 ?_
  rw [names_eq]
  exact l.nodup_names

theorem Declares.exists_type (h : l.Declares declared) {name : String} (hname : name ∈ l.names) :
    ∃ t ∈ declared, t.name = name := by
  rw [← names_eq, ← (List.Perm.map NodeType.name h).mem_iff] at hname
  exact List.mem_map.1 hname

theorem Declares.uniqueStart_eq (h : l.Declares declared) :
    uniqueStart declared = .ok l.base := by
  have hoperators : (l.operators.map (·.nodeType l.base)).filter NodeType.isStart = [] := by
    rw [List.filter_eq_nil_iff]
    intro t ht
    obtain ⟨o, -, rfl⟩ := List.mem_map.1 ht
    exact Bool.false_ne_true
  have htypes : l.types.filter NodeType.isStart = [l.baseType] := by
    rw [types, List.filter_cons_of_pos rfl, List.filter_cons_of_neg Bool.false_ne_true, hoperators]
  have hdeclared : declared.filter NodeType.isStart = [l.baseType] := by
    rw [← List.perm_singleton, ← htypes]
    exact List.Perm.filter _ h
  rw [uniqueStart, hdeclared]
  rfl

/-- A name of the language has a number. -/
theorem Declares.exists_typeNumber? (h : l.Declares declared) {name : String}
    (hname : name ∈ l.names) : ∃ i, Naming.typeNumber? ⟨[], declared⟩ name = some i := by
  obtain ⟨t, ht, rfl⟩ := h.exists_type hname
  rw [Naming.typeNumber?_of_upgrades_nil]
  refine Option.isSome_iff_exists.1 ?_
  rw [List.findIdx?_isSome, List.any_eq_true]
  exact ⟨t, ht, beq_self_eq_true _⟩

theorem rules_nodeType (o : InfixOperator) (base : String) :
    (o.nodeType base).rules =
      [o.rule base, ⟨.type base, [.sym .this], .handOn, Prec.default⟩] := rfl

theorem fields_nodeType (o : InfixOperator) (base : String) :
    (o.nodeType base).fields = [⟨o.left, none⟩, ⟨o.right, none⟩] := rfl

theorem fields_rule (o : InfixOperator) (base : String) :
    (o.rule base).fields = [⟨o.left, none⟩, ⟨o.right, none⟩] := rfl

theorem checkFields_nodeType {o : InfixOperator} (h : o.left ≠ o.right) (base : String) :
    (o.nodeType base).checkFields = .ok () := by
  have hbody : (o.nodeType base).checkBody (o.rule base) = .ok () := by
    have hne : o.right ≠ o.left := Ne.symm h
    simp [NodeType.checkBody, NodeType.fieldNames, fields_nodeType, fields_rule, firstRepeated?,
      hne, sameNames]
  refine Except.bind_eq_ok_iff.2 ⟨(), ?_, rfl⟩
  exact Except.bind_eq_ok_iff.2 ⟨(), hbody, rfl⟩

theorem construction_rule {o : InfixOperator} (h : o.left ≠ o.right) (base : String) :
    (o.nodeType base).construction (o.rule base) = .ok o.construction := by
  have hleft : (o.rule base).fieldPlace o.left = 0 := by
    rw [Rule.fieldPlace, InfixOperator.rule, List.findIdx_cons]
    simp [Element.field?]
  have hright : (o.rule base).fieldPlace o.right = 2 := by
    rw [Rule.fieldPlace, InfixOperator.rule]
    simp [List.findIdx_cons, Element.field?, Sym.literal, beq_eq_false_iff_ne.2 h]
  have htemplate : (o.rule base).template = .construct := rfl
  rw [NodeType.construction, htemplate]
  simp only [fields_nodeType, List.map_cons, List.map_nil, hleft, hright]
  rfl

/-! ### From rules to productions -/

section Rules

variable {num : Numbering} {ns : Naming} {arena : Arena}

/-- The numbering is the one that names and terminals are looked up by. -/
structure LooksUp (l : InfixLanguage) (num : Numbering) (ns : Naming) (arena : Arena) : Prop where
  type : ∀ name ∈ l.names, ns.typeNumber? name = some (num.type name)
  terminal : ∀ t ∈ l.terminals, arena.indexOf? t = some (num.terminal t)

theorem LooksUp.element_type (h : l.LooksUp num ns arena) (owner : String) {name : String}
    (hname : name ∈ l.names) :
    ns.elementSymbol? arena owner (.sym (.node name)) = some (.nonTerminal (num.type name)) := by
  rw [Naming.elementSymbol?, Naming.symbol?, h.type name hname]
  rfl

theorem LooksUp.element_terminal (h : l.LooksUp num ns arena) (owner : String) {t : Terminal}
    (ht : t ∈ l.terminals) :
    ns.elementSymbol? arena owner (.sym (.terminal t)) = some (.terminal (num.terminal t)) := by
  rw [Naming.elementSymbol?, Naming.symbol?, h.terminal t ht]
  rfl

theorem LooksUp.filterMap_baseType (h : l.LooksUp num ns arena) :
    l.baseType.rules.filterMap (ns.production? arena l.baseType) =
      [(num.type l.base, l.parensProduction num)] := by
  refine filterMap_eq_of_forall₂ (.cons ?_ .nil)
  refine Naming.production?_eq_some_iff.2 ⟨h.type _ base_mem_names, ?_, rfl, rfl⟩
  refine .cons (h.element_terminal l.base open_mem_terminals) (.cons ?_ (.cons ?_ .nil))
  · exact h.element_type l.base base_mem_names
  · exact h.element_terminal l.base close_mem_terminals

theorem LooksUp.filterMap_numberType (h : l.LooksUp num ns arena) :
    l.numberType.rules.filterMap (ns.production? arena l.numberType) =
      [(num.type l.number, l.numberProduction num),
        (num.type l.base, unitProduction num l.number)] := by
  have hfields : l.numberType.construction
      ⟨.this, [.sym (.field l.field (.terminal .number) none)], .construct, Prec.default⟩ =
      .ok (.node l.number [⟨l.field, 0, none⟩]) := by
    have hplace : Rule.fieldPlace
        ⟨.this, [.sym (.field l.field (.terminal .number) none)], .construct, Prec.default⟩
        l.field = 0 := by
      rw [Rule.fieldPlace, List.findIdx_cons]
      simp [Element.field?]
    rw [NodeType.construction]
    simp only [show l.numberType.fields = [⟨l.field, none⟩] from rfl, List.map_cons, List.map_nil,
      hplace]
    rfl
  refine filterMap_eq_of_forall₂ (.cons ?_ (.cons ?_ .nil))
  · refine Naming.production?_eq_some_iff.2 ⟨h.type _ number_mem_names, ?_, hfields, rfl⟩
    exact .cons (h.element_terminal l.number number_mem_terminals) .nil
  · refine Naming.production?_eq_some_iff.2 ⟨h.type _ base_mem_names, ?_, rfl, rfl⟩
    exact .cons (h.element_type l.number number_mem_names) .nil

theorem LooksUp.filterMap_nodeType (h : l.LooksUp num ns arena) {o : InfixOperator}
    (ho : o ∈ l.operators) :
    (o.nodeType l.base).rules.filterMap (ns.production? arena (o.nodeType l.base)) =
      [(num.type o.name, l.operatorProduction num o),
        (num.type l.base, unitProduction num o.name)] := by
  rw [rules_nodeType]
  refine filterMap_eq_of_forall₂ (.cons ?_ (.cons ?_ .nil))
  · refine Naming.production?_eq_some_iff.2 ⟨h.type _ (name_mem_names ho), ?_,
      construction_rule (l.left_ne_right o ho) l.base, rfl⟩
    refine .cons (h.element_type o.name base_mem_names) (.cons ?_ (.cons ?_ .nil))
    · exact h.element_terminal o.name (sign_mem_terminals ho)
    · exact h.element_type o.name base_mem_names
  · refine Naming.production?_eq_some_iff.2 ⟨h.type _ base_mem_names, ?_, rfl, rfl⟩
    exact .cons (h.element_type o.name (name_mem_names ho)) .nil

theorem LooksUp.mem_filterMap_iff (h : l.LooksUp num ns arena) (hdeclared : l.Declares declared)
    {i : Nat} {p : Production} :
    (∃ t ∈ declared, (i, p) ∈ t.rules.filterMap (ns.production? arena t)) ↔ l.Produces num i p := by
  constructor
  · rintro ⟨t, ht, hp⟩
    rcases hdeclared.mem_iff.1 ht with rfl | rfl | ⟨o, ho, rfl⟩
    · rw [h.filterMap_baseType, List.mem_singleton] at hp
      cases hp
      exact .parens
    · rw [h.filterMap_numberType, List.mem_pair] at hp
      rcases hp with hp | hp
      · cases hp
        exact .number
      · cases hp
        exact .numberUnit
    · rw [h.filterMap_nodeType ho, List.mem_pair] at hp
      rcases hp with hp | hp
      · cases hp
        exact .operator o ho
      · cases hp
        exact .operatorUnit o ho
  · intro hp
    cases hp with
    | parens =>
        refine ⟨_, hdeclared.mem_iff.2 (Or.inl rfl), ?_⟩
        rw [h.filterMap_baseType]
        exact List.mem_cons_self
    | number =>
        refine ⟨_, hdeclared.mem_iff.2 (Or.inr (Or.inl rfl)), ?_⟩
        rw [h.filterMap_numberType]
        exact List.mem_cons_self
    | numberUnit =>
        refine ⟨_, hdeclared.mem_iff.2 (Or.inr (Or.inl rfl)), ?_⟩
        rw [h.filterMap_numberType]
        exact List.mem_cons_of_mem _ List.mem_cons_self
    | operator o ho =>
        refine ⟨_, hdeclared.mem_iff.2 (Or.inr (Or.inr ⟨o, ho, rfl⟩)), ?_⟩
        rw [h.filterMap_nodeType ho]
        exact List.mem_cons_self
    | operatorUnit o ho =>
        refine ⟨_, hdeclared.mem_iff.2 (Or.inr (Or.inr ⟨o, ho, rfl⟩)), ?_⟩
        rw [h.filterMap_nodeType ho]
        exact List.mem_cons_of_mem _ List.mem_cons_self

/-- The number of the type that declares a production: a unit production mentions it, any other one
belongs to it. -/
def declaringNumber (x : Nat × Production) : Nat := x.2.unitTarget?.getD x.1

theorem LooksUp.declaringNumber_eq (h : l.LooksUp num ns arena) (hdeclared : l.Declares declared)
    {t : NodeType} (ht : t ∈ declared) {x : Nat × Production}
    (hx : x ∈ t.rules.filterMap (ns.production? arena t)) :
    declaringNumber x = num.type t.name := by
  rcases hdeclared.mem_iff.1 ht with rfl | rfl | ⟨o, ho, rfl⟩
  · rw [h.filterMap_baseType, List.mem_singleton] at hx
    subst hx
    rfl
  · rw [h.filterMap_numberType, List.mem_pair] at hx
    rcases hx with rfl | rfl <;> rfl
  · rw [h.filterMap_nodeType ho, List.mem_pair] at hx
    rcases hx with rfl | rfl <;> rfl

/-- No production is declared twice. -/
theorem LooksUp.nodup_ruleProductions (h : l.LooksUp num ns arena) (hdeclared : l.Declares declared)
    (htypes : ns.types = declared)
    (hinj : ∀ s ∈ l.names, ∀ t ∈ l.names, num.type s = num.type t → s = t) :
    (ns.ruleProductions arena).Nodup := by
  have hname : ∀ t ∈ declared, t.name ∈ l.names := by
    intro t ht
    rw [← names_eq]
    exact List.mem_map_of_mem ((List.Perm.mem_iff hdeclared).1 ht)
  rw [Naming.ruleProductions, htypes, List.nodup_flatMap]
  refine ⟨fun t ht => ?_, ?_⟩
  · rcases hdeclared.mem_iff.1 ht with rfl | rfl | ⟨o, ho, rfl⟩
    · rw [h.filterMap_baseType]
      exact List.nodup_singleton _
    · rw [h.filterMap_numberType]
      refine List.nodup_cons.2 ⟨?_, List.nodup_singleton _⟩
      rw [List.mem_singleton]
      intro heq
      exact absurd (congrArg (·.2.construction) heq) (by simp [numberProduction, unitProduction])
    · rw [h.filterMap_nodeType ho]
      refine List.nodup_cons.2 ⟨?_, List.nodup_singleton _⟩
      rw [List.mem_singleton]
      intro heq
      exact absurd (congrArg (·.2.construction) heq) (by simp [operatorProduction, InfixOperator.construction, unitProduction])
  · have hpairwise := List.pairwise_map.1 (List.nodup_iff_pairwise_ne.1 hdeclared.nodup_names)
    refine hpairwise.imp_of_mem ?_
    intro s t hs ht hne x hxs hxt
    -- Both types declare the production, so they have one number.
    have heq := (h.declaringNumber_eq hdeclared hs hxs).symm.trans
      (h.declaringNumber_eq hdeclared ht hxt)
    exact hne (hinj _ (hname s hs) _ (hname t ht) heq)

end Rules

/-- Every rule of the types refers to types and terminals of the language. -/
theorem Declares.lowers (h : l.Declares declared) {t : NodeType} (ht : t ∈ declared) {r : Rule}
    (hr : r ∈ t.rules) : Naming.Lowers ⟨[], declared⟩ (· ∈ l.terminals) t r := by
  rcases h.mem_iff.1 ht with rfl | rfl | ⟨o, ho, rfl⟩
  · obtain rfl := List.mem_singleton.1 hr
    refine ⟨h.exists_typeNumber? base_mem_names, fun s hs => ?_, _, rfl⟩
    simp only [List.map_cons, List.map_nil, List.mem_cons, Element.sym.injEq, List.not_mem_nil,
      or_false] at hs
    rcases hs with rfl | rfl | rfl
    · exact open_mem_terminals
    · exact h.exists_typeNumber? base_mem_names
    · exact close_mem_terminals
  · rcases List.mem_pair.1 hr with rfl | rfl
    · refine ⟨h.exists_typeNumber? number_mem_names, fun s hs => ?_, _, rfl⟩
      obtain rfl := Element.sym.inj (List.mem_singleton.1 hs)
      exact number_mem_terminals
    · refine ⟨h.exists_typeNumber? base_mem_names, fun s hs => ?_, _, rfl⟩
      obtain rfl := Element.sym.inj (List.mem_singleton.1 hs)
      exact h.exists_typeNumber? number_mem_names
  · rcases List.mem_pair.1 hr with rfl | rfl
    · refine ⟨h.exists_typeNumber? (name_mem_names ho), fun s hs => ?_, _, rfl⟩
      simp only [List.map_cons, List.map_nil, List.mem_cons, Element.sym.injEq, List.not_mem_nil,
        or_false] at hs
      rcases hs with rfl | rfl | rfl
      · exact h.exists_typeNumber? base_mem_names
      · exact sign_mem_terminals ho
      · exact h.exists_typeNumber? base_mem_names
    · refine ⟨h.exists_typeNumber? base_mem_names, fun s hs => ?_, _, rfl⟩
      obtain rfl := Element.sym.inj (List.mem_singleton.1 hs)
      exact h.exists_typeNumber? (name_mem_names ho)

/-- Every terminal of the language has a number in the grammar. -/
theorem exists_indexOf? {lowered : Lowered} (hmakes : Naming.Makes ⟨[], declared⟩ declared lowered)
    (h : l.Declares declared) {t : Terminal} (ht : t ∈ l.terminals) :
    ∃ i, lowered.grammar.arena.indexOf? t = some i := by
  -- The terminal stands in the body of some rule, and all rules were lowered.
  have hbody : ∃ t' ∈ declared, ∃ r ∈ t'.rules, .sym (.terminal t) ∈ r.body ∨
      ∃ name, .sym (.field name (.terminal t) none) ∈ r.body := by
    rcases mem_terminals_iff.1 ht with rfl | rfl | rfl | ⟨o, ho, rfl⟩
    · exact ⟨_, h.mem_iff.2 (Or.inl rfl), _, List.mem_cons_self, Or.inl List.mem_cons_self⟩
    · refine ⟨_, h.mem_iff.2 (Or.inl rfl), _, List.mem_cons_self, Or.inl ?_⟩
      exact List.mem_cons_of_mem _ (List.mem_cons_of_mem _ List.mem_cons_self)
    · exact ⟨_, h.mem_iff.2 (Or.inr (Or.inl rfl)), _, List.mem_cons_self,
        Or.inr ⟨l.field, List.mem_cons_self⟩⟩
    · refine ⟨_, h.mem_iff.2 (Or.inr (Or.inr ⟨o, ho, rfl⟩)), _, List.mem_cons_self, Or.inl ?_⟩
      exact List.mem_cons_of_mem _ List.mem_cons_self
  obtain ⟨t', ht', r, hr, hmem⟩ := hbody
  obtain ⟨⟨i, p⟩, hp⟩ := hmakes.produces t' ht' r hr
  have hsymbols := (Naming.production?_eq_some_iff.1 hp).2.1
  have hfound : ∃ s, (lowered.grammar.arena.indexOf? t).map Symbol.terminal = some s := by
    rcases hmem with hmem | ⟨name, hmem⟩
    · obtain ⟨s, -, hs⟩ := exists_of_forall₂_left hsymbols hmem
      exact ⟨s, hs⟩
    · obtain ⟨s, -, hs⟩ := exists_of_forall₂_left hsymbols hmem
      exact ⟨s, hs⟩
  obtain ⟨s, hs⟩ := hfound
  obtain ⟨j, hj, -⟩ := Option.map_eq_some_iff.1 hs
  exact ⟨j, hj⟩

theorem Declares.upgraded_eq_nil (h : l.Declares declared) : ∀ t ∈ declared, t.upgraded = [] := by
  intro t ht
  rcases h.mem_iff.1 ht with rfl | rfl | ⟨o, -, rfl⟩ <;> rfl

theorem Declares.built (h : l.Declares declared) : ∀ t ∈ declared, t.Built := by
  intro t ht
  rcases h.mem_iff.1 ht with rfl | rfl | ⟨o, -, rfl⟩
  · exact .start (.skip (.named _) _ _)
  · exact .replaces (.generates (.named _) _ _) _ _
  · exact .replaces (.generates (.named _) _ _) _ _

theorem checkFields_numberType (l : InfixLanguage) : l.numberType.checkFields = .ok () := by
  have hbody : sameNames [l.field] [l.field] = true := by simp [sameNames]
  have hcheck : l.numberType.checkBody
      ⟨.this, [.sym (.field l.field (.terminal .number) none)], .construct, Prec.default⟩ =
      .ok () := if_pos hbody
  refine Except.bind_eq_ok_iff.2 ⟨(), ?_, rfl⟩
  exact Except.bind_eq_ok_iff.2 ⟨(), hcheck, rfl⟩

theorem Declares.checkFields (h : l.Declares declared) : ∀ t ∈ declared, t.checkFields = .ok () := by
  intro t ht
  rcases h.mem_iff.1 ht with rfl | rfl | ⟨o, ho, rfl⟩
  · rfl
  · exact l.checkFields_numberType
  · exact checkFields_nodeType (l.left_ne_right o ho) l.base

/-- The numbers of the language are those that its types and terminals are found at. -/
theorem Declares.exists_looksUp {lowered : Lowered}
    (hmakes : Naming.Makes ⟨[], declared⟩ declared lowered) (h : l.Declares declared) :
    ∃ num, l.LooksUp num ⟨[], declared⟩ lowered.grammar.arena := by
  refine ⟨⟨fun name => (Naming.typeNumber? ⟨[], declared⟩ name).getD 0,
    fun t => (lowered.grammar.arena.indexOf? t).getD 0⟩, fun name hname => ?_, fun t ht => ?_⟩
  · obtain ⟨i, hi⟩ := h.exists_typeNumber? hname
    simp only [hi, Option.getD_some]
  · obtain ⟨i, hi⟩ := exists_indexOf? hmakes h ht
    simp only [hi, Option.getD_some]

theorem LooksUp.type_injOn {num : Numbering} {arena : Arena} (h : l.LooksUp num ⟨[], declared⟩ arena) :
    ∀ s ∈ l.names, ∀ t ∈ l.names, num.type s = num.type t → s = t := by
  intro s hs t ht heq
  have hname := Naming.name_of_typeNumber? (h.type s hs)
  rw [heq, Naming.name_of_typeNumber? (h.type t ht)] at hname
  exact (Option.some.inj hname).symm

/-- What is made of the types of the language is its grammar. -/
theorem LooksUp.isLowered {num : Numbering} {lowered : Lowered}
    (hlooks : l.LooksUp num ⟨[], declared⟩ lowered.grammar.arena) (h : l.Declares declared)
    (hmakes : Naming.Makes ⟨[], declared⟩ declared lowered)
    (harena : lowered.grammar.arena.Among (· ∈ l.terminals)) : l.IsLowered num lowered.grammar := by
  have hstart : lowered.start = l.base :=
    Except.ok.inj (hmakes.uniqueStart.symm.trans h.uniqueStart_eq)
  refine ⟨?_, ?_, hlooks.type_injOn, harena.mem, ?_, ⟨_, Grammar.staged_of_lowered hmakes h.built⟩,
    ?_, ?_⟩
  · have hbase := hlooks.type l.base base_mem_names
    rw [Naming.typeNumber?_of_upgrades_nil, List.findIdx?_eq_some_iff_findIdx_eq] at hbase
    rw [hmakes.start, hstart]
    exact hbase.2
  · intro name hname
    exact Nat.lt_of_lt_of_le (Naming.typeNumber?_lt (hlooks.type name hname)) hmakes.length_types_le
  · intro t ht i
    rw [← harena.indexOf?_eq_some_iff consistent_terminals ht, hlooks.terminal t ht,
      Option.some.injEq, eq_comm]
  · intro i
    rw [hmakes.productionsOf_eq]
    refine List.Nodup.map_on ?_ ((hlooks.nodup_ruleProductions h rfl hlooks.type_injOn).filter _)
    rintro ⟨j, p⟩ hp ⟨k, q⟩ hq heq
    obtain rfl : j = i := eq_of_beq (List.mem_filter.1 hp).2
    obtain rfl : k = j := eq_of_beq (List.mem_filter.1 hq).2
    exact congrArg (k, ·) heq
  · intro i p
    rw [hmakes.mem_productionsOf_iff, ← hlooks.mem_filterMap_iff h]
    simp only [List.mem_filterMap]

/-- The types of the language can be lowered, and the grammar is that of the language. -/
theorem Declares.exists_isLowered (h : l.Declares declared) :
    ∃ lowered num, lower declared = .ok lowered ∧ l.IsLowered num lowered.grammar := by
  obtain ⟨lowered, hlower, hmakes, harena⟩ := lower_succeeds h.upgraded_eq_nil h.nodup_names
    h.uniqueStart_eq (consistent_terminals (l := l)) h.checkFields fun t ht r hr => h.lowers ht hr
  obtain ⟨num, hlooks⟩ := h.exists_looksUp hmakes
  exact ⟨lowered, num, hlower, hlooks.isLowered h hmakes harena⟩

end Lowering

end InfixLanguage

end SmallLang
