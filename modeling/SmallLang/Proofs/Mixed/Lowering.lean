import SmallLang.Proofs.Assembly.Extend
import SmallLang.Proofs.Assembly.Succeeds
import SmallLang.Proofs.Mixed.Ladder

/-!
# Lowering languages of operators

An `OperatorLanguage` has a base type with parentheses, numbers, and operators that stand between, before
or after operands of the base type, all with different literals. Where its types can be lowered, in
whatever order they are declared, the grammar is that of a mixture, whose numbers are those of the names
and literals of the language (`OperatorLanguage.Numbers.describes`).
-/

set_option autoImplicit false

namespace SmallLang

open List (Forall₂)

/-- An operator: the name of its type, its literal, where it stands, the names of its operands as
fields, its precedence, and the precedence of its type where it replaces the base type. -/
structure MixedOperator where
  name : String
  sign : String
  fixity : Fixity
  left : String
  right : String
  prec : Prec
  replaces : Prec
  deriving DecidableEq

namespace MixedOperator

/-- The body of the type that declares the operator. -/
def body (o : MixedOperator) (base : String) : List Sym :=
  match o.fixity with
  | .between =>
      [.field o.left (.node base) none, Sym.literal o.sign, .field o.right (.node base) none]
  | .before => [Sym.literal o.sign, .field o.right (.node base) none]
  | .after => [.field o.left (.node base) none, Sym.literal o.sign]

/-- The operator by the numbers of its type and its literal. -/
def toSign (o : MixedOperator) (type : String → Nat) (terminal : Terminal → Nat) : Sign :=
  ⟨type o.name, terminal (.literal o.sign), o.fixity, o.prec, o.replaces⟩

/-- The type that declares the operator. -/
def nodeType (o : MixedOperator) (base : String) : NodeType :=
  ((NodeType.named o.name).generates (o.body base) o.prec).replaces base o.replaces

end MixedOperator

/-- A language with parentheses around the base type, numbers and operators. No operator with a left
operand is declared not to group. -/
structure OperatorLanguage where
  base : String
  opening : String
  closing : String
  parensPrec : Prec
  number : String
  /-- The field of a number's node. -/
  field : String
  numberPrec : Prec
  numberReplaces : Prec
  operators : List MixedOperator
  nodup_names : (base :: number :: operators.map MixedOperator.name).Nodup
  nodup_signs : (opening :: closing :: operators.map MixedOperator.sign).Nodup
  groups : ∀ o ∈ operators, o.fixity ≠ .before → o.prec.assoc ≠ .none

namespace OperatorLanguage

section Types

variable (l : OperatorLanguage)

/-- The base type. -/
def baseType : NodeType :=
  ((NodeType.named l.base).skip [Sym.literal l.opening, .this, Sym.literal l.closing]
    l.parensPrec).start

/-- The type of numbers. -/
def numberType : NodeType :=
  ((NodeType.named l.number).generates [.field l.field (.terminal .number) none]
    l.numberPrec).replaces l.base l.numberReplaces

/-- All types. -/
def types : List NodeType := l.baseType :: l.numberType :: l.operators.map (·.nodeType l.base)

/-- The names of all types. -/
def names : List String := l.base :: l.number :: l.operators.map MixedOperator.name

/-- The literals and the class of numbers. -/
def terminals : List Terminal :=
  .literal l.opening :: .literal l.closing :: .number ::
    l.operators.map fun o => .literal o.sign

/-- The types of the language in any order. -/
def Declares (declared : List NodeType) : Prop := declared.Perm l.types

instance (declared : List NodeType) : Decidable (l.Declares declared) :=
  inferInstanceAs (Decidable (declared.Perm l.types))

end Types

variable {l : OperatorLanguage} {declared : List NodeType}

theorem names_eq : l.types.map NodeType.name = l.names := by
  simp only [types, names, List.map_cons, List.map_map]
  rfl

/-- Terminals of one key are the same. -/
theorem eq_of_sameKey {s t : Terminal} (hs : s ∈ l.terminals) (ht : t ∈ l.terminals)
    (h : s.sameKey t = true) : s = t := by
  have hcases : ∀ t ∈ l.terminals, (∃ text, t = .literal text) ∨ t = .number := by
    intro t ht
    simp only [terminals, List.mem_cons, List.mem_map] at ht
    rcases ht with rfl | rfl | rfl | ⟨o, -, rfl⟩
    · exact Or.inl ⟨_, rfl⟩
    · exact Or.inl ⟨_, rfl⟩
    · exact Or.inr rfl
    · exact Or.inl ⟨_, rfl⟩
  rcases hcases s hs with ⟨x, rfl⟩ | rfl
  · rcases hcases t ht with ⟨y, rfl⟩ | rfl
    · rw [eq_of_beq (show (x == y) = true from h)]
    · exact absurd h Bool.false_ne_true
  · rcases hcases t ht with ⟨y, rfl⟩ | rfl
    · exact absurd h Bool.false_ne_true
    · rfl

theorem nodup_terminals (l : OperatorLanguage) : l.terminals.Nodup := by
  have hsigns : ((l.opening :: l.closing :: l.operators.map MixedOperator.sign).map
      Terminal.literal).Nodup :=
    l.nodup_signs.map fun _ _ h => Terminal.literal.inj h
  have hperm : l.terminals.Perm (.number ::
      (l.opening :: l.closing :: l.operators.map MixedOperator.sign).map Terminal.literal) := by
    simp only [terminals, List.map_cons, List.map_map]
    exact (List.Perm.cons _ (List.Perm.swap _ _ _)).trans (List.Perm.swap _ _ _)
  refine hperm.nodup_iff.2 (List.nodup_cons.2 ⟨fun hmem => ?_, hsigns⟩)
  obtain ⟨text, -, htext⟩ := List.mem_map.1 hmem
  exact Terminal.noConfusion htext

theorem Declares.mem_iff (h : l.Declares declared) {t : NodeType} :
    t ∈ declared ↔ t = l.baseType ∨ t = l.numberType ∨ ∃ o ∈ l.operators, o.nodeType l.base = t := by
  rw [List.Perm.mem_iff h, types, List.mem_cons, List.mem_cons, List.mem_map]

theorem Declares.nodup_names (h : l.Declares declared) : (declared.map NodeType.name).Nodup := by
  refine (List.Perm.map NodeType.name h).nodup_iff.2 ?_
  rw [names_eq]
  exact l.nodup_names

theorem Declares.upgraded_eq_nil (h : l.Declares declared) : ∀ t ∈ declared, t.upgraded = [] := by
  intro t ht
  rcases h.mem_iff.1 ht with rfl | rfl | ⟨o, -, rfl⟩ <;> rfl

theorem Declares.built (h : l.Declares declared) : ∀ t ∈ declared, t.Built := by
  intro t ht
  rcases h.mem_iff.1 ht with rfl | rfl | ⟨o, -, rfl⟩
  · exact .start (.skip (.named _) _ _)
  · exact .replaces (.generates (.named _) _ _) _ _
  · exact .replaces (.generates (.named _) _ _) _ _

/-! ## The numbers of types and terminals -/

/-- The numbers by which names and terminals of the language are looked up. -/
structure Numbers (l : OperatorLanguage) (ns : Naming) (arena : Arena) (type : String → Nat)
    (terminal : Terminal → Nat) : Prop where
  type : ∀ name ∈ l.names, ns.typeNumber? name = some (type name)
  terminal : ∀ t ∈ l.terminals, arena.indexOf? t = some (terminal t)

theorem base_mem_names : l.base ∈ l.names := List.mem_cons_self

theorem number_mem_names : l.number ∈ l.names := List.mem_cons_of_mem _ List.mem_cons_self

theorem name_mem_names {o : MixedOperator} (ho : o ∈ l.operators) : o.name ∈ l.names :=
  List.mem_cons_of_mem _ (List.mem_cons_of_mem _ (List.mem_map_of_mem ho))

theorem opening_mem_terminals : .literal l.opening ∈ l.terminals := List.mem_cons_self

theorem closing_mem_terminals : .literal l.closing ∈ l.terminals :=
  List.mem_cons_of_mem _ List.mem_cons_self

theorem number_mem_terminals : .number ∈ l.terminals :=
  List.mem_cons_of_mem _ (List.mem_cons_of_mem _ List.mem_cons_self)

theorem sign_mem_terminals {o : MixedOperator} (ho : o ∈ l.operators) :
    .literal o.sign ∈ l.terminals :=
  List.mem_cons_of_mem _ (List.mem_cons_of_mem _ (List.mem_cons_of_mem _
    (List.mem_map_of_mem (f := fun o : MixedOperator => Terminal.literal o.sign) ho)))

/-- Every terminal of the language stands in the body of a rule. -/
theorem Declares.exists_body (h : l.Declares declared) {t : Terminal} (ht : t ∈ l.terminals) :
    ∃ s ∈ declared, ∃ r ∈ s.rules, .sym (.terminal t) ∈ r.body ∨
      ∃ name, .sym (.field name (.terminal t) none) ∈ r.body := by
  simp only [terminals, List.mem_cons, List.mem_map] at ht
  rcases ht with rfl | rfl | rfl | ⟨o, ho, rfl⟩
  · exact ⟨_, h.mem_iff.2 (Or.inl rfl), _, List.mem_cons_self, Or.inl List.mem_cons_self⟩
  · refine ⟨_, h.mem_iff.2 (Or.inl rfl), _, List.mem_cons_self, Or.inl ?_⟩
    exact List.mem_cons_of_mem _ (List.mem_cons_of_mem _ List.mem_cons_self)
  · exact ⟨_, h.mem_iff.2 (Or.inr (Or.inl rfl)), _, List.mem_cons_self,
      Or.inr ⟨l.field, List.mem_cons_self⟩⟩
  · refine ⟨_, h.mem_iff.2 (Or.inr (Or.inr ⟨o, ho, rfl⟩)), _, List.mem_cons_self, Or.inl ?_⟩
    refine List.mem_map.2 ⟨Sym.literal o.sign, ?_, rfl⟩
    cases hfixity : o.fixity <;> simp [MixedOperator.body, hfixity]

section Lowering

variable {lowered : Lowered} (hmakes : Naming.Makes ⟨[], declared⟩ declared lowered)
include hmakes

/-- Whatever is lowered has numbers. -/
theorem Declares.exists_numbers (h : l.Declares declared) :
    ∃ type terminal, l.Numbers ⟨[], declared⟩ lowered.grammar.arena type terminal := by
  refine ⟨fun name => (Naming.typeNumber? ⟨[], declared⟩ name).getD 0,
    fun t => (lowered.grammar.arena.indexOf? t).getD 0, fun name hname => ?_, fun t ht => ?_⟩
  · rw [← names_eq, ← (List.Perm.map NodeType.name h).mem_iff] at hname
    obtain ⟨t, ht, rfl⟩ := List.mem_map.1 hname
    have hfound : (Naming.typeNumber? ⟨[], declared⟩ t.name).isSome = true := by
      rw [Naming.typeNumber?_of_upgrades_nil, List.findIdx?_isSome, List.any_eq_true]
      exact ⟨t, ht, beq_self_eq_true _⟩
    obtain ⟨i, hi⟩ := Option.isSome_iff_exists.1 hfound
    rw [hi, Option.getD_some]
  · obtain ⟨s, hs, r, hr, hmem⟩ := h.exists_body ht
    obtain ⟨⟨i, p⟩, hp⟩ := hmakes.produces s hs r hr
    have hsymbols := (Naming.production?_eq_some_iff.1 hp).2.1
    -- All rules were lowered, so the element has a symbol.
    obtain ⟨x, hx⟩ : ∃ x, (lowered.grammar.arena.indexOf? t).map Symbol.terminal = some x := by
      rcases hmem with hmem | ⟨name, hmem⟩
      · obtain ⟨x, -, hx⟩ := exists_of_forall₂_left hsymbols hmem
        exact ⟨x, hx⟩
      · obtain ⟨x, -, hx⟩ := exists_of_forall₂_left hsymbols hmem
        exact ⟨x, hx⟩
    obtain ⟨j, hj, -⟩ := Option.map_eq_some_iff.1 hx
    rw [hj, Option.getD_some]

/-- A rule whose head and elements have numbers makes one production, and this is in the grammar. -/
theorem production_of_rule {t : NodeType} (ht : t ∈ declared) {r : Rule} (hr : r ∈ t.rules)
    {i : Nat} {symbols : List Symbol}
    (hhead : Naming.headNumber? ⟨[], declared⟩ t.name r.head = some i)
    (hsymbols : Forall₂ (fun x s => Naming.elementSymbol? ⟨[], declared⟩ lowered.grammar.arena
      t.name x = some s) r.body symbols) :
    ∃ c, t.construction r = .ok c ∧ ⟨symbols, c, r.prec⟩ ∈ lowered.grammar.productionsOf i ∧
      ∀ nt p, Naming.production? ⟨[], declared⟩ lowered.grammar.arena t r = some (nt, p) →
        nt = i ∧ p = ⟨symbols, c, r.prec⟩ := by
  have honly : ∀ nt p, Naming.production? ⟨[], declared⟩ lowered.grammar.arena t r = some (nt, p) →
      nt = i ∧ p.symbols = symbols ∧ t.construction r = .ok p.construction ∧ p.prec = r.prec := by
    intro nt p hp
    obtain ⟨hhead', hsymbols', hc, hprec⟩ := Naming.production?_eq_some_iff.1 hp
    refine ⟨Option.some.inj (hhead'.symm.trans hhead), ?_, hc, hprec⟩
    have heq := (mapM_eq_some_iff.2 hsymbols').symm.trans (mapM_eq_some_iff.2 hsymbols)
    exact Option.some.inj heq
  obtain ⟨⟨nt, p⟩, hp⟩ := hmakes.produces t ht r hr
  obtain ⟨rfl, hs, hc, hprec⟩ := honly nt p hp
  have hp' : p = ⟨symbols, p.construction, r.prec⟩ := by
    rw [← hs, ← hprec]
  refine ⟨p.construction, hc, ?_, fun nt' q hq => ?_⟩
  · rw [← hp']
    exact (hmakes.mem_productionsOf_iff nt p).2 ⟨t, ht, r, hr, hp⟩
  · rw [hp] at hq
    obtain ⟨rfl, rfl⟩ := Prod.mk.inj (Option.some.inj hq)
    exact ⟨rfl, hp'⟩

/-! ### The mixture of a language -/

variable {type : String → Nat} {terminal : Terminal → Nat}

omit hmakes in
theorem Numbers.type_injOn (hn : l.Numbers ⟨[], declared⟩ lowered.grammar.arena type terminal)
    {s t : String} (hs : s ∈ l.names) (ht : t ∈ l.names) (heq : type s = type t) : s = t := by
  have hname := Naming.name_of_typeNumber? (hn.type s hs)
  rw [heq, Naming.name_of_typeNumber? (hn.type t ht)] at hname
  exact (Option.some.inj hname).symm

omit hmakes in
theorem Numbers.terminal_injOn
    (hn : l.Numbers ⟨[], declared⟩ lowered.grammar.arena type terminal) {s t : Terminal}
    (hs : s ∈ l.terminals) (ht : t ∈ l.terminals) (heq : terminal s = terminal t) : s = t := by
  have hfound := hn.terminal s hs
  rw [heq] at hfound
  obtain ⟨hlt, hkey, -⟩ := List.findIdx?_eq_some_iff_getElem.1 hfound
  obtain ⟨hlt', hkey', -⟩ := List.findIdx?_eq_some_iff_getElem.1 (hn.terminal t ht)
  -- Both have the key of the terminal with this number.
  refine eq_of_sameKey hs ht ?_
  revert hkey hkey'
  generalize lowered.grammar.arena.terminals[terminal t] = u
  cases s <;> cases t <;> cases u <;> simp_all [Terminal.sameKey]

omit hmakes in
theorem Numbers.element_type (hn : l.Numbers ⟨[], declared⟩ lowered.grammar.arena type terminal)
    (owner : String) {name : String} (hname : name ∈ l.names) :
    Naming.elementSymbol? ⟨[], declared⟩ lowered.grammar.arena owner (.sym (.node name)) =
      some (.nonTerminal (type name)) := by
  rw [Naming.elementSymbol?, Naming.symbol?, hn.type name hname]
  rfl

omit hmakes in
theorem Numbers.element_terminal
    (hn : l.Numbers ⟨[], declared⟩ lowered.grammar.arena type terminal) (owner : String)
    {t : Terminal} (ht : t ∈ l.terminals) :
    Naming.elementSymbol? ⟨[], declared⟩ lowered.grammar.arena owner (.sym (.terminal t)) =
      some (.terminal (terminal t)) := by
  rw [Naming.elementSymbol?, Naming.symbol?, hn.terminal t ht]
  rfl

/-- The mixture of the language by the numbers of a grammar. -/
def mixture (l : OperatorLanguage) (hn : l.Numbers ⟨[], declared⟩ lowered.grammar.arena type terminal) :
    Mixture where
  base := type l.base
  opening := terminal (.literal l.opening)
  closing := terminal (.literal l.closing)
  parensPrec := l.parensPrec
  number := terminal .number
  numberType := type l.number
  numberPrec := l.numberPrec
  numberReplaces := l.numberReplaces
  operators := l.operators.map (·.toSign type terminal)
  nodup_types := by
    have hmap : (l.names.map type).Nodup :=
      l.nodup_names.map_on fun s hs t ht => hn.type_injOn hs ht
    rw [names, List.map_cons, List.map_cons, List.map_map] at hmap
    rw [List.map_map]
    exact hmap
  nodup_terminals := by
    have hmap : (l.terminals.map terminal).Nodup :=
      l.nodup_terminals.map_on fun s hs t ht => hn.terminal_injOn hs ht
    rw [terminals, List.map_cons, List.map_cons, List.map_cons, List.map_map] at hmap
    rw [List.map_map]
    exact hmap
  groups := by
    intro _ hmem
    obtain ⟨o, ho, rfl⟩ := List.mem_map.1 hmem
    exact l.groups o ho

/-! ### The productions of each rule -/

theorem Numbers.parens (hn : l.Numbers ⟨[], declared⟩ lowered.grammar.arena type terminal)
    (h : l.Declares declared) :
    ∃ c, ⟨[.terminal (terminal (.literal l.opening)), .nonTerminal (type l.base),
        .terminal (terminal (.literal l.closing))], c, l.parensPrec⟩ ∈
          lowered.grammar.productionsOf (type l.base) ∧
      ∀ r ∈ l.baseType.rules, ∀ nt p,
        Naming.production? ⟨[], declared⟩ lowered.grammar.arena l.baseType r = some (nt, p) →
          (l.mixture hn).Form nt p := by
  obtain ⟨c, -, hmem, honly⟩ := production_of_rule hmakes (h.mem_iff.2 (Or.inl rfl))
    List.mem_cons_self (hn.type _ base_mem_names)
    (.cons (hn.element_terminal l.base opening_mem_terminals)
      (.cons (hn.element_type l.base base_mem_names)
        (.cons (hn.element_terminal l.base closing_mem_terminals) .nil)))
  refine ⟨c, hmem, fun r hr nt p hp => ?_⟩
  obtain rfl := List.mem_singleton.1 hr
  obtain ⟨rfl, rfl⟩ := honly nt p hp
  exact .parens c

theorem Numbers.numbers (hn : l.Numbers ⟨[], declared⟩ lowered.grammar.arena type terminal)
    (h : l.Declares declared) :
    (∃ c, ⟨[.terminal (terminal .number)], c, l.numberPrec⟩ ∈
        lowered.grammar.productionsOf (type l.number)) ∧
      ⟨[.nonTerminal (type l.number)], .child 0, l.numberReplaces⟩ ∈
        lowered.grammar.productionsOf (type l.base) ∧
      ∀ r ∈ l.numberType.rules, ∀ nt p,
        Naming.production? ⟨[], declared⟩ lowered.grammar.arena l.numberType r = some (nt, p) →
          (l.mixture hn).Form nt p := by
  have ht := h.mem_iff.2 (Or.inr (Or.inl rfl))
  obtain ⟨c, -, hmem, honly⟩ := production_of_rule hmakes ht List.mem_cons_self
    (hn.type _ number_mem_names) (.cons (hn.element_terminal l.number number_mem_terminals) .nil)
  obtain ⟨c', hc', hmem', honly'⟩ := production_of_rule hmakes ht
    (List.mem_cons_of_mem _ List.mem_cons_self) (hn.type _ base_mem_names)
    (.cons (hn.element_type l.number number_mem_names) .nil)
  obtain rfl : Construction.child 0 = c' := Except.ok.inj hc'
  refine ⟨⟨c, hmem⟩, hmem', fun r hr nt p hp => ?_⟩
  rcases List.mem_pair.1 hr with rfl | rfl
  · obtain ⟨rfl, rfl⟩ := honly nt p hp
    exact .number c
  · obtain ⟨rfl, rfl⟩ := honly' nt p hp
    exact .numberUnit

theorem Numbers.operator (hn : l.Numbers ⟨[], declared⟩ lowered.grammar.arena type terminal)
    (h : l.Declares declared) {o : MixedOperator} (ho : o ∈ l.operators) :
    (∃ c, ⟨(o.toSign type terminal).symbols (type l.base), c, o.prec⟩ ∈
        lowered.grammar.productionsOf (type o.name)) ∧
      ⟨[.nonTerminal (type o.name)], .child 0, o.replaces⟩ ∈
        lowered.grammar.productionsOf (type l.base) ∧
      ∀ r ∈ (o.nodeType l.base).rules, ∀ nt p,
        Naming.production? ⟨[], declared⟩ lowered.grammar.arena (o.nodeType l.base) r =
            some (nt, p) →
          (l.mixture hn).Form nt p := by
  have ht := h.mem_iff.2 (Or.inr (Or.inr ⟨o, ho, rfl⟩))
  have hsign : o.toSign type terminal ∈ (l.mixture hn).operators := List.mem_map_of_mem ho
  have hbase := hn.element_type o.name base_mem_names
  have hliteral := hn.element_terminal o.name (sign_mem_terminals ho)
  -- The body of the operator, as declared and as lowered, for each place where an operator may stand.
  have hbody : Forall₂ (fun x s => Naming.elementSymbol? ⟨[], declared⟩ lowered.grammar.arena
      o.name x = some s) ((o.body l.base).map .sym)
      ((o.toSign type terminal).symbols (type l.base)) := by
    cases hfixity : o.fixity with
    | between =>
        simp only [MixedOperator.body, Sign.symbols, MixedOperator.toSign, hfixity]
        exact .cons hbase (.cons hliteral (.cons hbase .nil))
    | before =>
        simp only [MixedOperator.body, Sign.symbols, MixedOperator.toSign, hfixity]
        exact .cons hliteral (.cons hbase .nil)
    | after =>
        simp only [MixedOperator.body, Sign.symbols, MixedOperator.toSign, hfixity]
        exact .cons hbase (.cons hliteral .nil)
  obtain ⟨c, -, hmem, honly⟩ := production_of_rule hmakes ht List.mem_cons_self
    (hn.type _ (name_mem_names ho)) hbody
  obtain ⟨c', hc', hmem', honly'⟩ := production_of_rule hmakes ht
    (List.mem_cons_of_mem _ List.mem_cons_self) (hn.type _ base_mem_names)
    (.cons (hn.element_type o.name (name_mem_names ho)) .nil)
  obtain rfl : Construction.child 0 = c' := Except.ok.inj hc'
  refine ⟨⟨c, hmem⟩, hmem', fun r hr nt p hp => ?_⟩
  rcases List.mem_pair.1 hr with rfl | rfl
  · obtain ⟨rfl, rfl⟩ := honly nt p hp
    exact .operator _ hsign c
  · obtain ⟨rfl, rfl⟩ := honly' nt p hp
    exact .operatorUnit _ hsign

omit hmakes in
theorem Declares.uniqueStart_eq (h : l.Declares declared) : uniqueStart declared = .ok l.base := by
  have hoperators : (l.operators.map (·.nodeType l.base)).filter NodeType.isStart = [] := by
    rw [List.filter_eq_nil_iff]
    intro t ht
    obtain ⟨o, -, rfl⟩ := List.mem_map.1 ht
    exact Bool.false_ne_true
  have htypes : l.types.filter NodeType.isStart = [l.baseType] := by
    rw [types, List.filter_cons_of_pos rfl, List.filter_cons_of_neg Bool.false_ne_true, hoperators]
  have hdeclared : declared.filter NodeType.isStart = [l.baseType] := by
    rw [← List.perm_singleton, ← htypes]
    exact List.Perm.filter _ h
  rw [uniqueStart, hdeclared]
  rfl

/-- The grammar of the language is that of its mixture. -/
theorem Numbers.describes (hn : l.Numbers ⟨[], declared⟩ lowered.grammar.arena type terminal)
    (h : l.Declares declared) : (l.mixture hn).Describes lowered.grammar := by
  obtain ⟨c, hparens, hparensForm⟩ := hn.parens hmakes h
  obtain ⟨hnumber, hnumberUnit, hnumberForm⟩ := hn.numbers hmakes h
  have hbase := hn.type l.base base_mem_names
  refine ⟨?_, ?_, ⟨_, Grammar.staged_of_lowered hmakes h.built⟩, ?_, ⟨c, hparens⟩, hnumber,
    hnumberUnit, ?_, ?_⟩
  · have hstart : lowered.start = l.base :=
      Except.ok.inj (hmakes.uniqueStart.symm.trans h.uniqueStart_eq)
    rw [Naming.typeNumber?_of_upgrades_nil, List.findIdx?_eq_some_iff_findIdx_eq] at hbase
    rw [hmakes.start, hstart]
    exact hbase.2
  · exact Nat.lt_of_lt_of_le (Naming.typeNumber?_lt hbase) hmakes.length_types_le
  · intro nt p hp
    obtain ⟨t, ht, r, hr, hp⟩ := (hmakes.mem_productionsOf_iff nt p).1 hp
    rcases h.mem_iff.1 ht with rfl | rfl | ⟨o, ho, rfl⟩
    · exact hparensForm r hr nt p hp
    · exact hnumberForm r hr nt p hp
    · exact (hn.operator hmakes h ho).2.2 r hr nt p hp
  · intro _ hmem
    obtain ⟨o, ho, rfl⟩ := List.mem_map.1 hmem
    exact (hn.operator hmakes h ho).1
  · intro _ hmem
    obtain ⟨o, ho, rfl⟩ := List.mem_map.1 hmem
    exact (hn.operator hmakes h ho).2.1

end Lowering

end OperatorLanguage

end SmallLang
