import SmallLang.Proofs.Assembly.WellDeclared
import SmallLang.Proofs.Extension.Lowering
import SmallLang.Proofs.Inlining.Added
import SmallLang.Proofs.Mixed.Lowering
import SmallLang.Proofs.Renumbering.Exchange
import SmallLang.Proofs.Renumbering.Naming

/-!
# Lowering one more operator

The type of an infix operator whose name and literal are new is lowered after all others. Its literal comes
after the terminals of these, its non-terminal after their types and before the rests of lists. So the
declarations with the operator give the grammar with the operator, but for the rests of lists, which move
up by one (`exists_renumbers_addInfix`).
-/

set_option autoImplicit false

namespace SmallLang

open Equiv (Perm)
open List (Forall₂)

/-! ## Settling one more type -/

namespace Upgrades

variable {declared settled : List NodeType} {u : Upgrades} {t : NodeType}

theorem ofTypes_append_of_upgraded_nil (hu : ofTypes declared = .ok u) (ht : t.upgraded = []) :
    ofTypes (declared ++ [t]) = .ok u := by
  rw [ofTypes, List.foldlM_append]
  refine Except.bind_eq_ok_iff.2 ⟨u, hu, ?_⟩
  rw [List.foldlM_cons, ht]
  rfl

/-- A type of a new name is settled as it is, after all others. -/
theorem settle_append_of_new (hu : ofTypes declared = .ok u) (hsettle : u.settle declared = .ok settled)
    (hname : ∀ s ∈ declared, s.name ≠ t.name) (hupgraded : ∀ s ∈ declared, t.name ∉ s.upgraded) :
    u.settle (declared ++ [t]) = .ok (settled ++ [t]) := by
  have hlookup : u.lookup t.name = none := by
    rw [lookup_ofTypes hu, firstUpgrade?, List.find?_eq_none]
    intro s hs
    simpa using hupgraded s hs
  have hnew : settled.find? (·.name == t.name) = none := by
    rw [List.find?_eq_none]
    intro s hs
    simpa using hname s (mem_of_settle hu hsettle s hs)
  rw [settle, List.foldlM_append]
  refine Except.bind_eq_ok_iff.2 ⟨settled, hsettle, ?_⟩
  rw [List.foldlM_cons]
  refine Except.bind_eq_ok_iff.2 ⟨settled ++ [t], ?_, rfl⟩
  refine Except.bind_eq_ok_iff.2 ⟨t, resolve_eq_ok_iff.2 (final?_of_lookup_eq_none hlookup), ?_⟩
  rw [admitType, hnew]

end Upgrades

theorem uniqueStart_append {types : List NodeType} {t : NodeType} (ht : t.isStart = false) :
    uniqueStart (types ++ [t]) = uniqueStart types := by
  have hfilter : (types ++ [t]).filter NodeType.isStart = types.filter NodeType.isStart := by
    rw [List.filter_append, List.filter_cons_of_neg (by simp [ht]), List.filter_nil, List.append_nil]
  rw [uniqueStart, uniqueStart, hfilter]

/-! ## The operator's type -/

namespace MixedOperator

/-- What the operator adds to a grammar. -/
def added (o : MixedOperator) : AddedInfix :=
  ⟨o.name, .literal o.sign, .node o.name [⟨o.left, 0, none⟩, ⟨o.right, 2, none⟩], o.prec, o.replaces⟩

/-- An infix operator that some declarations do not have. -/
structure NewTo (o : MixedOperator) (declared : List NodeType) (arena : Arena) : Prop where
  between : o.fixity = .between
  fields : o.left ≠ o.right
  name : ∀ t ∈ declared, t.name ≠ o.name
  upgraded : ∀ t ∈ declared, o.name ∉ t.upgraded
  sign : arena.indexOf? (.literal o.sign) = none

instance (o : MixedOperator) (declared : List NodeType) (arena : Arena) :
    Decidable (o.NewTo declared arena) :=
  decidable_of_iff
    (o.fixity = .between ∧ o.left ≠ o.right ∧ (∀ t ∈ declared, t.name ≠ o.name) ∧
      (∀ t ∈ declared, o.name ∉ t.upgraded) ∧ arena.indexOf? (.literal o.sign) = none)
    ⟨fun ⟨hbetween, hfields, hname, hupgraded, hsign⟩ => ⟨hbetween, hfields, hname, hupgraded, hsign⟩,
      fun h => ⟨h.between, h.fields, h.name, h.upgraded, h.sign⟩⟩

/-- The rule that builds nodes of the operator's type. -/
def buildingRule (o : MixedOperator) (base : String) : Rule :=
  ⟨.this, (o.body base).map .sym, .construct, o.prec⟩

/-- The rule by which the operator's type replaces the base type. -/
def replacingRule (o : MixedOperator) (base : String) : Rule :=
  ⟨.type base, [.sym .this], .handOn, o.replaces⟩

theorem rules_nodeType (o : MixedOperator) (base : String) :
    (o.nodeType base).rules = [o.buildingRule base, o.replacingRule base] := rfl

theorem body_eq_of_between {o : MixedOperator} (h : o.fixity = .between) (base : String) :
    o.body base =
      [.field o.left (.node base) none, .terminal (.literal o.sign), .field o.right (.node base) none] := by
  rw [body, h]
  rfl

theorem built_nodeType (o : MixedOperator) (base : String) : (o.nodeType base).Built :=
  ((NodeType.Built.named _).generates _ _).replaces _ _

namespace NewTo

variable {o : MixedOperator} {declared : List NodeType} {arena : Arena} (h : o.NewTo declared arena)
include h

theorem fields_nodeType (base : String) :
    (o.nodeType base).fields = [⟨o.left, none⟩, ⟨o.right, none⟩] := by
  show (o.buildingRule base).fields = _
  rw [buildingRule, body_eq_of_between h.between]
  rfl

theorem checkFields (base : String) : (o.nodeType base).checkFields = .ok () := by
  have hnames : (o.buildingRule base).fieldNames = [o.left, o.right] := by
    rw [buildingRule, body_eq_of_between h.between]
    rfl
  have hbuilding : (o.nodeType base).buildingRules = [o.buildingRule base] := rfl
  refine NodeType.FieldsAgree.checkFields_eq_ok ⟨?_, ?_, fun name hname => absurd hname List.not_mem_nil⟩
  · rw [hbuilding]
    intro r hr
    obtain rfl := List.mem_singleton.1 hr
    rw [hnames]
    simpa using h.fields
  · rw [hbuilding]
    intro r hr r' hr' name
    rw [List.mem_singleton.1 hr, List.mem_singleton.1 hr']

theorem construction_buildingRule (base : String) :
    (o.nodeType base).construction (o.buildingRule base) = .ok o.added.construction := by
  have hleft : (o.buildingRule base).fieldPlace o.left = 0 := by
    rw [buildingRule, body_eq_of_between h.between]
    simp [Rule.fieldPlace, Element.field?, List.findIdx_cons]
  have hright : (o.buildingRule base).fieldPlace o.right = 2 := by
    rw [buildingRule, body_eq_of_between h.between]
    simp [Rule.fieldPlace, Element.field?, List.findIdx_cons, beq_eq_false_iff_ne.2 h.fields]
  show Except.ok (Construction.node o.name ((o.nodeType base).fields.map fun f =>
    ⟨f.name, (o.buildingRule base).fieldPlace f.name, f.default⟩)) = _
  rw [h.fields_nodeType, List.map_cons, List.map_cons, List.map_nil, hleft, hright]
  rfl

end NewTo

end MixedOperator

/-! ## Numbers -/

namespace Naming

variable (u : Upgrades) (types : List NodeType) {t : NodeType}

theorem listTypes_append (ht : ∀ r ∈ t.rules, r.usesRest = false) :
    listTypes ⟨u, types ++ [t]⟩ = listTypes ⟨u, types⟩ := by
  have hnone : t.rules.any Rule.usesRest = false := by
    rw [List.any_eq_false]
    exact fun r hr => by rw [ht r hr]; exact Bool.false_ne_true
  simp only [listTypes, List.filter_append, List.filter_cons, List.filter_nil, hnone]
  simp

/-- The rests of lists move up when a type without one is added. -/
theorem carries_append (ht : ∀ r ∈ t.rules, r.usesRest = false) :
    Carries (exchange types.length (listTypes ⟨u, types⟩).length 1) ⟨u, types⟩ ⟨u, types ++ [t]⟩ := by
  refine ⟨fun name i hi => ?_, fun owner howner => ?_⟩
  · have hlt : i < types.length := typeNumber?_lt hi
    obtain ⟨final, hfinal, hfind⟩ := Option.bind_eq_some_iff.1 hi
    rw [exchange_of_lt hlt]
    refine Option.bind_eq_some_iff.2 ⟨final, hfinal, ?_⟩
    show List.findIdx? _ (types ++ [t]) = _
    rw [List.findIdx?_append, hfind]
    rfl
  · have hlt : (listTypes ⟨u, types⟩).findIdx (· == owner) < (listTypes ⟨u, types⟩).length :=
      List.findIdx_lt_length_of_exists ⟨owner, howner, beq_self_eq_true _⟩
    rw [restNumber, restNumber, listTypes_append u types ht, exchange_add_of_lt hlt, List.length_append]
    rfl

section Makes

variable {u types} {declared : List NodeType} {lowered lowered' : Lowered} {o : MixedOperator} {base : NodeType}
  {e : Nat} (hmakes : Makes ⟨u, types⟩ declared lowered) (hlower : lower declared = .ok lowered)
  (hnew : o.NewTo declared lowered.grammar.arena) (hbase : types[e]? = some base)
include hmakes hbase

theorem typeNumber?_base : typeNumber? ⟨u, types⟩ base.name = some e :=
  (hmakes.typeNumber?_eq_iff hbase).2 (hmakes.finalName?_self (List.mem_of_getElem? hbase))

theorem typeNumber?_base_append (t : NodeType) : typeNumber? ⟨u, types ++ [t]⟩ base.name = some e := by
  obtain ⟨final, hfinal, hfind⟩ := Option.bind_eq_some_iff.1 (typeNumber?_base hmakes hbase)
  refine Option.bind_eq_some_iff.2 ⟨final, hfinal, ?_⟩
  show List.findIdx? _ (types ++ [t]) = _
  rw [List.findIdx?_append, show List.findIdx? _ types = _ from hfind]
  rfl

include hnew

omit hbase in
/-- The operator's type gets the first number after the types. -/
theorem typeNumber?_operator (base : String) :
    typeNumber? ⟨u, types ++ [o.nodeType base]⟩ o.name = some types.length := by
  have hlookup : u.lookup o.name = none := by
    rw [Upgrades.lookup_ofTypes hmakes.ofTypes, Upgrades.firstUpgrade?, List.find?_eq_none]
    intro s hs
    simpa using hnew.upgraded s hs
  have hfinal : Upgrades.finalName? u o.name = some o.name := by
    rw [Upgrades.finalName?, hlookup]
  have hnone : types.findIdx? (·.name == o.name) = none := by
    rw [List.findIdx?_eq_none_iff]
    intro s hs
    have hmem := Upgrades.mem_of_settle hmakes.ofTypes hmakes.settle s hs
    simpa using hnew.name s hmem
  rw [typeNumber?, hfinal, Option.bind_some]
  show List.findIdx? _ (types ++ [o.nodeType base]) = _
  rw [List.findIdx?_append, hnone]
  simp [MixedOperator.nodeType, NodeType.replaces, NodeType.generates, NodeType.addRules, NodeType.named]

variable {arena' : Arena} (hsign : arena'.indexOf? (.literal o.sign) = some lowered.grammar.arena.size)

include hsign in
theorem production?_buildingRule :
    production? ⟨u, types ++ [o.nodeType base.name]⟩ arena' (o.nodeType base.name)
        (o.buildingRule base.name) =
      some (types.length, lowered.grammar.infixProduction e o.added) := by
  refine production?_eq_some_iff.2 ⟨typeNumber?_operator hmakes hnew base.name, ?_,
    hnew.construction_buildingRule base.name, rfl⟩
  have hoperand : elementSymbol? ⟨u, types ++ [o.nodeType base.name]⟩ arena' o.name
      (.sym (.node base.name)) = some (.nonTerminal e) := by
    rw [elementSymbol?, symbol?, typeNumber?_base_append hmakes hbase]
    rfl
  have hliteral : elementSymbol? ⟨u, types ++ [o.nodeType base.name]⟩ arena' o.name
      (.sym (.terminal (.literal o.sign))) = some (.terminal lowered.grammar.arena.size) := by
    rw [elementSymbol?, symbol?, hsign]
    rfl
  rw [MixedOperator.buildingRule, MixedOperator.body_eq_of_between hnew.between]
  exact .cons hoperand (.cons hliteral (.cons hoperand .nil))

omit hsign in
theorem production?_replacingRule :
    production? ⟨u, types ++ [o.nodeType base.name]⟩ arena' (o.nodeType base.name)
        (o.replacingRule base.name) =
      some (e, ⟨[.nonTerminal types.length], .child 0, o.replaces⟩) := by
  refine production?_eq_some_iff.2 ⟨typeNumber?_base_append hmakes hbase _, ?_, rfl, rfl⟩
  refine .cons ?_ .nil
  show (typeNumber? ⟨u, types ++ [o.nodeType base.name]⟩ o.name).map Symbol.nonTerminal = _
  rw [typeNumber?_operator hmakes hnew]
  rfl

omit hsign in
theorem lowers_operator {pool : Terminal → Prop} (hpool : pool (.literal o.sign)) :
    ∀ r ∈ (o.nodeType base.name).rules,
      Lowers ⟨u, types ++ [o.nodeType base.name]⟩ pool (o.nodeType base.name) r := by
  intro r hr
  rw [MixedOperator.rules_nodeType] at hr
  rcases List.mem_pair.1 hr with rfl | rfl
  · refine ⟨⟨_, typeNumber?_operator hmakes hnew base.name⟩, fun s hs => ?_,
      ⟨_, hnew.construction_buildingRule base.name⟩⟩
    rw [MixedOperator.buildingRule, MixedOperator.body_eq_of_between hnew.between] at hs
    simp only [List.map_cons, List.map_nil, List.mem_cons, Element.sym.injEq, List.not_mem_nil,
      or_false] at hs
    rcases hs with rfl | rfl | rfl
    · exact ⟨e, typeNumber?_base_append hmakes hbase _⟩
    · exact hpool
    · exact ⟨e, typeNumber?_base_append hmakes hbase _⟩
  · refine ⟨⟨_, typeNumber?_base_append hmakes hbase _⟩, fun s hs => ?_, ⟨_, rfl⟩⟩
    obtain rfl := Element.sym.inj (List.mem_singleton.1 hs)
    exact ⟨_, typeNumber?_operator hmakes hnew base.name⟩

end Makes

end Naming

/-! ## The declarations with the operator -/

section Declarations

variable {declared : List NodeType} {lowered : Lowered} {o : MixedOperator} {base : NodeType} {e : Nat}

/-- A new literal has a key of its own. -/
theorem MixedOperator.NewTo.consistent {arena : Arena} (hnew : o.NewTo declared arena)
    (hkeyed : arena.Keyed) :
    Arena.Consistent fun t => t ∈ arena.terminals ∨ t = .literal o.sign := by
  have hother : ∀ t ∈ arena.terminals, (Terminal.literal o.sign).sameKey t = false := fun t ht =>
    List.findIdx?_eq_none_iff.1 hnew.sign t ht
  rintro s t (hs | rfl) (ht | rfl) hkey
  · exact hkeyed.consistent s t hs ht hkey
  · rw [Terminal.sameKey_comm, hother s hs] at hkey
    exact absurd hkey Bool.false_ne_true
  · rw [hother t ht] at hkey
    exact absurd hkey Bool.false_ne_true
  · rfl

theorem usesRest_nodeType (o : MixedOperator) (base : String) :
    ∀ r ∈ (o.nodeType base).rules, r.usesRest = false := by
  intro r hr
  rw [MixedOperator.rules_nodeType] at hr
  rcases List.mem_pair.1 hr with rfl | rfl
  · simp [Rule.usesRest, MixedOperator.buildingRule]
  · simp [Rule.usesRest, MixedOperator.replacingRule]

section Makes

variable (hlower : lower declared = .ok lowered) (hnew : o.NewTo declared lowered.grammar.arena)
  (hbase : lowered.types[e]? = some base) {u : Upgrades}
  (hmakes : Naming.Makes ⟨u, lowered.types⟩ declared lowered)
include hlower hnew hbase hmakes

/-- Everything that is asked for is found among the old terminals and the literal. -/
theorem exists_lowerAll_addInfix :
    ∃ productions arena, (Naming.mk u (lowered.types ++ [o.nodeType base.name])).lowerAll.run Arena.empty =
        .ok (productions, arena) ∧
      arena.Among fun t => t ∈ lowered.grammar.arena.terminals ∨ t = .literal o.sign := by
  obtain ⟨productions, hrun⟩ := hmakes.exists_run hlower
  obtain ⟨hkeyed, hlowers⟩ := Naming.lowers_of_lowerAll hrun
  have hcarries := Naming.carries_append u lowered.types (usesRest_nodeType o base.name)
  refine Naming.lowerAll_succeeds (hnew.consistent hkeyed) (fun t ht => ?_) fun t ht r hr => ?_
  · rcases List.mem_append.1 ht with ht | ht
    · exact hmakes.checkFields t ht
    · rw [List.mem_singleton.1 ht]
      exact hnew.checkFields base.name
  · rcases List.mem_append.1 ht with ht | ht
    · exact hcarries.lowers (fun _ => Or.inl) (hlowers t ht r hr)
    · obtain rfl := List.mem_singleton.1 ht
      exact Naming.lowers_operator hmakes hnew hbase (Or.inr rfl) r hr

omit hbase in
/-- The literal comes after all old terminals, and nothing else does. -/
theorem arena_eq_of_lowerAll {productions : List (Nat × Production)} {arena : Arena}
    (hrun : (Naming.mk u (lowered.types ++ [o.nodeType base.name])).lowerAll.run Arena.empty =
      .ok (productions, arena))
    (hamong : arena.Among fun t => t ∈ lowered.grammar.arena.terminals ∨ t = .literal o.sign) :
    arena = ⟨lowered.grammar.arena.terminals ++ [.literal o.sign]⟩ := by
  obtain ⟨first, hfirst⟩ := hmakes.exists_run hlower
  have htypes : (Naming.mk u (lowered.types ++ [o.nodeType base.name])).types =
      (Naming.mk u lowered.types).types ++ [o.nodeType base.name] := rfl
  obtain ⟨suffix, hsuffix⟩ := Naming.extends_of_lowerAll htypes hfirst hrun
  -- What the run adds to the old terminals is in the pool, and nothing is added twice.
  have hnodup := hamong.nodup
  rw [← hsuffix, List.nodup_append] at hnodup
  have hold : .literal o.sign ∉ lowered.grammar.arena.terminals := by
    intro hmem
    have hother := List.findIdx?_eq_none_iff.1 hnew.sign _ hmem
    rw [Arena.sameKey_self] at hother
    exact Bool.noConfusion hother
  have hused : .literal o.sign ∈ arena.terminals := by
    have hrule := (Naming.lowers_of_lowerAll hrun).2 _
      (List.mem_append_right _ List.mem_cons_self) _ List.mem_cons_self
    refine hrule.body (.terminal (.literal o.sign)) ?_
    rw [MixedOperator.body_eq_of_between hnew.between]
    simp
  have honly : suffix = [.literal o.sign] := by
    refine eq_singleton_of_mem_iff hnodup.2.1 fun t => ⟨fun ht => ?_, ?_⟩
    · refine (hamong.mem t (hsuffix ▸ List.mem_append_right _ ht)).resolve_left fun hin => ?_
      exact hnodup.2.2 t hin t ht rfl
    · rintro rfl
      rw [← hsuffix] at hused
      exact (List.mem_append.1 hused).resolve_left hold
  rw [honly] at hsuffix
  exact congrArg Arena.mk hsuffix.symm

/-- Lowering succeeds with the operator, whose literal comes after all other terminals. -/
theorem exists_lower_addInfix :
    ∃ lowered', lower (declared ++ [o.nodeType base.name]) = .ok lowered' ∧
      Naming.Makes ⟨u, lowered.types ++ [o.nodeType base.name]⟩ (declared ++ [o.nodeType base.name])
        lowered' ∧
      lowered'.start = lowered.start ∧
      lowered'.grammar.arena = ⟨lowered.grammar.arena.terminals ++ [.literal o.sign]⟩ := by
  have hu' := Upgrades.ofTypes_append_of_upgraded_nil (t := o.nodeType base.name) hmakes.ofTypes rfl
  have hsettle' := Upgrades.settle_append_of_new (t := o.nodeType base.name) hmakes.ofTypes
    hmakes.settle hnew.name hnew.upgraded
  have hstart' : uniqueStart (lowered.types ++ [o.nodeType base.name]) = .ok lowered.start := by
    rw [uniqueStart_append rfl]
    exact hmakes.uniqueStart
  obtain ⟨productions', arena', hrun', hamong⟩ := exists_lowerAll_addInfix hlower hnew hbase hmakes
  have hlower' : lower (declared ++ [o.nodeType base.name]) = .ok ⟨⟨Naming.nonTerminals
      ⟨u, lowered.types ++ [o.nodeType base.name]⟩ productions', arena',
        (lowered.types ++ [o.nodeType base.name]).findIdx (·.name == lowered.start)⟩,
      lowered.types ++ [o.nodeType base.name], lowered.start⟩ :=
    Except.bind_eq_ok_iff.2 ⟨u, hu', Except.bind_eq_ok_iff.2 ⟨_, hsettle', Except.bind_eq_ok_iff.2
      ⟨lowered.start, hstart', Except.bind_eq_ok_iff.2 ⟨(productions', arena'), hrun', rfl⟩⟩⟩⟩
  obtain ⟨⟨u', types'⟩, hmakes'⟩ := lower_eq_ok hlower'
  obtain rfl : u = u' := Except.ok.inj (hu'.symm.trans hmakes'.ofTypes)
  obtain rfl : lowered.types ++ [o.nodeType base.name] = types' := hmakes'.types
  exact ⟨_, hlower', hmakes', rfl, arena_eq_of_lowerAll hlower hnew hmakes hrun' hamong⟩

/-- The productions of the types keep their order, and those of the operator's type come after them. -/
theorem ruleProductions_addInfix {arena' : Arena}
    (harena : arena' = ⟨lowered.grammar.arena.terminals ++ [.literal o.sign]⟩) :
    Naming.ruleProductions ⟨u, lowered.types ++ [o.nodeType base.name]⟩ arena' =
      (Naming.ruleProductions ⟨u, lowered.types⟩ lowered.grammar.arena ++
        [(lowered.grammar.size, lowered.grammar.infixProduction e o.added),
          (e, lowered.grammar.infixUnit o.added)]).map fun x =>
        (exchange lowered.types.length (Naming.listTypes ⟨u, lowered.types⟩).length 1 x.1,
          Renumbering.production (.exchange lowered.types.length
            (Naming.listTypes ⟨u, lowered.types⟩).length 1) x.2) := by
  obtain ⟨productions, hrun⟩ := hmakes.exists_run hlower
  have hcarries := Naming.carries_append u lowered.types (usesRest_nodeType o base.name)
  have hextends : lowered.grammar.arena.Extends arena' := harena ▸ List.prefix_append _ _
  have hold := hcarries.ruleProductions (τ := Equiv.refl Nat)
    (fun t _ i hi => Arena.Extends.indexOf? hextends hi) hrun
  have hsign : arena'.indexOf? (.literal o.sign) = some lowered.grammar.arena.size := by
    have hintern : lowered.grammar.arena.intern (.literal o.sign) =
        .ok (lowered.grammar.arena.size, arena') := by
      rw [Arena.intern, hnew.sign, harena]
    exact (Arena.intern_eq_ok hintern).2
  have helt : e < lowered.types.length := (List.getElem?_eq_some_iff.1 hbase).1
  have hsize : lowered.grammar.size =
      lowered.types.length + (Naming.listTypes ⟨u, lowered.types⟩).length :=
    hmakes.size.trans (Naming.length_nonTerminalNames _)
  have hbuilding : Naming.production? ⟨u, lowered.types ++ [o.nodeType base.name]⟩ arena' _ _ = _ :=
    Naming.production?_buildingRule hmakes hnew hbase hsign
  have hreplacing : Naming.production? ⟨u, lowered.types ++ [o.nodeType base.name]⟩ arena' _ _ = _ :=
    Naming.production?_replacingRule hmakes hnew hbase
  rw [Naming.ruleProductions, List.flatMap_append, hold, List.map_append, List.flatMap_cons,
    List.flatMap_nil, List.append_nil, MixedOperator.rules_nodeType,
    List.filterMap_cons_some hbuilding, List.filterMap_cons_some hreplacing, List.filterMap_nil]
  simp only [List.map_cons, List.map_nil, Grammar.production_infixProduction_exchange helt,
    Grammar.production_infixUnit_exchange hsize, exchange_of_lt helt, hsize, exchange_one_add]
  rfl

end Makes

/-- **The declarations with the operator are lowered to the grammar with the operator, but for the
numbers of the rests of lists.** -/
theorem exists_renumbers_addInfix (hlower : lower declared = .ok lowered)
    (hnew : o.NewTo declared lowered.grammar.arena) (hbase : lowered.types[e]? = some base) :
    ∃ lowered', lower (declared ++ [o.nodeType base.name]) = .ok lowered' ∧
      lowered'.types = lowered.types ++ [o.nodeType base.name] ∧
      Grammar.Renumbers
        (.exchange lowered.types.length (lowered.grammar.size - lowered.types.length) 1)
        (lowered.grammar.addInfix e o.added) lowered'.grammar := by
  obtain ⟨⟨u, types⟩, hmakes⟩ := lower_eq_ok hlower
  obtain rfl : lowered.types = types := hmakes.types
  obtain ⟨productions, hrun⟩ := hmakes.exists_run hlower
  obtain ⟨lowered', hlower', hmakes', hstart, harena⟩ := exists_lower_addInfix hlower hnew hbase hmakes
  have hcarries := Naming.carries_append u lowered.types (usesRest_nodeType o base.name)
  have hsize : lowered.grammar.size = lowered.types.length + (Naming.listTypes ⟨u, lowered.types⟩).length :=
    hmakes.size.trans (Naming.length_nonTerminalNames _)
  have hlists : lowered.grammar.size - lowered.types.length =
      (Naming.listTypes ⟨u, lowered.types⟩).length := by omega
  have helt : e < lowered.types.length := (List.getElem?_eq_some_iff.1 hbase).1
  rw [hlists]
  refine ⟨lowered', hlower', hmakes'.types, ?_, fun i => ?_, ?_, ?_, fun i => ?_, fun i => ?_⟩
  · rw [hmakes'.size, Naming.length_nonTerminalNames, Naming.listTypes_append u lowered.types (usesRest_nodeType o _),
      Grammar.size_addInfix, hsize]
    simp only [List.length_append, List.length_cons, List.length_nil]
    omega
  · rw [Grammar.size_addInfix, hsize]
    exact exchange_lt_iff
  · have hfound := hcarries.typeNumber? _ _ hmakes.typeNumber?_start
    rw [← hstart, hmakes'.typeNumber?_start] at hfound
    exact Option.some.inj hfound
  · rw [harena, Grammar.arena_size_addInfix]
    simp [Arena.size]
  · rw [harena]
    rfl
  · rw [hmakes'.productionsOf_eq, Grammar.productionsOf_addInfix_eq (Nat.lt_of_lt_of_le helt
      hmakes.length_types_le), hmakes.productionsOf_eq, ← List.map_append, ← List.filter_append,
      ruleProductions_addInfix hlower hnew hbase hmakes harena]
    exact List.Perm.of_eq (filter_number_map _ _ _ i)

end Declarations

end SmallLang
