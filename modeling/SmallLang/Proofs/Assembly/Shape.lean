import SmallLang.Proofs.Assembly.Lowering

/-!
# The shape of lowered productions

A lowered grammar refers to nothing that it does not have (`Naming.Makes.wellFormed`). Types come
from builder methods (`NodeType.Built`), and so the rules of a type have few forms. The productions
made of them have the form that `Production.Declared` lists: the rest of a list has a number after
all types, its productions begin with a divider or are empty, and it is mentioned by lists only.
-/

set_option autoImplicit false

namespace SmallLang

open List (Forall₂)

/-! ## What builder methods make -/

/-- A type as the builder methods make it. -/
inductive NodeType.Built : NodeType → Prop
  | named (name : String) : Built (.named name)
  | generates {t : NodeType} (ht : Built t) (body : List Sym) (prec : Prec) :
      Built (t.generates body prec)
  | replaces {t : NodeType} (ht : Built t) (target : String) (prec : Prec) :
      Built (t.replaces target prec)
  | skip {t : NodeType} (ht : Built t) (body : List Sym) (prec : Prec) : Built (t.skip body prec)
  | upgrades {t : NodeType} (ht : Built t) (source : String) : Built (t.upgrades source)
  | start {t : NodeType} (ht : Built t) : Built t.start
  | makeList {t : NodeType} (ht : Built t) (element : Sym) (divider : String) (allowEmpty : Bool) :
      Built (t.makeList element divider allowEmpty)
  | inherits {t base : NodeType} (ht : Built t) (hbase : Built base) : Built (t.inherits base)
  | refersTo {t : NodeType} (ht : Built t) (field : String) : Built (t.refersTo field)
  | binds {t : NodeType} (ht : Built t) (binders scope : List String) :
      Built (t.binds binders scope)

/-- The forms of the rules that builder methods add. -/
inductive Rule.Built : Rule → Prop
  | construct (body : List Sym) (prec : Prec) : Built ⟨.this, body.map .sym, .construct, prec⟩
  | handOn (target : String) (prec : Prec) : Built ⟨.type target, [.sym .this], .handOn, prec⟩
  | skip (body : List Sym) (prec : Prec) : Built ⟨.this, body.map .sym, .skip, prec⟩
  | emptyList : Built ⟨.this, [], .emptyList, Prec.default⟩
  | listHead (element : Sym) : Built ⟨.this, [.sym element, .rest], .listHead, Prec.default⟩
  | listNext (divider : String) (element : Sym) :
      Built ⟨.rest, [.sym (Sym.literal divider), .sym element, .rest], .listNext, Prec.default⟩
  | listEnd : Built ⟨.rest, [], .emptyList, Prec.default⟩

theorem NodeType.Built.rules {t : NodeType} (h : t.Built) : ∀ r ∈ t.rules, r.Built := by
  induction h with
  | named name => exact fun r hr => absurd hr List.not_mem_nil
  | generates _ body prec ih =>
      exact List.forall_mem_append.2 ⟨ih, List.forall_mem_singleton.2 (.construct body prec)⟩
  | replaces _ target prec ih =>
      exact List.forall_mem_append.2 ⟨ih, List.forall_mem_singleton.2 (.handOn target prec)⟩
  | skip _ body prec ih =>
      exact List.forall_mem_append.2 ⟨ih, List.forall_mem_singleton.2 (.skip body prec)⟩
  | upgrades _ source ih => exact ih
  | start _ ih => exact ih
  | makeList _ element divider allowEmpty ih =>
      refine List.forall_mem_append.2 ⟨ih, List.forall_mem_append.2 ⟨?_, ?_⟩⟩
      · cases allowEmpty with
        | false => exact fun r hr => absurd hr List.not_mem_nil
        | true => exact List.forall_mem_singleton.2 .emptyList
      · intro r hr
        simp only [List.mem_cons, List.not_mem_nil, or_false] at hr
        rcases hr with rfl | rfl | rfl
        · exact .listHead element
        · exact .listNext divider element
        · exact .listEnd
  | inherits _ _ ih ihbase => exact List.forall_mem_append.2 ⟨ih, ihbase⟩
  | refersTo _ field ih => exact ih
  | binds _ binders scope ih => exact ih

/-! ## What becomes of a rule -/

/-- The symbol is a terminal or the non-terminal of one of so many types. -/
def Symbol.OfType (types : Nat) : Symbol → Prop
  | .nonTerminal i => i < types
  | .terminal _ => True

/-- The forms of the productions that rules become, each with the number of its non-terminal. The
types have the first numbers, the rests of lists the others. -/
inductive Production.Declared (types size : Nat) : Nat → Production → Prop
  | node {i : Nat} {symbols : List Symbol} (kind : String) (slots : List Slot) (prec : Prec)
      (hi : i < types) (hs : ∀ s ∈ symbols, s.OfType types) :
      Declared types size i ⟨symbols, .node kind slots, prec⟩
  | child {i : Nat} {symbols : List Symbol} (place : Nat) (prec : Prec)
      (hi : i < types) (hs : ∀ s ∈ symbols, s.OfType types) :
      Declared types size i ⟨symbols, .child place, prec⟩
  | emptyList (i : Nat) (prec : Prec) : Declared types size i ⟨[], .emptyList, prec⟩
  | listHead {i rest : Nat} {element : Symbol} (prec : Prec) (hi : i < types)
      (hs : element.OfType types) (hrest : types ≤ rest) (hlt : rest < size) :
      Declared types size i ⟨[element, .nonTerminal rest], .listHead, prec⟩
  | listNext {i rest : Nat} {element : Symbol} (divider : Nat) (prec : Prec) (hi : types ≤ i)
      (hs : element.OfType types) (hrest : types ≤ rest) (hlt : rest < size) :
      Declared types size i ⟨[.terminal divider, element, .nonTerminal rest], .listNext, prec⟩

namespace Naming

variable {ns : Naming} {arena : Arena} {owner : String}

/-- An element refers to a type, or to a terminal of the arena. -/
theorem symbol?_ofType {s : Sym} {x : Symbol} (h : ns.symbol? arena owner s = some x) :
    x.OfType ns.types.length := by
  induction s with
  | this =>
      obtain ⟨i, hi, rfl⟩ := Option.map_eq_some_iff.1 h
      exact typeNumber?_lt hi
  | node name =>
      obtain ⟨i, hi, rfl⟩ := Option.map_eq_some_iff.1 h
      exact typeNumber?_lt hi
  | terminal t =>
      obtain ⟨i, -, rfl⟩ := Option.map_eq_some_iff.1 h
      exact trivial
  | field name target default ih => exact ih h

theorem symbol?_lt {s : Sym} {i : Nat} (h : ns.symbol? arena owner s = some (.terminal i)) :
    i < arena.size := by
  induction s with
  | this => simp [symbol?] at h
  | node name => simp [symbol?] at h
  | terminal t =>
      obtain ⟨j, hj, heq⟩ := Option.map_eq_some_iff.1 h
      obtain rfl := Symbol.terminal.inj heq
      exact Arena.indexOf?_lt hj
  | field name target default ih => exact ih h

theorem ofType_of_body (body : List Sym) {symbols : List Symbol}
    (h : Forall₂ (fun x s => ns.elementSymbol? arena owner x = some s) (body.map .sym) symbols) :
    ∀ s ∈ symbols, s.OfType ns.types.length := by
  intro s hs
  obtain ⟨x, hx, hsymbol⟩ := exists_of_forall₂_right h hs
  obtain ⟨y, -, rfl⟩ := List.mem_map.1 hx
  exact symbol?_ofType hsymbol

theorem exists_of_symbol?_literal (ns : Naming) (arena : Arena) (owner text : String) {x : Symbol}
    (h : ns.symbol? arena owner (Sym.literal text) = some x) : ∃ i, x = .terminal i := by
  obtain ⟨i, -, rfl⟩ := Option.map_eq_some_iff.1 h
  exact ⟨i, rfl⟩

/-- A rule that a builder method adds becomes a production of one of the listed forms. -/
theorem declared_of_built {t : NodeType} {r : Rule} {i : Nat} {p : Production} (ht : t ∈ ns.types)
    (hr : r ∈ t.rules) (hbuilt : r.Built) (h : ns.production? arena t r = some (i, p)) :
    p.Declared ns.types.length ns.nonTerminalNames.length i := by
  obtain ⟨symbols, construction, prec⟩ := p
  obtain ⟨hhead, hbody, hc, -⟩ := production?_eq_some_iff.1 h
  simp only at hbody hc
  have hrest : .rest ∈ r.body → ns.restNumber t.name < ns.nonTerminalNames.length := fun hmem =>
    restNumber_lt ht hr (by simp [Rule.usesRest, hmem])
  -- By the builder method that added the rule; only those of lists mention the rest.
  cases hbuilt with
  | construct body prec' =>
      obtain rfl := Except.ok.inj hc
      exact .node _ _ _ (typeNumber?_lt hhead) (ofType_of_body body hbody)
  | handOn target prec' =>
      obtain rfl := Except.ok.inj hc
      exact .child _ _ (typeNumber?_lt hhead) (ofType_of_body [.this] hbody)
  | skip body prec' =>
      have hchild : ∃ place, construction = .child place := by
        simp only [NodeType.construction] at hc
        split at hc
        · exact ⟨_, (Except.ok.inj hc).symm⟩
        · exact absurd hc (by simp)
      obtain ⟨place, rfl⟩ := hchild
      exact .child _ _ (typeNumber?_lt hhead) (ofType_of_body body hbody)
  | emptyList =>
      obtain rfl := Except.ok.inj hc
      cases hbody
      exact .emptyList _ _
  | listHead element =>
      obtain rfl := Except.ok.inj hc
      cases hbody with
      | cons hx hbody =>
          cases hbody with
          | cons hsymbol hbody =>
              cases hbody
              obtain rfl := Option.some.inj hsymbol
              exact .listHead _ (typeNumber?_lt hhead) (symbol?_ofType hx)
                (length_types_le_restNumber ns _) (hrest (by simp))
  | listNext divider element =>
      obtain rfl := Except.ok.inj hc
      obtain rfl := Option.some.inj hhead
      cases hbody with
      | cons hdivider hbody =>
          cases hbody with
          | cons hx hbody =>
              cases hbody with
              | cons hsymbol hbody =>
                  cases hbody
                  obtain rfl := Option.some.inj hsymbol
                  obtain ⟨d, rfl⟩ := exists_of_symbol?_literal ns arena t.name divider hdivider
                  exact .listNext _ _ (length_types_le_restNumber ns _) (symbol?_ofType hx)
                    (length_types_le_restNumber ns _) (hrest (by simp))
  | listEnd =>
      obtain rfl := Except.ok.inj hc
      cases hbody
      exact .emptyList _ _

/-- A rule hands on only the type that declares it, and only a rule made for that or a wrapper does. -/
theorem of_unitTarget? {t : NodeType} {r : Rule} {i target : Nat} {p : Production}
    (hbuilt : r.Built) (h : ns.production? arena t r = some (i, p))
    (hunit : p.unitTarget? = some target) :
    ns.typeNumber? t.name = some target ∧ (r.template = .handOn ∨ r.template = .skip) := by
  obtain ⟨symbols, construction, prec⟩ := p
  obtain ⟨hsymbols, hchild⟩ := Production.unitTarget?_eq_some_iff.1 hunit
  obtain ⟨-, hbody, hconstruction, -⟩ := production?_eq_some_iff.1 h
  simp only at hsymbols hchild hbody hconstruction
  subst hsymbols hchild
  -- The body is one element, and it is the type itself.
  suffices hthis : r.body = [.sym .this] ∧ (r.template = .handOn ∨ r.template = .skip) by
    obtain ⟨hthis, htemplate⟩ := hthis
    rw [hthis] at hbody
    cases hbody with
    | cons hsymbol _ =>
        obtain ⟨j, hj, heq⟩ := Option.map_eq_some_iff.1 hsymbol
        obtain rfl := Symbol.nonTerminal.inj heq
        exact ⟨hj, htemplate⟩
  cases hbuilt with
  | construct body prec' => exact absurd hconstruction (by simp [NodeType.construction])
  | handOn name prec' => exact ⟨rfl, Or.inl rfl⟩
  | skip body prec' =>
      cases body with
      | nil => cases hbody
      | cons s rest =>
          cases rest with
          | nil =>
              by_contra hno
              have hne : s ≠ .this := fun heq => hno ⟨by rw [heq]; rfl, Or.inr rfl⟩
              simp [NodeType.construction, Rule.thisPlaces, hne] at hconstruction
          | cons _ _ =>
              cases hbody with
              | cons _ hbody => cases hbody
  | emptyList => exact absurd hconstruction (by simp [NodeType.construction])
  | listHead element => exact absurd hconstruction (by simp [NodeType.construction])
  | listNext divider element => exact absurd hconstruction (by simp [NodeType.construction])
  | listEnd => exact absurd hconstruction (by simp [NodeType.construction])

namespace Makes

variable {declared : List NodeType} {lowered : Lowered}

theorem length_types_le (h : ns.Makes declared lowered) :
    ns.types.length ≤ lowered.grammar.size := by
  rw [h.size, length_nonTerminalNames]
  exact Nat.le_add_right _ _

/-- Every symbol of a lowered production refers to something in the grammar. -/
theorem hasSymbol (h : ns.Makes declared lowered) {i : Nat} {p : Production}
    (hp : p ∈ lowered.grammar.productionsOf i) : ∀ s ∈ p.symbols, lowered.grammar.HasSymbol s := by
  intro s hs
  obtain ⟨t, ht, r, hr, hprod⟩ := (h.mem_productionsOf_iff i p).1 hp
  obtain ⟨x, hx, hsymbol⟩ := exists_of_forall₂_right (production?_eq_some_iff.1 hprod).2.1 hs
  cases x with
  | sym y =>
      have htype := symbol?_ofType hsymbol
      cases s with
      | nonTerminal j => exact Nat.lt_of_lt_of_le htype h.length_types_le
      | terminal j => exact symbol?_lt hsymbol
  | rest =>
      obtain rfl := Option.some.inj hsymbol
      have huses : r.usesRest = true := by simp [Rule.usesRest, hx]
      have hlt := restNumber_lt ht hr huses
      rw [← h.size] at hlt
      exact hlt

/-- The start is the name of a type. -/
theorem exists_start (h : ns.Makes declared lowered) : ∃ t ∈ ns.types, t.name = lowered.start := by
  have hstart := h.uniqueStart
  rw [SmallLang.uniqueStart] at hstart
  split at hstart
  · rename_i t hfilter
    exact ⟨t, (List.mem_filter.1 (hfilter ▸ List.mem_singleton.2 rfl)).1, Except.ok.inj hstart⟩
  · exact absurd hstart (by simp)

theorem start_lt (h : ns.Makes declared lowered) : lowered.grammar.start < ns.types.length := by
  obtain ⟨t, ht, hname⟩ := h.exists_start
  rw [h.start]
  exact List.findIdx_lt_length_of_exists ⟨t, ht, beq_iff_eq.2 hname⟩

/-- The name of the start type has the number of the start. -/
theorem typeNumber?_start (h : ns.Makes declared lowered) :
    ns.typeNumber? lowered.start = some lowered.grammar.start := by
  obtain ⟨t, ht, hname⟩ := h.exists_start
  have hself := h.finalName?_self ht
  rw [hname] at hself
  rw [typeNumber?, hself, h.start]
  exact List.findIdx?_eq_some_of_exists ⟨t, ht, beq_iff_eq.2 hname⟩

/-- A lowered grammar refers to nothing that it does not have. -/
theorem wellFormed (h : ns.Makes declared lowered) : lowered.grammar.WellFormed := by
  refine ⟨Nat.lt_of_lt_of_le h.start_lt h.length_types_le, fun nt hnt p hp => ?_⟩
  obtain ⟨i, hi⟩ := List.mem_iff_getElem?.1 hnt
  refine h.hasSymbol (i := i) ?_
  rw [Grammar.productionsOf, hi]
  exact hp

end Makes

end Naming

end SmallLang
