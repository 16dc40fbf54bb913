import SmallLang.Proofs.FieldTypes
import SmallLang.Proofs.Lists.Grammar
import SmallLang.Proofs.Renumbering.Language

/-!
# Lists mean what they say

A language starts with a list if the rules of its start type are those of a list and nothing else
(`Language.StartsWithList`). If its table decides nothing by priority, it accepts exactly the elements
with dividers between them, and nothing at all where lists may be empty, and the value is the list of
the values of the elements (`Language.parseTokens_list_iff`). Elements are derived from the symbol of
the declared element; one that is a list itself is one item of the value.
-/

set_option autoImplicit false

namespace SmallLang

open List (Forall₂)

/-- The rules of a type that is a list and nothing else. -/
def listRules (element : Sym) (divider : String) (allowEmpty : Bool) : List Rule :=
  ((NodeType.named "").makeList element divider allowEmpty).rules

theorem mem_listRules_iff {element : Sym} {divider : String} {allowEmpty : Bool} {r : Rule} :
    r ∈ listRules element divider allowEmpty ↔
      allowEmpty = true ∧ r = ⟨.this, [], .emptyList, Prec.default⟩ ∨
        r = ⟨.this, [.sym element, .rest], .listHead, Prec.default⟩ ∨
        r = ⟨.rest, [.sym (Sym.literal divider), .sym element, .rest], .listNext, Prec.default⟩ ∨
        r = ⟨.rest, [], .emptyList, Prec.default⟩ := by
  cases allowEmpty <;> simp [listRules, NodeType.makeList, NodeType.addRules, NodeType.named]

/-- The start type of the language is a list and nothing else, and no type replaces it. -/
structure Language.StartsWithList (l : Language) (declared : List NodeType) (list : NodeType)
    (element : Sym) (divider : String) (allowEmpty : Bool) : Prop where
  mem : list ∈ l.types
  isStart : list.isStart = true
  rules : list.rules = listRules element divider allowEmpty
  alone : ∀ upgrades, Upgrades.ofTypes declared = .ok upgrades →
    ∀ t ∈ l.types, ¬ t.Replaces upgrades list.name

namespace Naming

/-- Types that declare lists are told apart by the numbers of their rests. -/
theorem eq_of_restNumber_eq {ns : Naming} {t t' : NodeType} {r r' : Rule} (ht : t ∈ ns.types)
    (ht' : t' ∈ ns.types) (hr : r ∈ t.rules) (hr' : r' ∈ t'.rules) (huses : r.usesRest = true)
    (huses' : r'.usesRest = true) (heq : ns.restNumber t.name = ns.restNumber t'.name) :
    t.name = t'.name := by
  have hlist : ∀ {t : NodeType} {r : Rule}, t ∈ ns.types → r ∈ t.rules → r.usesRest = true →
      ∃ h : ns.listTypes.findIdx (· == t.name) < ns.listTypes.length,
        ns.listTypes[ns.listTypes.findIdx (· == t.name)] = t.name := by
    intro t r ht hr huses
    have hmem : t.name ∈ ns.listTypes :=
      List.mem_map_of_mem (List.mem_filter.2 ⟨ht, List.any_eq_true.2 ⟨r, hr, huses⟩⟩)
    have hlt := List.findIdx_lt_length_of_exists (p := (· == t.name)) ⟨t.name, hmem, by simp⟩
    exact ⟨hlt, eq_of_beq (List.findIdx_getElem (w := hlt))⟩
  obtain ⟨hlt, hget⟩ := hlist ht hr huses
  obtain ⟨hlt', hget'⟩ := hlist ht' hr' huses'
  have hindex : ns.listTypes.findIdx (· == t.name) = ns.listTypes.findIdx (· == t'.name) := by
    simpa [restNumber] using heq
  rw [← hget, ← hget']
  simp only [hindex]

/-! ## The productions of a list -/

namespace Makes

variable {ns : Naming} {declared : List NodeType} {lowered : Lowered} {list : NodeType}
  {element : Sym} {divider : String} {allowEmpty : Bool} (h : ns.Makes declared lowered)
  (hmem : list ∈ ns.types)
include h hmem

/-- The number of the start is that of the only start type. -/
theorem getElem?_start (hstart : list.isStart = true) :
    ns.types[lowered.grammar.start]? = some list ∧
      ns.typeNumber? list.name = some lowered.grammar.start := by
  have hname : list.name = lowered.start := by
    have hunique := h.uniqueStart
    rw [SmallLang.uniqueStart] at hunique
    split at hunique
    · rename_i t hfilter
      have hlist := hfilter ▸ List.mem_filter.2 ⟨hmem, hstart⟩
      rw [List.mem_singleton.1 hlist]
      exact Except.ok.inj hunique
    · exact absurd hunique (by simp)
  have hnumber := h.typeNumber?_start
  rw [← hname] at hnumber
  have hget := List.getElem?_eq_getElem h.start_lt
  rw [← h.eq_of_typeNumber? hget hmem hnumber] at hget
  exact ⟨hget, hnumber⟩

variable (hnumber : ns.types[lowered.grammar.start]? = some list)
  (halone : ∀ t ∈ ns.types, ¬ t.Replaces ns.upgrades list.name)
  {t : NodeType} (ht : t ∈ ns.types) {r : Rule} (hr : r ∈ t.rules)
include ht hr

omit hmem in
include hnumber halone in
/-- Only the start type's own rules build it. -/
theorem of_headNumber?_start (hhead : ns.headNumber? t.name r.head = some lowered.grammar.start) :
    t = list ∧ r.head = .this := by
  cases hcase : r.head with
  | this =>
      rw [hcase] at hhead
      exact ⟨h.eq_of_typeNumber? hnumber ht hhead, rfl⟩
  | type name =>
      rw [hcase] at hhead
      refine absurd ⟨r, hr, ?_⟩ (halone t ht)
      rw [hcase]
      exact (h.typeNumber?_eq_iff hnumber).1 hhead
  | rest =>
      rw [hcase] at hhead
      have hle := length_types_le_restNumber ns t.name
      have hlt := h.start_lt
      have heq : ns.restNumber t.name = lowered.grammar.start := Option.some.inj hhead
      omega

/-- Only rules of the type itself build the rest of its list. -/
theorem of_headNumber?_rest {r' : Rule} (hr' : r' ∈ list.rules) (huses : r'.usesRest = true)
    (hhead : ns.headNumber? t.name r.head = some (ns.restNumber list.name)) :
    t = list ∧ r.head = .rest := by
  have htype : ∀ {name}, ns.typeNumber? name ≠ some (ns.restNumber list.name) := by
    intro name hname
    exact absurd (typeNumber?_lt hname) (Nat.not_lt.2 (length_types_le_restNumber ns list.name))
  cases hcase : r.head with
  | this => exact absurd (hcase ▸ hhead) htype
  | type name => exact absurd (hcase ▸ hhead) htype
  | rest =>
      rw [hcase] at hhead
      have hname := eq_of_restNumber_eq ht hmem hr hr' (by simp [Rule.usesRest, hcase]) huses
        (Option.some.inj hhead)
      exact ⟨List.inj_on_of_nodup_map (Upgrades.nodup_names_of_settle h.settle) ht hmem hname, rfl⟩

omit ht hr
variable (hrules : list.rules = listRules element divider allowEmpty)
include hrules

/-- The element and the divider of a list have symbols. -/
theorem exists_listSymbols : ∃ e d, ns.symbol? lowered.grammar.arena list.name element = some e ∧
    lowered.grammar.arena.indexOf? (.literal divider) = some d := by
  have hnextRule := hrules ▸ mem_listRules_iff.2 (Or.inr (Or.inr (Or.inl rfl)))
  obtain ⟨⟨j, q⟩, hq⟩ := h.produces list hmem _ hnextRule
  obtain ⟨-, hbody, -⟩ := production?_eq_some_iff.1 hq
  obtain ⟨x, _, hx, hbody, -⟩ := List.forall₂_cons_left_iff.1 hbody
  obtain ⟨e, _, he, -⟩ := List.forall₂_cons_left_iff.1 hbody
  obtain ⟨d, hd, -⟩ := Option.map_eq_some_iff.1 hx
  exact ⟨e, d, he, hd⟩

variable {e : Symbol} {d : Nat}
  (helement : ns.symbol? lowered.grammar.arena list.name element = some e)
include helement

include hnumber halone in
/-- The start has the productions of a list. -/
theorem mem_productionsOf_list_iff (p : Production) :
    p ∈ lowered.grammar.productionsOf lowered.grammar.start ↔
      allowEmpty = true ∧ p = ⟨[], .emptyList, Prec.default⟩ ∨
        p = ⟨[e, .nonTerminal (ns.restNumber list.name)], .listHead, Prec.default⟩ := by
  have hself : ns.typeNumber? list.name = some lowered.grammar.start :=
    (h.typeNumber?_eq_iff hnumber).2 (h.finalName?_self hmem)
  have hempty : ns.production? lowered.grammar.arena list ⟨.this, [], .emptyList, Prec.default⟩ =
      some (lowered.grammar.start, ⟨[], .emptyList, Prec.default⟩) :=
    production?_eq_some_iff.2 ⟨hself, .nil, rfl, rfl⟩
  have hhead : ns.production? lowered.grammar.arena list
      ⟨.this, [.sym element, .rest], .listHead, Prec.default⟩ =
      some (lowered.grammar.start,
        ⟨[e, .nonTerminal (ns.restNumber list.name)], .listHead, Prec.default⟩) :=
    production?_eq_some_iff.2 ⟨hself, .cons helement (.cons rfl .nil), rfl, rfl⟩
  rw [h.mem_productionsOf_iff]
  constructor
  · rintro ⟨t, ht, r, hr, hp⟩
    obtain ⟨rfl, hthis⟩ :=
      h.of_headNumber?_start hnumber halone ht hr (production?_eq_some_iff.1 hp).1
    rcases mem_listRules_iff.1 (hrules ▸ hr) with ⟨hallow, rfl⟩ | rfl | rfl | rfl
    · exact Or.inl ⟨hallow, (Prod.mk.inj (Option.some.inj (hp.symm.trans hempty))).2⟩
    · exact Or.inr (Prod.mk.inj (Option.some.inj (hp.symm.trans hhead))).2
    · exact Head.noConfusion hthis
    · exact Head.noConfusion hthis
  · rintro (⟨hallow, rfl⟩ | rfl)
    · exact ⟨list, hmem, _, hrules ▸ mem_listRules_iff.2 (Or.inl ⟨hallow, rfl⟩), hempty⟩
    · exact ⟨list, hmem, _, hrules ▸ mem_listRules_iff.2 (Or.inr (Or.inl rfl)), hhead⟩

/-- The rest of the list goes on with a divider and an element, or ends. -/
theorem mem_productionsOf_listRest_iff
    (hdivider : lowered.grammar.arena.indexOf? (.literal divider) = some d) (p : Production) :
    p ∈ lowered.grammar.productionsOf (ns.restNumber list.name) ↔
      p = ⟨[.terminal d, e, .nonTerminal (ns.restNumber list.name)], .listNext, Prec.default⟩ ∨
        p = ⟨[], .emptyList, Prec.default⟩ := by
  have hnextRule := hrules ▸ mem_listRules_iff.2 (Or.inr (Or.inr (Or.inl rfl)))
  have hnext : ns.production? lowered.grammar.arena list
      ⟨.rest, [.sym (Sym.literal divider), .sym element, .rest], .listNext, Prec.default⟩ =
      some (ns.restNumber list.name,
        ⟨[.terminal d, e, .nonTerminal (ns.restNumber list.name)], .listNext, Prec.default⟩) :=
    production?_eq_some_iff.2
      ⟨rfl, .cons (Option.map_eq_some_iff.2 ⟨d, hdivider, rfl⟩) (.cons helement (.cons rfl .nil)),
        rfl, rfl⟩
  have hend : ns.production? lowered.grammar.arena list ⟨.rest, [], .emptyList, Prec.default⟩ =
      some (ns.restNumber list.name, ⟨[], .emptyList, Prec.default⟩) :=
    production?_eq_some_iff.2 ⟨rfl, .nil, rfl, rfl⟩
  rw [h.mem_productionsOf_iff]
  constructor
  · rintro ⟨t, ht, r, hr, hp⟩
    obtain ⟨rfl, hrest⟩ := h.of_headNumber?_rest hmem ht hr hnextRule rfl
      (production?_eq_some_iff.1 hp).1
    rcases mem_listRules_iff.1 (hrules ▸ hr) with ⟨-, rfl⟩ | rfl | rfl | rfl
    · exact Head.noConfusion hrest
    · exact Head.noConfusion hrest
    · exact Or.inl (Prod.mk.inj (Option.some.inj (hp.symm.trans hnext))).2
    · exact Or.inr (Prod.mk.inj (Option.some.inj (hp.symm.trans hend))).2
  · rintro (rfl | rfl)
    · exact ⟨list, hmem, _, hnextRule, hnext⟩
    · exact ⟨list, hmem, _, hrules ▸ mem_listRules_iff.2 (Or.inr (Or.inr (Or.inr rfl))), hend⟩

omit helement

omit hmem in
include hnumber in
/-- No rule of a list hands the list on, and no rule of another type can. -/
theorem not_unitStep_start (hbuilt : ∀ t ∈ ns.types, t.Built) (a : Nat) :
    ¬ lowered.grammar.UnitStep a lowered.grammar.start := by
  rintro ⟨p, hp, hunit, -⟩
  obtain ⟨t, ht, r, hr, hq⟩ := (h.mem_productionsOf_iff a p).1 hp
  obtain ⟨htarget, htemplate⟩ := of_unitTarget? ((hbuilt t ht).rules r hr) hq hunit
  obtain rfl := h.eq_of_typeNumber? hnumber ht htarget
  rw [hrules] at hr
  rcases mem_listRules_iff.1 hr with ⟨-, rfl⟩ | rfl | rfl | rfl <;> simp at htemplate

omit hmem hrules in
/-- Nothing hands on the rest of a list. -/
theorem not_unitStep_rest (hbuilt : ∀ t ∈ ns.types, t.Built) (owner : String) (a : Nat) :
    ¬ lowered.grammar.UnitStep a (ns.restNumber owner) := by
  rintro ⟨p, hp, hunit, -⟩
  obtain ⟨t, ht, r, hr, hq⟩ := (h.mem_productionsOf_iff a p).1 hp
  have htarget := (of_unitTarget? ((hbuilt t ht).rules r hr) hq hunit).1
  exact absurd (typeNumber?_lt htarget) (Nat.not_lt.2 (length_types_le_restNumber ns owner))

end Makes

end Naming

namespace Language

variable {declared : List NodeType} {config : Config} {l : Language} {list : NodeType}
  {element : Sym} {divider : String} {allowEmpty : Bool}

/-- A language that starts with a list and decides nothing by priority accepts exactly the elements
with the dividers between them, and nothing where the list may be empty. The value is the list of the
values of the elements. -/
theorem parseTokens_list_iff (hbuilt : ∀ t ∈ declared, t.Built)
    (hassemble : assemble declared config = .ok l)
    (hresolutions : l.compiled.table.resolutions = [])
    (hlist : l.StartsWithList declared list element divider allowEmpty) :
    ∃ upgrades e d, Upgrades.ofTypes declared = .ok upgrades ∧
      (Naming.mk upgrades l.types).symbol? l.arena list.name element = some e ∧
      l.arena.indexOf? (.literal divider) = some d ∧
      ∀ tokens v, l.parseTokens tokens = .ok v ↔
        (∃ xs : Elements, xs.Derived l.grammar e d ∧ xs.tokens = tokens ∧ xs.value l.grammar = v) ∨
          allowEmpty = true ∧ tokens = [] ∧ v = .list [] := by
  obtain ⟨lowered, hlower, htypes, -, hcompiled⟩ := assemble_eq_ok hassemble
  obtain ⟨ns, hmakes⟩ := lower_eq_ok hlower
  obtain ⟨hstaged, hstart, -⟩ := staged_of_lower hlower hbuilt
  have hsettled : ∀ t ∈ ns.types, t.Built := fun t ht =>
    hbuilt t (Upgrades.mem_of_settle hmakes.ofTypes hmakes.settle t ht)
  have hns : l.types = ns.types := htypes.trans hmakes.types
  obtain ⟨hmem, hisStart, hrules, halone⟩ := hlist
  rw [hns] at hmem halone
  replace halone := halone ns.upgrades hmakes.ofTypes
  obtain ⟨hnumber, -⟩ := hmakes.getElem?_start hmem hisStart
  obtain ⟨e, d, helement, hdivider⟩ := hmakes.exists_listSymbols hmem hrules
  have hlistAt : lowered.grammar.ListAt lowered.grammar.start (ns.restNumber list.name) e d allowEmpty :=
    ⟨hmakes.mem_productionsOf_list_iff hmem hnumber halone hrules helement,
      hmakes.mem_productionsOf_listRest_iff hmem hrules helement hdivider⟩
  have hrest : ns.restNumber list.name < lowered.grammar.size := by
    obtain ⟨i, hi⟩ := Grammar.mem_productionsOf_iff.1 ((hlistAt.mem_rest_iff _).2 (Or.inr rfl))
    exact Grammar.lt_size_of_production? hi
  have hto := hmakes.not_unitStep_start hnumber hrules hsettled
  have hto' := hmakes.not_unitStep_rest hsettled list.name
  obtain ⟨hgrammar, -, htable⟩ := Compiled.ofGrammar_eq_ok hcompiled
  -- Elements that are such lists themselves would need a priority to end the list.
  have hne : e ≠ .nonTerminal lowered.grammar.start := by
    intro hown
    have hlt := hmakes.start_lt
    have hle := Naming.length_types_le_restNumber ns list.name
    exact hlistAt.not_undecided hstaged hstart hrest hto' rfl (by omega) hown
      (Grammar.undecided_of_resolutions htable hresolutions)
  have hlistAt' := hlistAt.stratify hstaged hstart hrest hto hto' hne
  have hstart' : lowered.grammar.stratify.start = lowered.grammar.start := by
    rw [Grammar.stratify_eq_stage, Grammar.stage_start]
  rw [hns, arena_of_assemble hlower hassemble, show l.grammar = _ from hgrammar]
  refine ⟨ns.upgrades, e, d, hmakes.ofTypes, helement, hdivider, fun tokens v => ?_⟩
  rw [parseTokens_eq_ok_iff hcompiled (hstaged.wellFormed_stratify hstart) hresolutions, hstart']
  exact hlistAt'.exists_derives_iff

/-- Rows of names, one after the other, or none at all. -/
def tableTypes : List NodeType :=
  [((NodeType.named "Table").makeList (.node "Row") ";" true).start,
    (NodeType.named "Row").makeList (Sym.literal "x") "," false]

theorem built_tableTypes : ∀ t ∈ tableTypes, t.Built := by
  intro t ht
  simp only [tableTypes, List.mem_cons, List.not_mem_nil, or_false] at ht
  rcases ht with rfl | rfl
  · exact ((NodeType.Built.named _).makeList _ _ _).start
  · exact (NodeType.Built.named _).makeList _ _ _

/-- The tokens of `x, x; x`. -/
def tableRow : List Token :=
  let literal : Nat → String → Token := fun terminal text => ⟨terminal, text, .token text, .outside⟩
  [literal 1 "x", literal 2 ",", literal 1 "x", literal 0 ";", literal 1 "x"]

set_option maxRecDepth 8000 in
/-- The rows of `x, x; x` stay lists of their own. -/
theorem parseTokens_list_iff_of_tableTypes :
    ∃ l list upgrades e d, assemble tableTypes .quiet = .ok l ∧
      l.compiled.table.resolutions = [] ∧
      l.StartsWithList tableTypes list (.node "Row") ";" true ∧
      (Naming.mk upgrades l.types).symbol? l.arena list.name (.node "Row") = some e ∧
      l.arena.indexOf? (.literal ";") = some d ∧
      (∀ tokens v, l.parseTokens tokens = .ok v ↔
        (∃ xs : Elements, xs.Derived l.grammar e d ∧ xs.tokens = tokens ∧ xs.value l.grammar = v) ∨
          true = true ∧ tokens = [] ∧ v = .list []) ∧
      l.parseTokens tableRow =
        .ok (.list [.list [.token "x", .token "x"], .list [.token "x"]]) := by
  have hcheck : (assemble tableTypes .quiet).toOption.any (fun l =>
      decide (l.compiled.table.resolutions = []) && decide (l.types = tableTypes) &&
        ((l.parseTokens tableRow).toOption ==
          some (.list [.list [.token "x", .token "x"], .list [.token "x"]]))) = true := by
    cbv
  obtain ⟨l, hl, hcheck⟩ := exists_of_any_assemble hcheck
  simp only [Bool.and_eq_true, decide_eq_true_eq] at hcheck
  obtain ⟨⟨hresolutions, htypes⟩, hparse⟩ := hcheck
  have hlist : l.StartsWithList tableTypes tableTypes[0] (.node "Row") ";" true := by
    refine ⟨by rw [htypes]; exact List.getElem_mem _, rfl, rfl, ?_⟩
    intro upgrades hupgrades
    obtain rfl := Except.ok.inj ((rfl : Upgrades.ofTypes tableTypes = .ok []).symm.trans hupgrades)
    rw [htypes]
    decide
  obtain ⟨upgrades, e, d, -, he, hd, hiff⟩ :=
    parseTokens_list_iff built_tableTypes hl hresolutions hlist
  exact ⟨l, _, upgrades, e, d, hl, hresolutions, hlist, he, hd, hiff, Except.eq_ok_of_beq hparse⟩

end Language

end SmallLang
