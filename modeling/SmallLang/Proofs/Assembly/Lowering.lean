import SmallLang.Assembly.Lowering
import SmallLang.Proofs.Assembly.Upgrade
import SmallLang.Proofs.Operator.Use

/-!
# The productions of a lowered grammar

Lowering numbers terminals as it meets them, so the symbols of a rule depend on the rules before it.
They do not depend on them once all terminals have their numbers: `Naming.production?` is the
production of a rule as a function of the final arena, and `lower_eq_ok` says that the productions
of a lowered grammar are those of the rules of its types, each under the final arena.
-/

set_option autoImplicit false

namespace SmallLang

namespace Arena

/-- The second arena has all terminals of the first one under the same numbers. -/
def Extends (a b : Arena) : Prop := a.terminals <+: b.terminals

theorem Extends.refl (a : Arena) : a.Extends a := List.prefix_refl _

theorem Extends.trans {a b c : Arena} (hab : a.Extends b) (hbc : b.Extends c) : a.Extends c :=
  List.IsPrefix.trans hab hbc

/-- Numbers stay when terminals are added. -/
theorem Extends.indexOf? {a b : Arena} (h : a.Extends b) {t : Terminal} {i : Nat}
    (hi : a.indexOf? t = some i) : b.indexOf? t = some i := by
  obtain ⟨more, hmore⟩ := h
  rw [Arena.indexOf?, ← hmore, List.findIdx?_append]
  rw [Arena.indexOf?] at hi
  rw [hi]
  rfl

theorem indexOf?_lt {a : Arena} {t : Terminal} {i : Nat} (h : a.indexOf? t = some i) :
    i < a.size := by
  obtain ⟨hlt, -⟩ := List.findIdx?_eq_some_iff_getElem.1 h
  exact hlt

theorem sameKey_self (t : Terminal) : t.sameKey t = true := by
  cases t <;> simp [Terminal.sameKey]

theorem intern_eq_ok {a a' : Arena} {t : Terminal} {i : Nat} (h : a.intern t = .ok (i, a')) :
    a.Extends a' ∧ a'.indexOf? t = some i := by
  rw [intern] at h
  split at h
  · rename_i hnone
    obtain ⟨rfl, rfl⟩ : a.size = i ∧ Arena.mk (a.terminals ++ [t]) = a' := by simpa using h
    refine ⟨List.prefix_append _ _, ?_⟩
    rw [indexOf?, List.findIdx?_append]
    rw [indexOf?] at hnone
    rw [hnone]
    simp [sameKey_self, size]
  · rename_i j hsome
    split at h
    · obtain ⟨rfl, rfl⟩ : j = i ∧ a = a' := by simpa using h
      exact ⟨Extends.refl a, hsome⟩
    · exact absurd h (by simp)

end Arena

/-! ## What a step yields once all terminals have their numbers -/

/-- The step only adds terminals, and what it yields is a function of any later arena. -/
def Lower.Describes {α : Type} (x : Lower α) (d : Arena → Option α) : Prop :=
  ∀ a v a', x a = .ok (v, a') → a.Extends a' ∧ ∀ b, a'.Extends b → d b = some v

namespace Lower

variable {α β : Type}

theorem describes_pure (v : α) : Lower.Describes (pure v) fun _ => some v := by
  intro a w a' h
  obtain ⟨rfl, rfl⟩ := Prod.mk.inj (Except.ok.inj h)
  exact ⟨Arena.Extends.refl a, fun _ _ => rfl⟩

theorem describes_throw (err : AssemblyError) (d : Arena → Option α) :
    Lower.Describes (throw err) d := by
  intro a v a' h
  exact absurd h (by simp [throw, throwThe, MonadExceptOf.throw, StateT.lift, bind, Except.bind])

theorem describes_lift (x : Except AssemblyError α) :
    Lower.Describes (monadLift x) fun _ => x.toOption := by
  intro a v a' h
  cases x with
  | error err =>
      exact absurd h (by simp [monadLift, MonadLift.monadLift, StateT.lift, bind, Except.bind])
  | ok w =>
      obtain ⟨rfl, rfl⟩ : w = v ∧ a = a' := by
        simpa [monadLift, MonadLift.monadLift, StateT.lift, bind, Except.bind, pure,
          Except.pure] using h
      exact ⟨Arena.Extends.refl a, fun _ _ => rfl⟩

theorem Describes.bind {x : Lower α} {d : Arena → Option α} {f : α → Lower β}
    {e : α → Arena → Option β} (hx : x.Describes d) (hf : ∀ v, (f v).Describes (e v)) :
    Lower.Describes (x >>= f) fun b => d b >>= fun v => e v b := by
  intro a w a'' h
  obtain ⟨⟨v, a'⟩, hv, hw⟩ := Except.bind_eq_ok_iff.1 h
  obtain ⟨haa', hd⟩ := hx a v a' hv
  obtain ⟨haa'', he⟩ := hf v a' w a'' hw
  refine ⟨haa'.trans haa'', fun b hb => ?_⟩
  simp only [hd b (haa''.trans hb), Option.bind_eq_bind, Option.bind_some]
  exact he b hb

theorem Describes.map {x : Lower α} {d : Arena → Option α} (hx : x.Describes d) (f : α → β) :
    Lower.Describes (f <$> x) fun b => (d b).map f := by
  have hbind := hx.bind fun v => describes_pure (f v)
  rw [map_eq_pure_bind]
  intro a w a' h
  obtain ⟨hextends, hd⟩ := hbind a w a' h
  refine ⟨hextends, fun b hb => ?_⟩
  simp only [Option.map_eq_bind]
  exact hd b hb

theorem describes_mapM {f : α → Lower β} {d : α → Arena → Option β} (xs : List α)
    (h : ∀ x ∈ xs, (f x).Describes (d x)) :
    Lower.Describes (xs.mapM f) fun b => xs.mapM fun x => d x b := by
  induction xs with
  | nil => exact describes_pure []
  | cons x xs ih =>
      simp only [List.mapM_cons]
      refine (h x List.mem_cons_self).bind fun y => ?_
      refine (ih fun x' hx' => h x' (List.mem_cons_of_mem _ hx')).bind fun ys => ?_
      exact describes_pure _

end Lower

theorem mapM_eq_some_iff {α β : Type} {f : α → Option β} {xs : List α} {ys : List β} :
    xs.mapM f = some ys ↔ List.Forall₂ (fun x y => f x = some y) xs ys := by
  induction xs generalizing ys with
  | nil => cases ys <;> simp
  | cons x xs ih =>
      rw [List.mapM_cons]
      cases hx : f x with
      | none => cases ys <;> simp [hx]
      | some y =>
          cases hxs : xs.mapM f with
          | none => cases ys <;> simp [← ih, hxs]
          | some zs => cases ys <;> simp [← ih, hxs, hx]

theorem filterMap_eq_of_forall₂ {α β : Type} {f : α → Option β} {xs : List α} {ys : List β}
    (h : List.Forall₂ (fun x y => f x = some y) xs ys) : xs.filterMap f = ys := by
  induction h with
  | nil => rfl
  | cons hxy _ ih => rw [List.filterMap_cons_some hxy, ih]

theorem exists_of_forall₂_left {α β : Type} {R : α → β → Prop} {xs : List α} {ys : List β}
    (h : List.Forall₂ R xs ys) {x : α} (hx : x ∈ xs) : ∃ y ∈ ys, R x y := by
  induction h with
  | nil => exact absurd hx List.not_mem_nil
  | @cons x' y xs ys hR _ ih =>
      rcases List.mem_cons.1 hx with rfl | hx
      · exact ⟨y, List.mem_cons_self, hR⟩
      · obtain ⟨y', hy', hR'⟩ := ih hx
        exact ⟨y', List.mem_cons_of_mem _ hy', hR'⟩

theorem exists_of_forall₂_right {α β : Type} {R : α → β → Prop} {xs : List α} {ys : List β}
    (h : List.Forall₂ R xs ys) {y : β} (hy : y ∈ ys) : ∃ x ∈ xs, R x y := by
  obtain ⟨x, hx, hR⟩ := exists_of_forall₂_left (List.Forall₂.flip h) hy
  exact ⟨x, hx, hR⟩

namespace Naming

/-- The symbol of an element by the numbers of an arena. -/
def symbol? (ns : Naming) (arena : Arena) (owner : String) : Sym → Option Symbol
  | .this => (ns.typeNumber? owner).map Symbol.nonTerminal
  | .node name => (ns.typeNumber? name).map Symbol.nonTerminal
  | .terminal t => (arena.indexOf? t).map Symbol.terminal
  | .field _ target _ => ns.symbol? arena owner target

/-- The symbol of an element of a body by the numbers of an arena. -/
def elementSymbol? (ns : Naming) (arena : Arena) (owner : String) : Element → Option Symbol
  | .sym s => ns.symbol? arena owner s
  | .rest => some (.nonTerminal (ns.restNumber owner))

/-- The number of the non-terminal that a rule builds. -/
def headNumber? (ns : Naming) (owner : String) : Head → Option Nat
  | .this => ns.typeNumber? owner
  | .type name => ns.typeNumber? name
  | .rest => some (ns.restNumber owner)

/-- The production of a rule by the numbers of an arena, with the number of its non-terminal. -/
def production? (ns : Naming) (arena : Arena) (t : NodeType) (r : Rule) :
    Option (Nat × Production) := do
  let head ← ns.headNumber? t.name r.head
  let symbols ← r.body.mapM (ns.elementSymbol? arena t.name)
  let construction ← (t.construction r).toOption
  pure (head, ⟨symbols, construction, r.prec⟩)

variable (ns : Naming)

theorem describes_lowerType (owner name : String) :
    (ns.lowerType owner name).Describes fun _ => ns.typeNumber? name := by
  rw [lowerType]
  cases ns.typeNumber? name with
  | none => exact Lower.describes_throw _ _
  | some i => exact Lower.describes_pure i

theorem describes_intern (t : Terminal) :
    Lower.Describes
      (fun arena => (arena.intern t).map fun (i, arena') => (Symbol.terminal i, arena'))
      fun arena => (arena.indexOf? t).map Symbol.terminal := by
  intro a v a' h
  simp only at h
  cases hintern : a.intern t with
  | error err =>
      rw [hintern] at h
      exact absurd h (by simp [Except.map])
  | ok found =>
      obtain ⟨i, a''⟩ := found
      rw [hintern] at h
      obtain ⟨rfl, rfl⟩ : Symbol.terminal i = v ∧ a'' = a' := by simpa [Except.map] using h
      obtain ⟨hextends, hindex⟩ := Arena.intern_eq_ok hintern
      refine ⟨hextends, fun b hb => ?_⟩
      simp only [hb.indexOf? hindex, Option.map_some]

theorem describes_lowerSym (owner : String) (s : Sym) :
    (ns.lowerSym owner s).Describes fun arena => ns.symbol? arena owner s := by
  induction s with
  | this =>
      simp only [lowerSym, symbol?]
      exact (ns.describes_lowerType owner owner).map Symbol.nonTerminal
  | node name =>
      simp only [lowerSym, symbol?]
      exact (ns.describes_lowerType owner name).map Symbol.nonTerminal
  | terminal t =>
      simp only [lowerSym, symbol?]
      exact describes_intern t
  | field name target default ih =>
      simp only [lowerSym, symbol?]
      exact ih

theorem describes_lowerElement (owner : String) (x : Element) :
    (ns.lowerElement owner x).Describes fun arena => ns.elementSymbol? arena owner x := by
  cases x with
  | sym s => exact ns.describes_lowerSym owner s
  | rest => exact Lower.describes_pure _

theorem describes_lowerHead (owner : String) (head : Head) :
    (ns.lowerHead owner head).Describes fun _ => ns.headNumber? owner head := by
  cases head with
  | this => exact ns.describes_lowerType owner owner
  | type name => exact ns.describes_lowerType owner name
  | rest => exact Lower.describes_pure _

theorem describes_lowerRule (t : NodeType) (r : Rule) :
    (ns.lowerRule t r).Describes fun arena => ns.production? arena t r := by
  refine (ns.describes_lowerHead t.name r.head).bind fun head => ?_
  refine (Lower.describes_mapM _ fun x _ => ns.describes_lowerElement t.name x).bind fun symbols => ?_
  refine (Lower.describes_lift (t.construction r)).bind fun construction => ?_
  exact Lower.describes_pure _

theorem describes_lowerNodeType (t : NodeType) :
    (ns.lowerNodeType t).Describes fun arena =>
      t.checkFields.toOption >>= fun _ => t.rules.mapM fun r => ns.production? arena t r := by
  refine (Lower.describes_lift t.checkFields).bind fun _ => ?_
  exact Lower.describes_mapM _ fun r _ => ns.describes_lowerRule t r

/-- The productions of all rules by the numbers of an arena, in the order of the types. -/
def ruleProductions (arena : Arena) : List (Nat × Production) :=
  ns.types.flatMap fun t => t.rules.filterMap (ns.production? arena t)

theorem mem_ruleProductions_iff {arena : Arena} {x : Nat × Production} :
    x ∈ ns.ruleProductions arena ↔
      ∃ t ∈ ns.types, ∃ r ∈ t.rules, ns.production? arena t r = some x := by
  simp only [ruleProductions, List.mem_flatMap, List.mem_filterMap]

/-- The productions of all types are those of their rules under the final arena. -/
theorem lowerAll_eq_ok {productions : List (Nat × Production)} {arena : Arena}
    (h : ns.lowerAll.run Arena.empty = .ok (productions, arena)) :
    (∀ t ∈ ns.types, t.checkFields = .ok ()) ∧
      (∀ t ∈ ns.types, ∀ r ∈ t.rules, ∃ x, ns.production? arena t r = some x) ∧
      productions = ns.ruleProductions arena := by
  have hdescribes := (Lower.describes_mapM ns.types fun t _ =>
    ns.describes_lowerNodeType t).map List.flatten
  rw [← bind_pure_comp] at hdescribes
  have hsome := (hdescribes _ _ _ h).2 arena (Arena.Extends.refl arena)
  obtain ⟨rows, hrows, rfl⟩ := Option.map_eq_some_iff.1 hsome
  have hforall := mapM_eq_some_iff.1 hrows
  have hrow : ∀ {t row}, (t.checkFields.toOption >>= fun _ =>
      t.rules.mapM fun r => ns.production? arena t r) = some row →
      t.checkFields = .ok () ∧
        List.Forall₂ (fun r x => ns.production? arena t r = some x) t.rules row := by
    intro t row hrow
    obtain ⟨⟨⟩, hchecked, hmapM⟩ := Option.bind_eq_some_iff.1 hrow
    refine ⟨?_, mapM_eq_some_iff.1 hmapM⟩
    cases hc : t.checkFields with
    | error err => simp [hc, Except.toOption] at hchecked
    | ok u => rfl
  refine ⟨fun t ht => ?_, fun t ht r hr => ?_, ?_⟩
  · obtain ⟨row, -, hrow'⟩ := exists_of_forall₂_left hforall ht
    exact (hrow hrow').1
  · obtain ⟨row, -, hrow'⟩ := exists_of_forall₂_left hforall ht
    obtain ⟨x, -, hx⟩ := exists_of_forall₂_left (hrow hrow').2 hr
    exact ⟨x, hx⟩
  · rw [ruleProductions]
    clear hsome hrows hdescribes h
    generalize ns.types = types at hforall
    induction hforall with
    | nil => rfl
    | cons hrow' _ ih =>
        rw [List.flatten_cons, List.flatMap_cons, ih, filterMap_eq_of_forall₂ (hrow hrow').2]

/-! ## Numbers of non-terminals -/

variable {ns}

theorem typeNumber?_lt {name : String} {i : Nat} (h : ns.typeNumber? name = some i) :
    i < ns.types.length := by
  obtain ⟨final, -, hfind⟩ := Option.bind_eq_some_iff.1 h
  exact (List.findIdx?_eq_some_iff_getElem.1 hfind).1

theorem length_types_le_restNumber (ns : Naming) (owner : String) :
    ns.types.length ≤ ns.restNumber owner :=
  Nat.le_add_right _ _

theorem length_nonTerminalNames (ns : Naming) :
    ns.nonTerminalNames.length = ns.types.length + ns.listTypes.length := by
  rw [nonTerminalNames, List.length_append, List.length_map, List.length_map]

/-- A type that declares a list has a non-terminal for the rest of it. -/
theorem restNumber_lt {t : NodeType} {r : Rule} (ht : t ∈ ns.types) (hr : r ∈ t.rules)
    (huses : r.usesRest = true) : ns.restNumber t.name < ns.nonTerminalNames.length := by
  have hmem : t.name ∈ ns.listTypes :=
    List.mem_map.2 ⟨t, List.mem_filter.2 ⟨ht, List.any_eq_true.2 ⟨r, hr, huses⟩⟩, rfl⟩
  have hlt : ns.listTypes.findIdx (· == t.name) < ns.listTypes.length :=
    List.findIdx_lt_length_of_exists ⟨t.name, hmem, beq_self_eq_true _⟩
  rw [restNumber, length_nonTerminalNames]
  omega

theorem headNumber?_lt {t : NodeType} {r : Rule} {i : Nat} (ht : t ∈ ns.types) (hr : r ∈ t.rules)
    (h : ns.headNumber? t.name r.head = some i) : i < ns.nonTerminalNames.length := by
  rw [length_nonTerminalNames]
  cases hhead : r.head with
  | this =>
      rw [hhead] at h
      exact Nat.lt_add_right _ (typeNumber?_lt h)
  | type name =>
      rw [hhead] at h
      exact Nat.lt_add_right _ (typeNumber?_lt h)
  | rest =>
      rw [hhead] at h
      obtain rfl : ns.restNumber t.name = i := by simpa [headNumber?] using h
      rw [← length_nonTerminalNames]
      exact restNumber_lt ht hr (by simp [Rule.usesRest, hhead])

/-- The parts of a lowered production. -/
theorem production?_eq_some_iff {arena : Arena} {t : NodeType} {r : Rule} {i : Nat}
    {p : Production} :
    ns.production? arena t r = some (i, p) ↔
      ns.headNumber? t.name r.head = some i ∧
        List.Forall₂ (fun x s => ns.elementSymbol? arena t.name x = some s) r.body p.symbols ∧
        t.construction r = .ok p.construction ∧ p.prec = r.prec := by
  rw [← mapM_eq_some_iff]
  simp only [production?, Option.bind_eq_bind, Option.bind_eq_some_iff, Option.pure_def,
    Option.some.injEq, Prod.mk.injEq]
  constructor
  · rintro ⟨head, hhead, symbols, hsymbols, construction, hc, rfl, rfl⟩
    refine ⟨hhead, hsymbols, ?_, rfl⟩
    cases ht : t.construction r with
    | error err => simp [ht, Except.toOption] at hc
    | ok c => simpa [ht, Except.toOption] using hc
  · rintro ⟨hhead, hsymbols, hc, hprec⟩
    refine ⟨i, hhead, p.symbols, hsymbols, p.construction, ?_, rfl, ?_⟩
    · rw [hc]
      rfl
    · rw [← hprec]

/-! ## The grammar -/

/-- What is known of the grammar that lowering makes of declarations. -/
structure Makes (ns : Naming) (declared : List NodeType) (lowered : Lowered) : Prop where
  ofTypes : Upgrades.ofTypes declared = .ok ns.upgrades
  settle : ns.upgrades.settle declared = .ok ns.types
  types : lowered.types = ns.types
  uniqueStart : uniqueStart ns.types = .ok lowered.start
  start : lowered.grammar.start = ns.types.findIdx (·.name == lowered.start)
  checkFields : ∀ t ∈ ns.types, t.checkFields = .ok ()
  size : lowered.grammar.size = ns.nonTerminalNames.length
  produces : ∀ t ∈ ns.types, ∀ r ∈ t.rules,
    ∃ x, ns.production? lowered.grammar.arena t r = some x
  productionsOf_eq : ∀ i, lowered.grammar.productionsOf i =
    ((ns.ruleProductions lowered.grammar.arena).filter (·.1 == i)).map Prod.snd

theorem Makes.mem_productionsOf_iff {declared : List NodeType} {lowered : Lowered}
    (h : ns.Makes declared lowered) (i : Nat) (p : Production) :
    p ∈ lowered.grammar.productionsOf i ↔
      ∃ t ∈ ns.types, ∃ r ∈ t.rules,
        ns.production? lowered.grammar.arena t r = some (i, p) := by
  rw [h.productionsOf_eq, ← mem_ruleProductions_iff]
  simp

/-- The run that made the productions of a lowered grammar. -/
theorem Makes.exists_run {declared : List NodeType} {lowered : Lowered}
    (h : ns.Makes declared lowered) (hlower : lower declared = .ok lowered) :
    ∃ productions, ns.lowerAll.run Arena.empty = .ok (productions, lowered.grammar.arena) := by
  obtain ⟨upgrades, hupgrades, hlower⟩ := Except.bind_eq_ok_iff.1 hlower
  obtain ⟨types, htypes, hlower⟩ := Except.bind_eq_ok_iff.1 hlower
  obtain ⟨start, -, hlower⟩ := Except.bind_eq_ok_iff.1 hlower
  obtain ⟨⟨productions, arena⟩, hrun, hlower⟩ := Except.bind_eq_ok_iff.1 hlower
  obtain rfl := Except.ok.inj hlower
  obtain rfl := Except.ok.inj (h.ofTypes.symm.trans hupgrades)
  obtain rfl : ns.types = types := Except.ok.inj (h.settle.symm.trans htypes)
  exact ⟨productions, hrun⟩

/-- A settled type keeps its name. -/
theorem Makes.finalName?_self {declared : List NodeType} {lowered : Lowered}
    (h : ns.Makes declared lowered) {t : NodeType} (ht : t ∈ ns.types) :
    ns.upgrades.finalName? t.name = some t.name := by
  obtain ⟨s, -, hfinal⟩ := Upgrades.final?_of_settle h.settle t ht
  rw [Upgrades.finalName?, Upgrades.lookup_of_follow hfinal]

/-- A name has the number of a type if upgrades lead from it to the name of the type. -/
theorem Makes.typeNumber?_eq_iff {declared : List NodeType} {lowered : Lowered}
    (h : ns.Makes declared lowered) {m : Nat} {t : NodeType} (ht : ns.types[m]? = some t)
    {name : String} :
    ns.typeNumber? name = some m ↔ ns.upgrades.finalName? name = some t.name := by
  obtain ⟨hm, hget⟩ := List.getElem?_eq_some_iff.1 ht
  have hnodup := Upgrades.nodup_names_of_settle h.settle
  have hfind : ns.types.findIdx? (fun s => s.name == t.name) = some m := by
    refine List.findIdx?_eq_some_iff_getElem.2 ⟨hm, by simp [hget], ?_⟩
    intro j hj
    rw [beq_iff_eq, ← hget]
    intro hname
    have hlt : j < ns.types.length := Nat.lt_trans hj hm
    have heq : j = m := by
      apply (List.getElem?_inj (by simpa using hlt) hnodup).1
      simp [hlt, hm, hname]
    exact Nat.ne_of_lt hj heq
  constructor
  · intro hnumber
    obtain ⟨final, hfinal, hindex⟩ := Option.bind_eq_some_iff.1 hnumber
    obtain ⟨hlt, hname, -⟩ := List.findIdx?_eq_some_iff_getElem.1 hindex
    rw [hfinal, ← eq_of_beq hname, hget]
  · intro hfinal
    rw [typeNumber?, hfinal]
    exact hfind

end Naming

theorem lower_eq_ok {declared : List NodeType} {lowered : Lowered}
    (h : lower declared = .ok lowered) : ∃ ns : Naming, ns.Makes declared lowered := by
  obtain ⟨upgrades, hupgrades, h⟩ := Except.bind_eq_ok_iff.1 h
  obtain ⟨types, htypes, h⟩ := Except.bind_eq_ok_iff.1 h
  obtain ⟨start, hstart, h⟩ := Except.bind_eq_ok_iff.1 h
  obtain ⟨⟨productions, arena⟩, hlowered, h⟩ := Except.bind_eq_ok_iff.1 h
  obtain rfl := Except.ok.inj h
  let ns : Naming := ⟨upgrades, types⟩
  obtain ⟨hchecked, hproduces, rfl⟩ := ns.lowerAll_eq_ok hlowered
  have hsize : (ns.nonTerminals (ns.ruleProductions arena)).length = ns.nonTerminalNames.length := by
    rw [Naming.nonTerminals, List.length_map, List.length_zipIdx]
  refine ⟨ns, hupgrades, htypes, rfl, hstart, rfl, hchecked, hsize, hproduces, fun i => ?_⟩
  simp only [Grammar.productionsOf, Naming.nonTerminals, List.getElem?_map, List.getElem?_zipIdx]
  by_cases hi : i < ns.nonTerminalNames.length
  · rw [List.getElem?_eq_getElem hi]
    simp
  · -- No rule belongs to a number beyond the last non-terminal.
    rw [List.getElem?_eq_none (Nat.le_of_not_lt hi)]
    symm
    rw [Option.map_none, Option.map_none, Option.map_none, Option.getD_none, List.map_eq_nil_iff,
      List.filter_eq_nil_iff]
    rintro ⟨j, p⟩ hp hj
    obtain ⟨t, ht, r, hr, hx⟩ := ns.mem_ruleProductions_iff.1 hp
    obtain rfl : j = i := eq_of_beq hj
    exact hi (Naming.headNumber?_lt ht hr (Naming.production?_eq_some_iff.1 hx).1)

end SmallLang
