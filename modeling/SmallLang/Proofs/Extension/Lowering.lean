import SmallLang.Proofs.Extension.Grammar
import SmallLang.Proofs.Assembly.Extend
import SmallLang.Proofs.Assembly.Succeeds

/-!
# Lowering further types

Types that come after others, with no upgrades among them, are lowered after them. The terminals that
the first types use have their numbers by then (`Naming.extends_of_lowerAll`), and so have the first
types themselves; only the rests of lists move up. So the grammar of all types has grown from that of
the first ones (`Naming.Makes.grows`).
-/

set_option autoImplicit false

namespace SmallLang

open List (Forall₂)

/-! ## The same terminals -/

/-- From one arena the two steps lead to one arena, if both succeed. -/
def Lower.SameArena {α β : Type} (x : Lower α) (y : Lower β) : Prop :=
  ∀ a v a' w b', x a = .ok (v, a') → y a = .ok (w, b') → a' = b'

namespace Lower

variable {α β γ δ : Type}

/-- A step that numbers no terminal. -/
def Keeps (x : Lower α) : Prop := ∀ a v a', x a = .ok (v, a') → a' = a

theorem keeps_pure (v : α) : Lower.Keeps (pure v) := by
  intro a w a' h
  exact ((Prod.mk.inj (Except.ok.inj h)).2).symm

theorem keeps_throw (err : AssemblyError) : Lower.Keeps (throw err : Lower α) := by
  intro a v a' h
  exact absurd h (by simp [throw, throwThe, MonadExceptOf.throw, StateT.lift, bind, Except.bind])

theorem keeps_lift (x : Except AssemblyError α) : Lower.Keeps (monadLift x : Lower α) := by
  intro a v a' h
  cases x with
  | error err =>
      exact absurd h (by simp [monadLift, MonadLift.monadLift, StateT.lift, bind, Except.bind])
  | ok w =>
      obtain ⟨-, rfl⟩ : w = v ∧ a = a' := by
        simpa [monadLift, MonadLift.monadLift, StateT.lift, bind, Except.bind, pure,
          Except.pure] using h
      rfl

theorem Keeps.sameArena {x : Lower α} {y : Lower β} (hx : x.Keeps) (hy : y.Keeps) :
    x.SameArena y := by
  intro a v a' w b' h h'
  rw [hx a v a' h, hy a w b' h']

theorem SameArena.bind {x : Lower α} {y : Lower β} {f : α → Lower γ} {f' : β → Lower δ}
    (h : x.SameArena y) (hf : ∀ v w, (f v).SameArena (f' w)) : (x >>= f).SameArena (y >>= f') := by
  intro a v a' w b' hx hy
  obtain ⟨⟨v₁, a₁⟩, hx₁, hx₂⟩ := Except.bind_eq_ok_iff.1 hx
  obtain ⟨⟨w₁, b₁⟩, hy₁, hy₂⟩ := Except.bind_eq_ok_iff.1 hy
  obtain rfl := h a v₁ a₁ w₁ b₁ hx₁ hy₁
  exact hf v₁ w₁ a₁ v a' w b' hx₂ hy₂

theorem SameArena.map {x : Lower α} {y : Lower β} (h : x.SameArena y) (f : α → γ) (f' : β → δ) :
    (f <$> x).SameArena (f' <$> y) := by
  rw [map_eq_pure_bind, map_eq_pure_bind]
  exact h.bind fun v w => (keeps_pure _).sameArena (keeps_pure _)

theorem sameArena_mapM {f : α → Lower β} {f' : α → Lower γ} (xs : List α)
    (h : ∀ x ∈ xs, (f x).SameArena (f' x)) : (xs.mapM f).SameArena (xs.mapM f') := by
  induction xs with
  | nil => exact (keeps_pure _).sameArena (keeps_pure _)
  | cons x xs ih =>
      simp only [List.mapM_cons]
      refine (h x List.mem_cons_self).bind fun _ _ => ?_
      refine (ih fun x' hx' => h x' (List.mem_cons_of_mem _ hx')).bind fun _ _ => ?_
      exact (keeps_pure _).sameArena (keeps_pure _)

end Lower

namespace Naming

variable (ns ns' : Naming)

theorem keeps_lowerType (owner name : String) : (ns.lowerType owner name).Keeps := by
  rw [lowerType]
  cases ns.typeNumber? name with
  | none => exact Lower.keeps_throw _
  | some i => exact Lower.keeps_pure i

/-- Which terminals a symbol adds does not depend on the types around it. -/
theorem sameArena_lowerSym (owner : String) (s : Sym) :
    (ns.lowerSym owner s).SameArena (ns'.lowerSym owner s) := by
  induction s with
  | this =>
      exact ((ns.keeps_lowerType _ _).sameArena (ns'.keeps_lowerType _ _)).map _ _
  | node name =>
      exact ((ns.keeps_lowerType _ _).sameArena (ns'.keeps_lowerType _ _)).map _ _
  | terminal t =>
      intro a v a' w b' h h'
      exact (Prod.mk.inj (Except.ok.inj (h.symm.trans h'))).2
  | field name target default ih => exact ih

theorem sameArena_lowerElement (owner : String) (x : Element) :
    (ns.lowerElement owner x).SameArena (ns'.lowerElement owner x) := by
  cases x with
  | sym s => exact ns.sameArena_lowerSym ns' owner s
  | rest => exact (Lower.keeps_pure _).sameArena (Lower.keeps_pure _)

theorem keeps_lowerHead (owner : String) (head : Head) : (ns.lowerHead owner head).Keeps := by
  cases head with
  | this => exact ns.keeps_lowerType owner owner
  | type name => exact ns.keeps_lowerType owner name
  | rest => exact Lower.keeps_pure _

theorem sameArena_lowerRule (t : NodeType) (r : Rule) :
    (ns.lowerRule t r).SameArena (ns'.lowerRule t r) := by
  refine ((ns.keeps_lowerHead _ _).sameArena (ns'.keeps_lowerHead _ _)).bind fun _ _ => ?_
  refine (Lower.sameArena_mapM _ fun x _ => ns.sameArena_lowerElement ns' t.name x).bind fun _ _ => ?_
  refine ((Lower.keeps_lift _).sameArena (Lower.keeps_lift _)).bind fun _ _ => ?_
  exact (Lower.keeps_pure _).sameArena (Lower.keeps_pure _)

theorem sameArena_lowerNodeType (t : NodeType) :
    (ns.lowerNodeType t).SameArena (ns'.lowerNodeType t) := by
  refine ((Lower.keeps_lift _).sameArena (Lower.keeps_lift _)).bind fun _ _ => ?_
  exact Lower.sameArena_mapM _ fun r _ => ns.sameArena_lowerRule ns' t r

variable {ns ns'}

/-- Types that come after others leave the terminals of these where they are. -/
theorem extends_of_lowerAll {more : List NodeType} (htypes : ns'.types = ns.types ++ more)
    {productions productions' : List (Nat × Production)} {arena arena' : Arena}
    (h : ns.lowerAll.run Arena.empty = .ok (productions, arena))
    (h' : ns'.lowerAll.run Arena.empty = .ok (productions', arena')) : arena.Extends arena' := by
  obtain ⟨⟨rows, a⟩, hrows, hpure⟩ := Except.bind_eq_ok_iff.1 h
  obtain ⟨-, rfl⟩ := Prod.mk.inj (Except.ok.inj hpure)
  obtain ⟨⟨rows', b⟩, hrows', hpure'⟩ := Except.bind_eq_ok_iff.1 h'
  obtain ⟨-, rfl⟩ := Prod.mk.inj (Except.ok.inj hpure')
  rw [htypes, List.mapM_append] at hrows'
  obtain ⟨⟨first, b₁⟩, hfirst, hsecond⟩ := Except.bind_eq_ok_iff.1 hrows'
  have hsame := Lower.sameArena_mapM ns.types
    (fun t _ => ns.sameArena_lowerNodeType ns' t) Arena.empty rows _ first b₁ hrows hfirst
  obtain rfl := hsame
  have hdescribes := ((Lower.describes_mapM more fun t _ =>
    ns'.describes_lowerNodeType t).map fun second => first ++ second)
  rw [map_eq_pure_bind] at hdescribes
  exact (hdescribes _ _ _ hsecond).1

/-! ## Numbers after growing -/

section Append

variable {types more : List NodeType}

theorem typeNumber?_append {name : String} {i : Nat}
    (h : typeNumber? ⟨[], types⟩ name = some i) :
    typeNumber? ⟨[], types ++ more⟩ name = some i := by
  rw [typeNumber?_of_upgrades_nil] at h ⊢
  rw [List.findIdx?_append, h]
  rfl

/-- A further type has a further number. -/
theorem le_of_typeNumber?_append (hnodup : ((types ++ more).map NodeType.name).Nodup) {t : NodeType}
    (ht : t ∈ more) {i : Nat} (h : typeNumber? ⟨[], types ++ more⟩ t.name = some i) :
    types.length ≤ i := by
  rw [typeNumber?_of_upgrades_nil, List.findIdx?_eq_some_iff_getElem] at h
  obtain ⟨hi, hname, -⟩ := h
  by_contra hlt
  rw [List.getElem_append_left (Nat.lt_of_not_le hlt)] at hname
  rw [List.map_append] at hnodup
  exact List.disjoint_of_nodup_append hnodup
    (List.mem_map.2 ⟨_, List.getElem_mem _, beq_iff_eq.1 hname⟩) (List.mem_map.2 ⟨t, ht, rfl⟩)

variable (more) in
theorem restNumber_append {t : NodeType} {r : Rule} (ht : t ∈ types) (hr : r ∈ t.rules)
    (huses : r.usesRest = true) :
    restNumber ⟨[], types ++ more⟩ t.name =
      renumber types.length (types ++ more).length (restNumber ⟨[], types⟩ t.name) := by
  have hmem : t.name ∈ listTypes ⟨[], types⟩ :=
    List.mem_map.2 ⟨t, List.mem_filter.2 ⟨ht, List.any_eq_true.2 ⟨r, hr, huses⟩⟩, rfl⟩
  have hlists : listTypes ⟨[], types ++ more⟩ = listTypes ⟨[], types⟩ ++ listTypes ⟨[], more⟩ := by
    simp only [listTypes, List.filter_append, List.map_append]
  have hlt : (listTypes ⟨[], types⟩).findIdx (· == t.name) < (listTypes ⟨[], types⟩).length :=
    List.findIdx_lt_length_of_exists ⟨t.name, hmem, beq_self_eq_true _⟩
  rw [renumber_of_le (length_types_le_restNumber ⟨[], types⟩ _), restNumber, restNumber, hlists,
    List.findIdx_append, if_pos hlt]
  simp only
  omega

theorem symbol?_append {arena arena' : Arena} (harena : arena.Extends arena') {owner : String}
    {s : Sym} {x : Symbol} (h : symbol? ⟨[], types⟩ arena owner s = some x) :
    symbol? ⟨[], types ++ more⟩ arena' owner s =
      some (x.renumber types.length (types ++ more).length) := by
  have hnumber : ∀ {name x}, (typeNumber? ⟨[], types⟩ name).map Symbol.nonTerminal = some x →
      (typeNumber? ⟨[], types ++ more⟩ name).map Symbol.nonTerminal =
        some (x.renumber types.length (types ++ more).length) := by
    intro name x hx
    obtain ⟨i, hi, rfl⟩ := Option.map_eq_some_iff.1 hx
    rw [typeNumber?_append hi, Option.map_some, Symbol.renumber, renumber_of_lt (typeNumber?_lt hi)]
  induction s with
  | this => exact hnumber h
  | node name => exact hnumber h
  | terminal t =>
      obtain ⟨i, hi, rfl⟩ := Option.map_eq_some_iff.1 h
      simp only [symbol?, harena.indexOf? hi, Option.map_some]
      rfl
  | field name target default ih => exact ih h

variable (more) in
/-- The production of a rule keeps its form. -/
theorem production?_append {arena arena' : Arena} (harena : arena.Extends arena') {t : NodeType}
    {r : Rule} (ht : t ∈ types) (hr : r ∈ t.rules) {i : Nat} {p : Production}
    (h : production? ⟨[], types⟩ arena t r = some (i, p)) :
    production? ⟨[], types ++ more⟩ arena' t r =
      some (renumber types.length (types ++ more).length i,
        p.renumber types.length (types ++ more).length) := by
  obtain ⟨hhead, hbody, hconstruction, hprec⟩ := production?_eq_some_iff.1 h
  refine production?_eq_some_iff.2 ⟨?_, ?_, hconstruction, hprec⟩
  · cases hcase : r.head with
    | this =>
        rw [hcase] at hhead
        rw [renumber_of_lt (typeNumber?_lt hhead)]
        exact typeNumber?_append hhead
    | type name =>
        rw [hcase] at hhead
        rw [renumber_of_lt (typeNumber?_lt hhead)]
        exact typeNumber?_append hhead
    | rest =>
        rw [hcase] at hhead
        obtain rfl := Option.some.inj hhead
        have hrest := restNumber_append more ht hr (by simp [Rule.usesRest, hcase])
        rw [headNumber?, hrest]
  · rw [Production.renumber, List.forall₂_map_right_iff]
    refine ((List.forall₂_and_left r.body p.symbols).2 ⟨fun x hx => hx, hbody⟩).imp ?_
    rintro x s ⟨hx, hsymbol⟩
    cases x with
    | sym y => exact symbol?_append harena hsymbol
    | rest =>
        obtain rfl := Option.some.inj hsymbol
        have hrest := restNumber_append more ht hr (by simp [Rule.usesRest, hx])
        rw [elementSymbol?, hrest, Symbol.renumber]

/-- A unit that a further type declares leads to a further type. -/
theorem le_of_unitTarget? (hnodup : ((types ++ more).map NodeType.name).Nodup) {arena : Arena}
    {t : NodeType} {r : Rule} (ht : t ∈ more) (hbuilt : r.Built) {i target : Nat} {p : Production}
    (h : production? ⟨[], types ++ more⟩ arena t r = some (i, p))
    (hunit : p.unitTarget? = some target) : types.length ≤ target :=
  le_of_typeNumber?_append hnodup ht (of_unitTarget? hbuilt h hunit).1

/-- What a further type declares for a type that was there is a unit. -/
theorem exists_unitTarget? (hnodup : ((types ++ more).map NodeType.name).Nodup) {arena : Arena}
    {t : NodeType} {r : Rule} (ht : t ∈ more) (hbuilt : r.Built) {i : Nat} {p : Production}
    (h : production? ⟨[], types ++ more⟩ arena t r = some (i, p)) (hi : i < types.length) :
    ∃ target, p.unitTarget? = some target := by
  obtain ⟨symbols, construction, prec⟩ := p
  obtain ⟨hhead, hbody, hconstruction, -⟩ := production?_eq_some_iff.1 h
  have hthis : r.head ≠ .this := by
    intro hthis
    rw [hthis] at hhead
    exact absurd hi (Nat.not_lt.2 (le_of_typeNumber?_append hnodup ht hhead))
  have hrest : r.head ≠ .rest := by
    intro hrest
    rw [hrest] at hhead
    obtain rfl := Option.some.inj hhead
    have hle := length_types_le_restNumber ⟨[], types ++ more⟩ t.name
    simp only [List.length_append] at hle
    omega
  cases hbuilt with
  | handOn name prec' =>
      obtain rfl := Except.ok.inj hconstruction
      cases hbody with
      | cons hsymbol hbody =>
          cases hbody
          obtain ⟨j, -, rfl⟩ := Option.map_eq_some_iff.1 hsymbol
          exact ⟨j, rfl⟩
  | construct body prec' => exact absurd rfl hthis
  | skip body prec' => exact absurd rfl hthis
  | emptyList => exact absurd rfl hthis
  | listHead element => exact absurd rfl hthis
  | listNext divider element => exact absurd rfl hrest
  | listEnd => exact absurd rfl hrest

end Append

/-! ## The grammar of all types -/

namespace Makes

variable {types more declared declared' : List NodeType} {lowered lowered' : Lowered}
  (h : Makes ⟨[], types⟩ declared lowered) (h' : Makes ⟨[], types ++ more⟩ declared' lowered')
  (harena : lowered.grammar.arena.Extends lowered'.grammar.arena)

include h h' in
theorem start_append : lowered'.grammar.start = lowered.grammar.start := by
  have hstart := h.uniqueStart
  have hstart' := h'.uniqueStart
  rw [SmallLang.uniqueStart] at hstart hstart'
  split at hstart
  · rename_i t hfilter
    split at hstart'
    · rename_i t' hfilter'
      simp only [List.filter_append] at hfilter hfilter'
      rw [hfilter] at hfilter'
      obtain ⟨rfl, -⟩ := List.cons.inj hfilter'
      have hmem : t ∈ types := (List.mem_filter.1 (hfilter ▸ List.mem_singleton.2 rfl)).1
      have hlt : types.findIdx (·.name == t.name) < types.length :=
        List.findIdx_lt_length_of_exists ⟨t, hmem, beq_self_eq_true _⟩
      rw [h.start, h'.start, ← Except.ok.inj hstart, ← Except.ok.inj hstart',
        List.findIdx_append, if_pos hlt]
    · exact absurd hstart' (by simp)
  · exact absurd hstart (by simp)

include h h' harena

/-- The productions of a non-terminal, followed by those that further types declare for it. -/
theorem exists_added (i : Nat) :
    ∃ added, lowered'.grammar.productionsOf (renumber types.length (types ++ more).length i) =
        (lowered.grammar.productionsOf i).map
          (Production.renumber types.length (types ++ more).length) ++ added ∧
      ∀ p ∈ added, ∃ t ∈ more, ∃ r ∈ t.rules,
        production? ⟨[], types ++ more⟩ lowered'.grammar.arena t r =
          some (renumber types.length (types ++ more).length i, p) := by
  let moved (x : Nat × Production) : Nat × Production :=
    (renumber types.length (types ++ more).length x.1,
      x.2.renumber types.length (types ++ more).length)
  -- The rules that were there make the same productions with moved numbers.
  have hfirst : (types.flatMap fun t => t.rules.filterMap
      (production? ⟨[], types ++ more⟩ lowered'.grammar.arena t)) =
      (ruleProductions ⟨[], types⟩ lowered.grammar.arena).map moved := by
    rw [ruleProductions, List.map_flatMap]
    refine List.flatMap_congr fun t ht => ?_
    rw [List.map_filterMap]
    refine List.filterMap_congr fun r hr => ?_
    obtain ⟨x, hx⟩ := h.produces t ht r hr
    rw [hx, production?_append more harena ht hr hx]
    rfl
  -- Moving numbers is injective, so no other production comes to the non-terminal.
  have hsame : (fun x : Nat × Production =>
      (moved x).1 == renumber types.length (types ++ more).length i) = fun x => x.1 == i := by
    funext x
    have hle : types.length ≤ (types ++ more).length := by simp
    rw [Bool.eq_iff_iff, beq_iff_eq, beq_iff_eq]
    exact ⟨renumber_injective hle, fun heq => by rw [← heq]⟩
  refine ⟨((more.flatMap fun t => t.rules.filterMap
    (production? ⟨[], types ++ more⟩ lowered'.grammar.arena t)).filter
      (·.1 == renumber types.length (types ++ more).length i)).map Prod.snd, ?_, ?_⟩
  · rw [h'.productionsOf_eq, h.productionsOf_eq, ruleProductions, List.flatMap_append, hfirst,
      List.filter_append, List.map_append, List.filter_map, List.map_map, List.map_map]
    refine congrArg (· ++ _) ?_
    exact congrArg (fun keep => List.map _ (List.filter keep _)) hsame
  · intro p hp
    obtain ⟨⟨j, q⟩, hq, rfl⟩ := List.mem_map.1 hp
    obtain ⟨hq, hj⟩ := List.mem_filter.1 hq
    obtain rfl := beq_iff_eq.1 hj
    obtain ⟨t, ht, hq⟩ := List.mem_flatMap.1 hq
    obtain ⟨r, hr, hq⟩ := List.mem_filterMap.1 hq
    exact ⟨t, ht, r, hr, hq⟩

/-- The grammar of all types has grown from the grammar of the first ones. -/
theorem grows (hbuilt : ∀ t ∈ types ++ more, t.Built) :
    Grammar.Grows types.length (types ++ more).length lowered.grammar lowered'.grammar := by
  have hnodup := Upgrades.nodup_names_of_settle h'.settle
  refine ⟨by simp, start_append h h', ?_, ?_, ?_⟩
  · intro m i q hq
    obtain ⟨added, hproductions, -⟩ := exists_added h h' harena m
    have hlt := (List.getElem?_eq_some_iff.1 hq).1
    rw [Grammar.production?, hproductions, List.getElem?_append_left (by simpa using hlt),
      List.getElem?_map]
    exact congrArg (Option.map _) hq
  · intro m i p hm hp
    obtain ⟨added, hproductions, hadded⟩ := exists_added h h' harena m
    rw [renumber_of_lt hm] at hproductions hadded
    rw [Grammar.production?, hproductions] at hp
    -- A production of a type is one that was there, or a unit of a further type.
    rcases Nat.lt_or_ge i (lowered.grammar.productionsOf m).length with hlt | hge
    · exact Or.inl ⟨_, List.getElem?_eq_getElem hlt⟩
    · rw [List.getElem?_append_right (by simpa using hge)] at hp
      obtain ⟨t, ht, r, hr, hprod⟩ := hadded p (List.mem_of_getElem? hp)
      have hrule := (hbuilt t (List.mem_append_right _ ht)).rules r hr
      obtain ⟨target, htarget⟩ := exists_unitTarget? hnodup ht hrule hprod hm
      exact Or.inr ⟨target, htarget, le_of_unitTarget? hnodup ht hrule hprod htarget⟩
  · rintro m target hm ⟨p, hp, hunit, -⟩
    obtain ⟨t, ht, r, hr, hprod⟩ := (h'.mem_productionsOf_iff m p).1 hp
    have hrule := (hbuilt t ht).rules r hr
    rcases List.mem_append.1 ht with ht | ht
    · -- A rule that was there builds no unit of a further type.
      exfalso
      obtain ⟨⟨i, q⟩, hq⟩ := h.produces t ht r hr
      have hmoved := production?_append more harena ht hr hq
      obtain ⟨rfl, -⟩ := Prod.mk.inj (Option.some.inj (hprod.symm.trans hmoved))
      have hdeclared := declared_of_built (List.mem_append_left _ ht) hr hrule hprod
      have hlt := (hdeclared.lt_of_unitTarget? hunit).1
      by_cases hi : i < types.length
      · rw [renumber_of_lt hi] at hm
        omega
      · rw [renumber_of_le (Nat.le_of_not_lt hi)] at hlt
        simp only at hlt
        omega
    · exact le_of_unitTarget? hnodup ht hrule hprod hunit

end Makes

end Naming

end SmallLang
