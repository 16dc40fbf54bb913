import Mathlib.Data.List.Forall2
import SmallLang.Proofs.Assembly.Extend
import SmallLang.Proofs.Renaming.Types

/-!
# Lowering types under other names

Types that differ in names only become grammars that differ in names only: the same numbers stand in
the same places, and the productions build nodes of the other kinds (`lowerSettled_of_renames`). The
two lists of types are compared step by step in the order in which terminals are numbered, so that
each step finds the terminals as they are on the other side (`Lower.Carries`).
-/

set_option autoImplicit false

namespace SmallLang

open List (Forall₂)

/-! ## Steps that yield the same -/

/-- Where the first step succeeds, so does the second one. It yields what `f` makes of the same, and
numbers the same terminals. -/
def Lower.Carries {α β : Type} (f : α → β) (x : Lower α) (y : Lower β) : Prop :=
  ∀ a v a', x a = .ok (v, a') → y a = .ok (f v, a')

namespace Lower

variable {α β γ δ : Type} {f : α → β} {x : Lower α} {y : Lower β}

theorem carries_refl (x : Lower α) : Lower.Carries id x x := fun _ _ _ h => h

theorem carries_pure (f : α → β) (v : α) : Lower.Carries f (pure v) (pure (f v)) := by
  intro a w a' h
  obtain ⟨rfl, rfl⟩ := Prod.mk.inj (Except.ok.inj h)
  rfl

theorem carries_lift {x : Except AssemblyError α} {y : Except AssemblyError β}
    (h : ∀ v, x = .ok v → y = .ok (f v)) : Lower.Carries f (monadLift x) (monadLift y) := by
  intro a v a' hx
  cases x with
  | error err =>
      exact absurd hx (by simp [monadLift, MonadLift.monadLift, StateT.lift, bind, Except.bind])
  | ok w =>
      obtain ⟨rfl, rfl⟩ : w = v ∧ a = a' := by
        simpa [monadLift, MonadLift.monadLift, StateT.lift, bind, Except.bind, pure,
          Except.pure] using hx
      rw [h w rfl]
      rfl

theorem Carries.bind {g : γ → δ} {k : α → Lower γ} {k' : β → Lower δ} (hx : x.Carries f y)
    (hk : ∀ v, (k v).Carries g (k' (f v))) : Lower.Carries g (x >>= k) (y >>= k') := by
  intro a w a'' h
  obtain ⟨⟨v, a'⟩, hv, hw⟩ := Except.bind_eq_ok_iff.1 h
  exact Except.bind_eq_ok_iff.2 ⟨(f v, a'), hx a v a' hv, hk v a' w a'' hw⟩

theorem Carries.map {g : γ → δ} {p : α → γ} {q : β → δ} (hx : x.Carries f y)
    (h : ∀ v, q (f v) = g (p v)) : Lower.Carries g (p <$> x) (q <$> y) := by
  rw [map_eq_pure_bind, map_eq_pure_bind]
  refine hx.bind fun v => ?_
  rw [h v]
  exact carries_pure g (p v)

theorem carries_mapM {F : α → Lower γ} {G : β → Lower δ} {g : γ → δ} {xs : List α} {ys : List β}
    (h : Forall₂ (fun x y => (F x).Carries g (G y)) xs ys) :
    Lower.Carries (List.map g) (xs.mapM F) (ys.mapM G) := by
  induction h with
  | nil => exact carries_pure _ []
  | cons hxy _ ih =>
      simp only [List.mapM_cons]
      refine hxy.bind fun v => ?_
      refine ih.bind fun vs => ?_
      exact carries_pure _ (v :: vs)

end Lower

namespace NodeType

variable {m ρ : String → String} {ts ts' : List NodeType}

theorem map_name_of_renamed (h : Forall₂ (Renamed m ρ) ts ts') :
    ts'.map NodeType.name = (ts.map NodeType.name).map ρ := by
  induction h with
  | nil => rfl
  | cons ht _ ih => rw [List.map_cons, List.map_cons, List.map_cons, ih, ht.name]

/-- A type stands in the same place as the type of the other name. -/
theorem findIdx?_name_of_renamed (h : Forall₂ (Renamed m ρ) ts ts') (hρ : Function.Injective ρ)
    (x : String) : ts'.findIdx? (·.name == ρ x) = ts.findIdx? (·.name == x) := by
  have hmap : ∀ (us : List NodeType) (y : String),
      us.findIdx? (·.name == y) = (us.map NodeType.name).findIdx? (· == y) := by
    intro us y
    rw [List.findIdx?_map]
    rfl
  rw [hmap, hmap, map_name_of_renamed h, List.findIdx?_map]
  refine congrArg (fun p => (ts.map NodeType.name).findIdx? p) (funext fun y => ?_)
  rw [Function.comp_apply, Bool.eq_iff_iff, beq_iff_eq, beq_iff_eq]
  exact hρ.eq_iff

theorem findIdx_name_of_renamed (h : Forall₂ (Renamed m ρ) ts ts') (hρ : Function.Injective ρ)
    (x : String) : ts'.findIdx (·.name == ρ x) = ts.findIdx (·.name == x) := by
  rw [List.findIdx_eq_getD_findIdx?, List.findIdx_eq_getD_findIdx?, findIdx?_name_of_renamed h hρ,
    h.length_eq]

theorem filter_of_renamed (h : Forall₂ (Renamed m ρ) ts ts') {p : NodeType → Bool}
    (hp : ∀ t t', Renamed m ρ t t' → p t' = p t) :
    Forall₂ (Renamed m ρ) (ts.filter p) (ts'.filter p) := by
  induction h with
  | nil => exact .nil
  | @cons t t' _ _ ht _ ih =>
      rw [List.filter_cons, List.filter_cons, hp t t' ht]
      split
      · exact .cons ht ih
      · exact ih

theorem uniqueStart_of_renamed (h : Forall₂ (Renamed m ρ) ts ts') {start : String}
    (hstart : uniqueStart ts = .ok start) : uniqueStart ts' = .ok (ρ start) := by
  have hfilter := filter_of_renamed h (p := NodeType.isStart) fun t t' ht => ht.isStart
  rw [uniqueStart] at hstart ⊢
  split at hstart
  · rename_i t hone
    rw [hone] at hfilter
    obtain ⟨t', rest, ht', hrest, hone'⟩ := List.forall₂_cons_left_iff.1 hfilter
    obtain rfl := List.forall₂_nil_left_iff.1 hrest
    obtain rfl := Except.ok.inj hstart
    rw [hone']
    exact congrArg Except.ok ht'.name
  · exact absurd hstart (by simp)

end NodeType

/-! ## Names under other names -/

namespace Naming

/-- The types of the second naming are those of the first one under other names, and what had a number
has the same number under the other name. -/
structure Renames (m ρ : String → String) (ns ns' : Naming) : Prop where
  types : Forall₂ (NodeType.Renamed m ρ) ns.types ns'.types
  injective : Function.Injective ρ
  mention : ∀ name i, ns.typeNumber? name = some i → ns'.typeNumber? (m name) = some i
  owner : ∀ t ∈ ns.types, ∀ i, ns.typeNumber? t.name = some i → ns'.typeNumber? (ρ t.name) = some i

/-- What the non-terminals are named after: a type, or a type and its list. -/
def owners (ns : Naming) : List (String × String) :=
  (ns.types.map fun t => (t.name, "")) ++ ns.listTypes.map fun name => (name, "@rest")

theorem nonTerminalNames_eq (ns : Naming) :
    ns.nonTerminalNames = ns.owners.map fun o => o.1 ++ o.2 := by
  rw [nonTerminalNames, owners, List.map_append, List.map_map, List.map_map]
  refine congrArg (· ++ _) (List.map_congr_left fun t _ => ?_)
  exact String.append_empty.symm

/-- Non-terminals are named after types. -/
theorem exists_of_mem_owners {ns : Naming} {o : String × String} (ho : o ∈ ns.owners) :
    ∃ t ∈ ns.types, o.1 = t.name ∧ (o.2 = "" ∨ o.2 = "@rest") := by
  rcases List.mem_append.1 ho with ho | ho
  · obtain ⟨t, ht, rfl⟩ := List.mem_map.1 ho
    exact ⟨t, ht, rfl, Or.inl rfl⟩
  · obtain ⟨name, hname, rfl⟩ := List.mem_map.1 ho
    obtain ⟨t, ht, rfl⟩ := List.mem_map.1 hname
    exact ⟨t, (List.mem_filter.1 ht).1, rfl, Or.inr rfl⟩

namespace Renames

variable {m ρ : String → String} {ns ns' : Naming} (h : Renames m ρ ns ns')
include h

theorem listTypes : ns'.listTypes = ns.listTypes.map ρ := by
  refine NodeType.map_name_of_renamed (m := m) (NodeType.filter_of_renamed h.types ?_)
  intro t t' ht
  rw [ht.rules, List.any_map]
  exact congrArg (fun p => t.rules.any p) (funext fun r => Rule.usesRest_rename m r)

theorem restNumber (owner : String) : ns'.restNumber (ρ owner) = ns.restNumber owner := by
  rw [Naming.restNumber, Naming.restNumber, h.types.length_eq, h.listTypes, List.findIdx_map]
  refine congrArg (fun p => _ + List.findIdx p ns.listTypes) (funext fun y => ?_)
  rw [Function.comp_apply, Bool.eq_iff_iff, beq_iff_eq, beq_iff_eq]
  exact h.injective.eq_iff

theorem owners : ns'.owners = ns.owners.map fun o => (ρ o.1, o.2) := by
  have hnames : ns'.types.map (fun t => (t.name, "")) =
      ns.types.map (fun t => (ρ t.name, "")) := by
    have hmap := congrArg (List.map fun name => (name, "")) (NodeType.map_name_of_renamed h.types)
    rwa [List.map_map, List.map_map, List.map_map] at hmap
  rw [Naming.owners, Naming.owners, List.map_append, List.map_map, List.map_map, h.listTypes,
    List.map_map, hnames]
  rfl

/-! ## Rules under other names -/

omit h in
theorem carries_lowerType {owner owner' name name' : String}
    (hnumber : ∀ i, ns.typeNumber? name = some i → ns'.typeNumber? name' = some i) :
    (ns.lowerType owner name).Carries id (ns'.lowerType owner' name') := by
  rw [lowerType]
  cases hn : ns.typeNumber? name with
  | none =>
      intro a v a' hv
      exact absurd hv (by simp [throw, throwThe, MonadExceptOf.throw, StateT.lift, bind, Except.bind])
  | some i =>
      rw [lowerType, hnumber i hn]
      exact Lower.carries_pure id i

variable {t : NodeType} (ht : t ∈ ns.types)
include ht

theorem carries_lowerSym (s : Sym) :
    (ns.lowerSym t.name s).Carries id (ns'.lowerSym (ρ t.name) (s.rename m)) := by
  induction s with
  | this =>
      simp only [lowerSym, Sym.rename]
      exact (carries_lowerType (h.owner t ht)).map fun _ => rfl
  | node name =>
      simp only [lowerSym, Sym.rename]
      exact (carries_lowerType (h.mention name)).map fun _ => rfl
  | terminal terminal =>
      simp only [lowerSym, Sym.rename]
      exact Lower.carries_refl _
  | field name target default ih =>
      simp only [lowerSym, Sym.rename]
      exact ih

theorem carries_lowerElement (e : Element) :
    (ns.lowerElement t.name e).Carries id (ns'.lowerElement (ρ t.name) (e.rename m)) := by
  cases e with
  | sym s => exact h.carries_lowerSym ht s
  | rest =>
      simp only [lowerElement, Element.rename, h.restNumber]
      exact Lower.carries_pure id _

theorem carries_lowerHead (head : Head) :
    (ns.lowerHead t.name head).Carries id (ns'.lowerHead (ρ t.name) (head.rename m)) := by
  cases head with
  | this => exact carries_lowerType (h.owner t ht)
  | type name => exact carries_lowerType (h.mention name)
  | rest =>
      simp only [lowerHead, Head.rename, h.restNumber]
      exact Lower.carries_pure id _

variable {t' : NodeType} (htt' : NodeType.Renamed m ρ t t')
include htt'

theorem carries_lowerRule (r : Rule) :
    (ns.lowerRule t r).Carries (Prod.map id (Production.rename ρ))
      (ns'.lowerRule t' (r.rename m)) := by
  rw [lowerRule, lowerRule, htt'.name]
  refine (h.carries_lowerHead ht r.head).bind fun head => ?_
  have hbody : Forall₂ (fun e e' =>
      (ns.lowerElement t.name e).Carries id (ns'.lowerElement (ρ t.name) e'))
      r.body (r.rename m).body := by
    rw [Rule.rename, List.forall₂_map_right_iff, List.forall₂_same]
    exact fun e _ => h.carries_lowerElement ht e
  refine (Lower.carries_mapM hbody).bind fun symbols => ?_
  refine (Lower.carries_lift fun c hc => htt'.construction hc).bind fun c => ?_
  rw [List.map_id_fun, id_eq, id_eq]
  exact Lower.carries_pure _ (head, Production.mk symbols c r.prec)

theorem carries_lowerNodeType :
    (ns.lowerNodeType t).Carries (List.map (Prod.map id (Production.rename ρ)))
      (ns'.lowerNodeType t') := by
  rw [lowerNodeType, lowerNodeType]
  refine (Lower.carries_lift (f := id) fun _ hc => htt'.checkFields hc).bind fun _ => ?_
  refine Lower.carries_mapM ?_
  rw [htt'.rules, List.forall₂_map_right_iff, List.forall₂_same]
  exact fun r _ => h.carries_lowerRule ht htt' r

omit ht htt'

theorem carries_lowerAll :
    ns.lowerAll.Carries (List.map (Prod.map id (Production.rename ρ))) ns'.lowerAll := by
  rw [lowerAll, lowerAll]
  have htypes : Forall₂ (fun t t' => (ns.lowerNodeType t).Carries
      (List.map (Prod.map id (Production.rename ρ))) (ns'.lowerNodeType t')) ns.types ns'.types := by
    refine ((List.forall₂_and_left _ _).2 ⟨fun t ht => ht, h.types⟩).imp ?_
    exact fun t t' ht => h.carries_lowerNodeType ht.1 ht.2
  refine (Lower.carries_mapM htypes).bind fun rows => ?_
  rw [← List.map_flatten]
  exact Lower.carries_pure _ rows.flatten

end Renames

end Naming

/-! ## Grammars under other names -/

/-- The second non-terminal is the first one under another name: it is named after the other name of a
type, and its productions build nodes of the other kinds. -/
structure NonTerminal.Renamed (types : List NodeType) (ρ : String → String)
    (nt nt' : NonTerminal) : Prop where
  name : ∃ t ∈ types, ∃ suffix, (suffix = "" ∨ suffix = "@rest") ∧ nt.name = t.name ++ suffix ∧
    nt'.name = ρ t.name ++ suffix
  productions : nt'.productions = nt.productions.map (Production.rename ρ)

theorem Naming.Renames.nonTerminals {m ρ : String → String} {ns ns' : Naming}
    (h : ns.Renames m ρ ns') (ps : List (Nat × Production)) :
    Forall₂ (NonTerminal.Renamed ns.types ρ) (ns.nonTerminals ps)
      (ns'.nonTerminals (ps.map (Prod.map id (Production.rename ρ)))) := by
  rw [Naming.nonTerminals, Naming.nonTerminals, ns.nonTerminalNames_eq, ns'.nonTerminalNames_eq,
    h.owners, List.map_map, List.zipIdx_map, List.zipIdx_map, List.forall₂_map_left_iff,
    List.forall₂_map_right_iff, List.forall₂_map_left_iff, List.forall₂_map_right_iff,
    List.forall₂_same]
  rintro ⟨o, i⟩ ho
  obtain ⟨t, ht, hname, hsuffix⟩ := Naming.exists_of_mem_owners (List.fst_mem_of_mem_zipIdx ho)
  refine ⟨⟨t, ht, o.2, hsuffix, ?_, ?_⟩, ?_⟩
  · rw [← hname]
    rfl
  · rw [← hname]
    rfl
  · simp only [Prod.map_apply, id_eq, List.filter_map, List.map_map]
    rfl

/-- Types under other names become the same grammar under other names. -/
theorem lowerSettled_of_renames {m ρ : String → String} {u u' : Upgrades}
    {types types' : List NodeType} (h : Naming.Renames m ρ ⟨u, types⟩ ⟨u', types'⟩)
    {lowered : Lowered} (hlowered : lowerSettled u types = .ok lowered) :
    ∃ nts, lowerSettled u' types' = .ok
        ⟨⟨nts, lowered.grammar.arena, lowered.grammar.start⟩, types', ρ lowered.start⟩ ∧
      Forall₂ (NonTerminal.Renamed types ρ) lowered.grammar.nonTerminals nts := by
  obtain ⟨start, hstart, hlowered⟩ := Except.bind_eq_ok_iff.1 hlowered
  obtain ⟨⟨productions, arena⟩, hall, hlowered⟩ := Except.bind_eq_ok_iff.1 hlowered
  obtain rfl := Except.ok.inj hlowered
  refine ⟨_, ?_, h.nonTerminals productions⟩
  refine Except.bind_eq_ok_iff.2 ⟨ρ start, NodeType.uniqueStart_of_renamed h.types hstart, ?_⟩
  refine Except.bind_eq_ok_iff.2 ⟨_, h.carries_lowerAll _ _ _ hall, ?_⟩
  rw [NodeType.findIdx_name_of_renamed h.types h.injective]
  rfl

end SmallLang
