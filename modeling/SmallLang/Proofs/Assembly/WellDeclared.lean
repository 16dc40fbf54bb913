import SmallLang.Proofs.Assembly.Fields
import SmallLang.Proofs.Assembly.Terminals
import SmallLang.Proofs.Renaming.Substitution
import SmallLang.Proofs.Reordering.Settle

/-!
# Which declarations are lowered

Lowering has many ways to refuse a list of declarations, and it meets them one after the other while it
numbers types and terminals. `WellDeclared` says the same in terms of the declarations alone: which upgrades
may stand beside each other, which types are left when all chains of upgrades were followed, and what their
rules may declare and mention. Lowering succeeds exactly on such lists (`lower_ok_iff_wellDeclared`).

Chains of upgrades may be circular. The walk along a chain counts its steps and gives up when there are more
of them than upgrades (`Upgrades.Walk`); it ends on every table, and only walks without an end are given up
(`Upgrades.walk_final?`).
-/

set_option autoImplicit false

namespace SmallLang

open Upgrades (ChainEnds Upgraded)

/-! ## Well-formed declarations -/

/-- What an element stands for below the names of fields. -/
def Sym.target : Sym → Sym
  | .field _ target _ => target.target
  | s => s

namespace Rule

/-- The rule builds another type, or has a type in its body, by that name. -/
def Mentions (r : Rule) (name : String) : Prop :=
  r.head = .type name ∨ ∃ s, .sym s ∈ r.body ∧ s.target = .node name

/-- The body of the rule has the terminal, perhaps as a field. -/
def Uses (r : Rule) (t : Terminal) : Prop := ∃ s, .sym s ∈ r.body ∧ s.target = .terminal t

/-- The names of the fields that the body declares. -/
def fieldNames (r : Rule) : List String := r.fields.map FieldDecl.name

end Rule

/-- The bodies that build nodes of the type declare each field once, and all of them the same fields. The
scoping of the type mentions only these. -/
structure NodeType.FieldsAgree (t : NodeType) : Prop where
  once : ∀ r ∈ t.buildingRules, r.fieldNames.Nodup
  same : ∀ r ∈ t.buildingRules, ∀ r' ∈ t.buildingRules, ∀ name,
    name ∈ r.fieldNames ↔ name ∈ r'.fieldNames
  scoping : ∀ name ∈ t.scopingNames, ∃ r ∈ t.buildingRules, name ∈ r.fieldNames

/-- The type is left when every declaration was replaced by the end of its chain of upgrades. -/
def Remaining (declared : List NodeType) (s : NodeType) : Prop := ∃ t ∈ declared, ChainEnds declared t s

/-- The declarations make a language. -/
structure WellDeclared (declared : List NodeType) : Prop where
  /-- No name is upgraded by types of different names. -/
  compatible : Upgrades.Compatible declared
  /-- All chains of upgrades end. -/
  chains : ∀ t ∈ declared, ∃ last, ChainEnds declared t last
  /-- Of each name one type is left. -/
  unique : ∀ s s', Remaining declared s → Remaining declared s' → s.name = s'.name → s = s'
  /-- One of the types that are left is where parsing starts. -/
  start : ∃! s, Remaining declared s ∧ s.isStart = true
  fields : ∀ s, Remaining declared s → s.FieldsAgree
  /-- A body that hands on the place of the type itself has one such place. -/
  skips : ∀ s, Remaining declared s → ∀ r ∈ s.rules, r.template = .skip → r.body.count (.sym .this) = 1
  /-- What is mentioned is left or upgraded. -/
  mentions : ∀ s, Remaining declared s → ∀ r ∈ s.rules, ∀ name, r.Mentions name →
    (∃ s', Remaining declared s' ∧ s'.name = name) ∨ Upgraded declared name
  /-- Of each name one class of tokens is used. -/
  classes : ∀ s s', Remaining declared s → Remaining declared s' → ∀ r ∈ s.rules, ∀ r' ∈ s'.rules,
    ∀ c c', r.Uses (.ofClass c) → r'.Uses (.ofClass c') → c.name = c'.name → c = c'

/-! ## Walks with counted steps -/

namespace Upgrades

/-- A walk along a chain of upgrades that has taken so many steps and stands at a type ends, at a type or
without one: it is given up as soon as it has taken more steps than there are upgrades. -/
inductive Walk (u : Upgrades) : Nat → NodeType → Option NodeType → Prop
  | arrived {steps : Nat} {t : NodeType} (h : u.lookup t.name = none) : Walk u steps t (some t)
  | givenUp {steps : Nat} {t next : NodeType} (h : u.lookup t.name = some next)
      (hsteps : u.length < steps + 1) : Walk u steps t none
  | step {steps : Nat} {t next : NodeType} {last : Option NodeType} (h : u.lookup t.name = some next)
      (hsteps : steps + 1 ≤ u.length) (hrest : Walk u (steps + 1) next last) : Walk u steps t last

theorem walk_follow {u : Upgrades} {n steps : Nat} (h : n + steps = u.length) (t : NodeType) :
    Walk u steps t (u.follow (n + 1) t) := by
  induction n generalizing steps t with
  | zero =>
      cases hlookup : u.lookup t.name with
      | none =>
          rw [follow_succ_of_lookup_eq_none hlookup]
          exact .arrived hlookup
      | some next =>
          rw [follow_succ_of_lookup_eq_some hlookup]
          exact .givenUp hlookup (by omega)
  | succ n ih =>
      cases hlookup : u.lookup t.name with
      | none =>
          rw [follow_succ_of_lookup_eq_none hlookup]
          exact .arrived hlookup
      | some next =>
          rw [follow_succ_of_lookup_eq_some hlookup]
          exact .step hlookup (by omega) (ih (by omega) next)

/-- The walk from a type ends, and it ends at the type that finally takes its place, if there is one. -/
theorem walk_final? (u : Upgrades) (t : NodeType) : Walk u 0 t (u.final? t) :=
  walk_follow (Nat.add_zero _) t

end Upgrades

/-! ## The checks one by one -/

theorem firstRepeated?_eq_none_iff {seen names : List String} :
    firstRepeated? seen names = none ↔ names.Nodup ∧ ∀ n ∈ names, n ∉ seen := by
  refine ⟨nodup_of_firstRepeated?, ?_⟩
  induction names generalizing seen with
  | nil => exact fun _ => rfl
  | cons name names ih =>
      rintro ⟨hnodup, hseen⟩
      obtain ⟨hnot, hnodup⟩ := List.nodup_cons.1 hnodup
      obtain ⟨hname, hseen⟩ := List.forall_mem_cons.1 hseen
      rw [firstRepeated?, if_neg (by simpa using hname)]
      refine ih ⟨hnodup, fun n hn hmem => ?_⟩
      rcases List.mem_cons.1 hmem with rfl | hmem
      · exact hnot hn
      · exact hseen n hn hmem

namespace NodeType

variable {t : NodeType}

/-- The fields of a type are those of the first body that builds its nodes. -/
theorem fieldNames_eq {first : Rule} {others : List Rule} (h : t.buildingRules = first :: others) :
    t.fieldNames = first.fieldNames := by
  simp [fieldNames, fields, h, Rule.fieldNames]

theorem checkField_eq_ok_iff {name : String} : t.checkField name = .ok () ↔ name ∈ t.fieldNames := by
  rw [← List.contains_iff_mem, checkField]
  split
  · rename_i hfield
    exact iff_of_true rfl hfield
  · rename_i hnot
    exact iff_of_false (by simp) hnot

theorem checkBody_eq_ok_of_perm {r : Rule} (hnodup : r.fieldNames.Nodup)
    (hperm : t.fieldNames.Perm r.fieldNames) : t.checkBody r = .ok () := by
  have hrepeated : firstRepeated? [] r.fieldNames = none :=
    firstRepeated?_eq_none_iff.2 ⟨hnodup, fun _ _ => List.not_mem_nil⟩
  have hsame : sameNames t.fieldNames r.fieldNames = true := by
    rw [sameNames, Bool.and_eq_true, beq_iff_eq, List.all_eq_true]
    refine ⟨hperm.length_eq, fun name hname => ?_⟩
    exact List.contains_iff_mem.2 (hperm.mem_iff.1 hname)
  rw [Rule.fieldNames] at hrepeated hsame
  rw [checkBody]
  simp only [hrepeated, hsame, if_true]

theorem fieldsAgree_of_checkFields (h : t.checkFields = .ok ()) : t.FieldsAgree := by
  obtain ⟨⟨⟩, -, hscoping⟩ := Except.bind_eq_ok_iff.1 h
  refine ⟨fun r hr => (t.perm_fieldNames h hr).1, fun r hr r' hr' name => ?_, fun name hname => ?_⟩
  · exact ((t.perm_fieldNames h hr).2.symm.trans (t.perm_fieldNames h hr').2).mem_iff
  · have hfield := checkField_eq_ok_iff.1 (forall_of_forM_eq_ok hscoping name hname)
    cases hrules : t.buildingRules with
    | nil => simp [fieldNames, fields, hrules] at hfield
    | cons first others =>
        rw [fieldNames_eq hrules] at hfield
        exact ⟨first, List.mem_cons_self, hfield⟩

theorem FieldsAgree.checkFields_eq_ok (h : t.FieldsAgree) : t.checkFields = .ok () := by
  cases hrules : t.buildingRules with
  | nil =>
      -- Without such a body there are no fields, and the scoping mentions none.
      have hscoping : t.scopingNames = [] := by
        rw [List.eq_nil_iff_forall_not_mem]
        intro name hname
        obtain ⟨r, hr, -⟩ := h.scoping name hname
        rw [hrules] at hr
        exact absurd hr List.not_mem_nil
      rw [checkFields, hrules, hscoping]
      rfl
  | cons first others =>
      have hfirst : first ∈ t.buildingRules := by
        rw [hrules]
        exact List.mem_cons_self
      have hnames := fieldNames_eq hrules
      refine Except.bind_eq_ok_iff.2 ⟨(), forM_eq_ok fun r hr => ?_, forM_eq_ok fun name hname => ?_⟩
      · apply checkBody_eq_ok_of_perm (h.once r hr)
        rw [hnames, List.perm_ext_iff_of_nodup (h.once first hfirst) (h.once r hr)]
        exact h.same first hfirst r hr
      · obtain ⟨r, hr, hfield⟩ := h.scoping name hname
        rw [checkField_eq_ok_iff, hnames]
        exact (h.same r hr first hfirst name).1 hfield

/-- The fields of a type pass the check exactly if its bodies agree on them. -/
theorem checkFields_eq_ok_iff : t.checkFields = .ok () ↔ t.FieldsAgree :=
  ⟨fieldsAgree_of_checkFields, FieldsAgree.checkFields_eq_ok⟩

/-- The places of the type itself in a body are as many as its occurrences. -/
theorem length_thisPlaces (r : Rule) : r.thisPlaces.length = r.body.count (.sym .this) := by
  rw [Rule.thisPlaces]
  have hcount : ∀ place : Element × Nat → Option Nat,
      (∀ e i, place (e, i) = if e = .sym .this then some i else none) →
        ∀ (es : List Element) (k : Nat),
          ((es.zipIdx k).filterMap place).length = es.count (.sym .this) := by
    intro place hplace es
    induction es with
    | nil => exact fun k => rfl
    | cons e es ih =>
        intro k
        rw [List.zipIdx_cons, List.filterMap_cons, List.count_cons, hplace]
        by_cases he : e = .sym .this
        · simp [he, ih]
        · simp [he, ih]
  exact hcount _ (fun e i => rfl) r.body 0

theorem exists_construction_iff {r : Rule} :
    (∃ c, t.construction r = .ok c) ↔ (r.template = .skip → r.body.count (.sym .this) = 1) := by
  rw [← length_thisPlaces]
  unfold construction
  cases r.template with
  | skip =>
      simp only [true_implies]
      split
      · rename_i i hplaces
        simp [hplaces]
      · rename_i hplaces
        simp only [reduceCtorEq, exists_false, false_iff]
        intro hone
        obtain ⟨i, hi⟩ := List.length_eq_one_iff.1 hone
        exact hplaces i hi
  | construct => simp
  | handOn => simp
  | emptyList => simp
  | listHead => simp
  | listNext => simp

end NodeType

/-- An element resolves if what it stands for below the names of fields does. -/
theorem Naming.resolves_iff {ns : Naming} {pool : Terminal → Prop} {owner : String} {s : Sym} :
    ns.Resolves pool owner s ↔
      (s.target = .this → ∃ i, ns.typeNumber? owner = some i) ∧
        (∀ name, s.target = .node name → ∃ i, ns.typeNumber? name = some i) ∧
        ∀ t, s.target = .terminal t → pool t := by
  induction s with
  | this => simp [Naming.Resolves, Sym.target]
  | node name => simp [Naming.Resolves, Sym.target]
  | terminal t => simp [Naming.Resolves, Sym.target]
  | field name target default ih => exact ih

/-! ## The types that are left -/

section Settled

variable {declared settled : List NodeType} {u : Upgrades} (hu : Upgrades.ofTypes declared = .ok u)
include hu

theorem lookup_eq_none_iff_not_upgraded (name : String) :
    u.lookup name = none ↔ ¬ Upgraded declared name := by
  rw [Upgrades.lookup_ofTypes hu, Upgrades.firstUpgrade?_eq_none_iff]

variable (hsettle : u.settle declared = .ok settled)
include hsettle

theorem mem_settle_iff_remaining (s : NodeType) : s ∈ settled ↔ Remaining declared s := by
  constructor
  · intro hs
    obtain ⟨t, ht, hfinal⟩ := Upgrades.final?_of_settle hsettle s hs
    exact ⟨t, ht, (Upgrades.final?_eq_some_iff_chainEnds hu).1 hfinal⟩
  · rintro ⟨t, ht, hends⟩
    have hfinal := (Upgrades.final?_eq_some_iff_chainEnds hu).2 hends
    exact Upgrades.mem_settle_of_final? hsettle ht hfinal

/-- The names with a number are those that are left and those that are upgraded. -/
theorem exists_typeNumber?_iff (name : String) :
    (∃ i, Naming.typeNumber? ⟨u, settled⟩ name = some i) ↔
      (∃ s, Remaining declared s ∧ s.name = name) ∨ Upgraded declared name := by
  have hfind : ∀ x, (∃ i, settled.findIdx? (·.name == x) = some i) ↔ ∃ s ∈ settled, s.name = x := by
    intro x
    rw [← Option.isSome_iff_exists, List.findIdx?_isSome, List.any_eq_true]
    simp only [beq_iff_eq]
  cases hlookup : u.lookup name with
  | none =>
      have hnot := (lookup_eq_none_iff_not_upgraded hu name).1 hlookup
      have hnumber : Naming.typeNumber? ⟨u, settled⟩ name = settled.findIdx? (·.name == name) := by
        simp only [Naming.typeNumber?, Upgrades.finalName?, hlookup, Option.bind_some]
      rw [hnumber, hfind, or_iff_left hnot]
      simp only [mem_settle_iff_remaining hu hsettle]
  | some next =>
      have hupgraded : Upgraded declared name := by
        by_contra hnot
        rw [(lookup_eq_none_iff_not_upgraded hu name).2 hnot] at hlookup
        exact absurd hlookup (by simp)
      -- The chain from the upgraded name ends at a type that is left.
      have hnext := (Upgrades.mem_of_lookup_ofTypes hu hlookup).1
      obtain ⟨last, hlast⟩ := Upgrades.exists_final?_of_settle hsettle hnext
      have hmem := Upgrades.mem_settle_of_final? hsettle hnext hlast
      have hnumber : Naming.typeNumber? ⟨u, settled⟩ name =
          settled.findIdx? (·.name == last.name) := by
        simp only [Naming.typeNumber?, Upgrades.finalName?, hlookup, hlast, Option.map_some,
          Option.bind_some]
      rw [hnumber, hfind]
      exact iff_of_true ⟨last, hmem, rfl⟩ (Or.inr hupgraded)

/-- A type that is left is found by its name. -/
theorem exists_typeNumber?_of_remaining {s : NodeType} (hs : Remaining declared s) :
    ∃ i, Naming.typeNumber? ⟨u, settled⟩ s.name = some i :=
  (exists_typeNumber?_iff hu hsettle s.name).2 (Or.inl ⟨s, hs, rfl⟩)

/-- A rule of a type that is left becomes a production exactly if what it mentions is left or upgraded, its
terminals are from the pool, and it has one place to hand on if it hands on the place of the type. -/
theorem lowers_iff {pool : Terminal → Prop} {s : NodeType} (hs : Remaining declared s) {r : Rule} :
    Naming.Lowers ⟨u, settled⟩ pool s r ↔
      (∀ name, r.Mentions name → (∃ s', Remaining declared s' ∧ s'.name = name) ∨
        Upgraded declared name) ∧
      (∀ t, r.Uses t → pool t) ∧ (r.template = .skip → r.body.count (.sym .this) = 1) := by
  constructor
  · rintro ⟨hhead, hbody, hconstruction⟩
    refine ⟨fun name hname => ?_, fun t ⟨e, he, htarget⟩ => ?_,
      NodeType.exists_construction_iff.1 hconstruction⟩
    · apply (exists_typeNumber?_iff hu hsettle name).1
      rcases hname with hname | ⟨e, he, htarget⟩
      · rw [hname] at hhead
        exact hhead
      · exact (Naming.resolves_iff.1 (hbody e he)).2.1 name htarget
    · exact (Naming.resolves_iff.1 (hbody e he)).2.2 t htarget
  · rintro ⟨hmentions, huses, hskip⟩
    refine ⟨?_, fun e he => Naming.resolves_iff.2 ⟨fun _ => ?_, fun name htarget => ?_, fun t htarget => ?_⟩,
      NodeType.exists_construction_iff.2 hskip⟩
    · cases hhead : r.head with
      | this => exact exists_typeNumber?_of_remaining hu hsettle hs
      | type name =>
          exact (exists_typeNumber?_iff hu hsettle name).2 (hmentions name (Or.inl hhead))
      | rest => exact ⟨_, rfl⟩
    · exact exists_typeNumber?_of_remaining hu hsettle hs
    · exact (exists_typeNumber?_iff hu hsettle name).2 (hmentions name (Or.inr ⟨e, he, htarget⟩))
    · exact huses t ⟨e, he, htarget⟩

end Settled

theorem eq_singleton_of_mem_iff {α : Type} {xs : List α} {a : α} (hnodup : xs.Nodup)
    (h : ∀ x, x ∈ xs ↔ x = a) : xs = [a] := by
  have hperm : xs.Perm [a] := by
    rw [List.perm_ext_iff_of_nodup hnodup (List.nodup_singleton a)]
    intro x
    rw [h, List.mem_singleton]
  exact List.perm_singleton.1 hperm

/-- There is one start among types without repetitions exactly if one of them is marked. -/
theorem exists_uniqueStart_iff {types : List NodeType} (hnodup : types.Nodup) :
    (∃ start, uniqueStart types = .ok start) ↔ ∃! s, s ∈ types ∧ s.isStart = true := by
  have hmem : ∀ s, s ∈ types.filter NodeType.isStart ↔ s ∈ types ∧ s.isStart = true :=
    fun s => List.mem_filter
  unfold uniqueStart
  constructor
  · rintro ⟨start, h⟩
    split at h
    · rename_i t hstarts
      refine ⟨t, (hmem t).1 (by rw [hstarts]; exact List.mem_singleton.2 rfl), fun s hs => ?_⟩
      have hs' := (hmem s).2 hs
      rw [hstarts] at hs'
      exact List.mem_singleton.1 hs'
    · exact absurd h (by simp)
  · rintro ⟨t, ht, hunique⟩
    have hstarts : types.filter NodeType.isStart = [t] := by
      apply eq_singleton_of_mem_iff (hnodup.filter _)
      intro s
      rw [hmem]
      exact ⟨hunique s, fun hs => hs ▸ ht⟩
    rw [hstarts]
    exact ⟨t.name, rfl⟩

/-- Declarations can be settled where they do not contradict each other, all chains end, and one type of
each name is left. -/
theorem WellDeclared.exists_settle {declared : List NodeType} (h : WellDeclared declared) {u : Upgrades}
    (hu : Upgrades.ofTypes declared = .ok u) : ∃ settled, u.settle declared = .ok settled := by
  have hends : ∀ s, s ∈ (declared.filterMap u.final?).dedup ↔ Remaining declared s := by
    intro s
    rw [List.mem_dedup, List.mem_filterMap]
    exact exists_congr fun t => and_congr_right fun _ => Upgrades.final?_eq_some_iff_chainEnds hu
  have hnodup : ((declared.filterMap u.final?).dedup.map NodeType.name).Nodup := by
    apply List.Nodup.map_on _ (List.nodup_dedup _)
    intro s hs s' hs' hname
    exact h.unique s s' ((hends s).1 hs) ((hends s').1 hs') hname
  apply Upgrades.exists_settle hnodup
  intro t ht
  obtain ⟨last, hlast⟩ := h.chains t ht
  exact ⟨last, (hends last).2 ⟨t, ht, hlast⟩, (Upgrades.final?_eq_some_iff_chainEnds hu).2 hlast⟩

/-- Terminals of one key are the same where classes of one name are. -/
theorem WellDeclared.consistent {declared : List NodeType} (h : WellDeclared declared) :
    Arena.Consistent fun t => ∃ s, Remaining declared s ∧ ∃ r ∈ s.rules, r.Uses t := by
  rintro t t' ⟨s, hs, r, hr, huses⟩ ⟨s', hs', r', hr', huses'⟩ hkey
  cases t with
  | literal text =>
      cases t' with
      | literal text' => rw [eq_of_beq (show (text == text') = true from hkey)]
      | ofClass c' => exact absurd hkey Bool.false_ne_true
  | ofClass c =>
      cases t' with
      | literal text' => exact absurd hkey Bool.false_ne_true
      | ofClass c' =>
          have hname : c.name = c'.name := eq_of_beq (show (c.name == c'.name) = true from hkey)
          rw [h.classes s s' hs hs' r hr r' hr' c c' huses huses' hname]

/-! ## The result -/

/-- Declarations that are lowered are well-formed. -/
theorem wellDeclared_of_lower {declared : List NodeType} {lowered : Lowered}
    (h : lower declared = .ok lowered) : WellDeclared declared := by
  obtain ⟨⟨u, settled⟩, hmakes⟩ := lower_eq_ok h
  obtain ⟨productions, hrun⟩ := hmakes.exists_run h
  obtain ⟨hkeyed, hlowers⟩ := Naming.lowers_of_lowerAll hrun
  have hu := hmakes.ofTypes
  have hsettle := hmakes.settle
  have hmem := mem_settle_iff_remaining hu hsettle
  have hnames := Upgrades.nodup_names_of_settle hsettle
  have hrule : ∀ s, Remaining declared s → ∀ r ∈ s.rules,
      Naming.Lowers ⟨u, settled⟩ (· ∈ lowered.grammar.arena.terminals) s r :=
    fun s hs => hlowers s ((hmem s).2 hs)
  refine
    { compatible := Upgrades.ofTypes_ok_iff.1 ⟨u, hu⟩
      chains := fun t ht => ?_
      unique := fun s s' hs hs' hname => ?_
      start := ?_
      fields := fun s hs => NodeType.checkFields_eq_ok_iff.1 (hmakes.checkFields s ((hmem s).2 hs))
      skips := fun s hs r hr => ((lowers_iff hu hsettle hs).1 (hrule s hs r hr)).2.2
      mentions := fun s hs r hr => ((lowers_iff hu hsettle hs).1 (hrule s hs r hr)).1
      classes := fun s s' hs hs' r hr r' hr' c c' huses huses' hname => ?_ }
  · obtain ⟨last, hlast⟩ := Upgrades.exists_final?_of_settle hsettle ht
    exact ⟨last, (Upgrades.final?_eq_some_iff_chainEnds hu).1 hlast⟩
  · exact List.inj_on_of_nodup_map hnames ((hmem s).2 hs) ((hmem s').2 hs') hname
  · simp only [← hmem]
    exact (exists_uniqueStart_iff hnames.of_map).1 ⟨_, hmakes.uniqueStart⟩
  · -- Both classes are terminals of the grammar, which has one of each name.
    have hc := ((lowers_iff hu hsettle hs).1 (hrule s hs r hr)).2.1 _ huses
    have hc' := ((lowers_iff hu hsettle hs').1 (hrule s' hs' r' hr')).2.1 _ huses'
    have hkey : (Terminal.ofClass c).sameKey (.ofClass c') = true := beq_iff_eq.2 hname
    exact Terminal.ofClass.inj (hkeyed.consistent _ _ hc hc' hkey)

/-- Well-formed declarations are lowered. -/
theorem WellDeclared.exists_lower {declared : List NodeType} (h : WellDeclared declared) :
    ∃ lowered, lower declared = .ok lowered := by
  obtain ⟨u, hu⟩ := Upgrades.ofTypes_ok_iff.2 h.compatible
  obtain ⟨settled, hsettle⟩ := h.exists_settle hu
  have hmem := mem_settle_iff_remaining hu hsettle
  have hnames := Upgrades.nodup_names_of_settle hsettle
  obtain ⟨start, hstart⟩ : ∃ start, uniqueStart settled = .ok start := by
    rw [exists_uniqueStart_iff hnames.of_map]
    simpa only [hmem] using h.start
  have hfields : ∀ s ∈ settled, s.checkFields = .ok () := fun s hs =>
    NodeType.checkFields_eq_ok_iff.2 (h.fields s ((hmem s).1 hs))
  obtain ⟨productions, arena, hrun, -⟩ :=
    @Naming.lowerAll_succeeds ⟨u, settled⟩ _ h.consistent hfields
      fun s hs r hr => (lowers_iff hu hsettle ((hmem s).1 hs)).2
        ⟨h.mentions s ((hmem s).1 hs) r hr, fun t huses => ⟨s, (hmem s).1 hs, r, hr, huses⟩,
          h.skips s ((hmem s).1 hs) r hr⟩
  exact ⟨_, Except.bind_eq_ok_iff.2 ⟨u, hu, Except.bind_eq_ok_iff.2 ⟨settled, hsettle,
    Except.bind_eq_ok_iff.2 ⟨start, hstart, Except.bind_eq_ok_iff.2 ⟨(productions, arena), hrun, rfl⟩⟩⟩⟩⟩

/-- Lowering succeeds on exactly the well-formed lists of declarations. On all others it refuses, also where
chains of upgrades are circular, since every walk along a chain ends. -/
theorem lower_ok_iff_wellDeclared (declared : List NodeType) :
    ((∃ lowered, lower declared = .ok lowered) ↔ WellDeclared declared) ∧
      ((∃ e, lower declared = .error e) ↔ ¬ WellDeclared declared) ∧
      ∀ (u : Upgrades) (t : NodeType), u.Walk 0 t (u.final? t) := by
  have hok : (∃ lowered, lower declared = .ok lowered) ↔ WellDeclared declared :=
    ⟨fun ⟨_, h⟩ => wellDeclared_of_lower h, fun h => h.exists_lower⟩
  refine ⟨hok, ?_, Upgrades.walk_final?⟩
  rw [← hok]
  cases lower declared with
  | ok lowered => simp
  | error e => simp

/-- A start type, and two types that upgrade each other. -/
def circularTypes : List NodeType :=
  [(NodeType.named "Program").start, (NodeType.named "Left").upgrades "Right",
    (NodeType.named "Right").upgrades "Left"]

example : (lower circularTypes).toOption.isNone ∧ (lower (circularTypes.take 1)).toOption.isSome := by
  cbv

end SmallLang
