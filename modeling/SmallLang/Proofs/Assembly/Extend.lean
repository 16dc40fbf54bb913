import Mathlib
import SmallLang.Language
import SmallLang.Proofs.Assembly.Lowering
import SmallLang.Proofs.Language

/-!
# Extending a language

A language keeps the types that upgrades lead to and forgets the others. Extending it is the same as
assembling all declarations together as long as this forgets no upgrade
(`Language.addTypes_agree_iff`): a declaration that upgrades something must not be upgraded itself.
Otherwise what it upgraded loses its stand-in, and a language cannot even be extended by nothing
(`chainTypes_disagree`).
-/

set_option autoImplicit false

namespace SmallLang

namespace Upgrades

/-! ## Settling what was settled -/

/-- One step of settling. -/
def settleStep (u : Upgrades) (settled : List NodeType) (t : NodeType) :
    Except AssemblyError (List NodeType) := do
  admitType settled (← u.resolve t)

theorem settle_eq_foldlM (u : Upgrades) (types : List NodeType) :
    u.settle types = types.foldlM u.settleStep [] := rfl

theorem settleStep_of_final?_eq_some {u : Upgrades} {t last : NodeType} (h : u.final? t = some last)
    (settled : List NodeType) : u.settleStep settled t = admitType settled last := by
  rw [settleStep, resolve_eq_ok_iff.2 h]
  rfl

theorem settleStep_of_final?_eq_none {u : Upgrades} {t : NodeType} (h : u.final? t = none)
    (settled : List NodeType) : (u.settleStep settled t).toOption = none := by
  rw [settleStep, resolve, h]
  rfl

/-- A type that is there already is not admitted a second time. -/
theorem admitType_of_mem {types : List NodeType} {t : NodeType} (ht : t ∈ types)
    (hnodup : (types.map NodeType.name).Nodup) : admitType types t = .ok types := by
  rw [admitType]
  split
  · rename_i hnone
    have hne := List.find?_eq_none.1 hnone t ht
    simp at hne
  · rename_i known hknown
    have hmem := List.mem_of_find?_eq_some hknown
    have hname : known.name = t.name := by
      have hfound := List.find?_some hknown
      simpa using hfound
    rw [if_pos (List.inj_on_of_nodup_map hnodup hmem ht hname)]

theorem admitType_invariants {types types' : List NodeType} {t : NodeType}
    (h : admitType types t = .ok types') (hnodup : (types.map NodeType.name).Nodup) :
    (types'.map NodeType.name).Nodup ∧ t ∈ types' ∧ types ⊆ types' := by
  rcases admitType_eq_ok h with ⟨rfl, hnew⟩ | ⟨rfl, hmem⟩
  · refine ⟨?_, List.mem_append_right _ (List.mem_singleton.2 rfl), List.subset_append_left _ _⟩
    rw [List.map_append, List.map_singleton]
    refine hnodup.append (List.nodup_singleton _) ?_
    intro x hx ht
    obtain ⟨s, hs, rfl⟩ := List.mem_map.1 hx
    exact hnew s hs (List.mem_singleton.1 ht)
  · exact ⟨hnodup, hmem, List.Subset.refl _⟩

theorem toOption_bind {ε α β : Type} (x : Except ε α) (f : α → Except ε β) :
    (x >>= f).toOption = x.toOption.bind fun a => (f a).toOption := by
  cases x <;> rfl

/-- Settling declarations under a table is settling what they settle to under a smaller one. The
list `done` was settled under the smaller table so far, the list `settled` under the larger one, and
the larger table leads from everything in `done` into `settled`. -/
theorem toOption_foldlM_settleStep {u small : Upgrades}
    (hfinal : ∀ t last, small.final? t = some last → u.final? t = u.final? last)
    {types done all : List NodeType} (h : types.foldlM small.settleStep done = .ok all) :
    ∃ rest, all = done ++ rest ∧
      ∀ settled : List NodeType, (settled.map NodeType.name).Nodup →
        (∀ s ∈ done, ∃ last ∈ settled, u.final? s = some last) →
        (types.foldlM u.settleStep settled).toOption =
          (rest.foldlM u.settleStep settled).toOption := by
  induction types generalizing done with
  | nil =>
      obtain rfl := Except.ok.inj h
      exact ⟨[], (List.append_nil _).symm, fun _ _ _ => rfl⟩
  | cons t ts ih =>
      rw [List.foldlM_cons] at h
      obtain ⟨next, hnext, h⟩ := Except.bind_eq_ok_iff.1 h
      obtain ⟨last, hlast, hadmit⟩ := Except.bind_eq_ok_iff.1 hnext
      have ht := hfinal t last (resolve_eq_ok_iff.1 hlast)
      obtain ⟨rest, hrest, heq⟩ := ih h
      rcases admitType_eq_ok hadmit with ⟨rfl, -⟩ | ⟨rfl, hmem⟩
      · -- A new type is settled under the larger table as the declaration was.
        refine ⟨last :: rest, by rw [hrest, List.append_assoc, List.singleton_append], ?_⟩
        intro settled hnodup hdone
        rw [List.foldlM_cons, List.foldlM_cons, toOption_bind, toOption_bind]
        cases hfin : u.final? last with
        | none =>
            rw [settleStep_of_final?_eq_none hfin, settleStep_of_final?_eq_none (ht.trans hfin)]
            rfl
        | some fin =>
            rw [settleStep_of_final?_eq_some hfin, settleStep_of_final?_eq_some (ht.trans hfin)]
            cases hstep : admitType settled fin with
            | error err => rfl
            | ok settled' =>
                obtain ⟨hnodup', hfin', hsubset⟩ := admitType_invariants hstep hnodup
                refine heq settled' hnodup' fun s hs => ?_
                rcases List.mem_append.1 hs with hs | hs
                · obtain ⟨last', hlast', hs'⟩ := hdone s hs
                  exact ⟨last', hsubset hlast', hs'⟩
                · rw [List.mem_singleton.1 hs]
                  exact ⟨fin, hfin', hfin⟩
      · -- A type that was there leads to one that is there.
        refine ⟨rest, hrest, fun settled hnodup hdone => ?_⟩
        obtain ⟨fin, hfin, hlast'⟩ := hdone last hmem
        rw [List.foldlM_cons, settleStep_of_final?_eq_some (ht.trans hlast'),
          admitType_of_mem hfin hnodup]
        exact heq settled hnodup hdone

/-! ## Tables of a list and of what it settles to -/

/-- No declaration that upgrades something is upgraded itself. -/
def OneStep (types : List NodeType) : Prop :=
  ∀ t ∈ types, t.upgraded ≠ [] → ∀ s ∈ types, t.name ∉ s.upgraded

instance (types : List NodeType) : Decidable (OneStep types) :=
  inferInstanceAs (Decidable (∀ t ∈ types, t.upgraded ≠ [] → ∀ s ∈ types, t.name ∉ s.upgraded))

/-- What upgrades lead to from a declaration is in the settled list. -/
theorem mem_settle_of_final? {u : Upgrades} {types settled : List NodeType}
    (h : u.settle types = .ok settled) {t last : NodeType} (ht : t ∈ types)
    (hlast : u.final? t = some last) : last ∈ settled := by
  have hfold : ∀ {ts done : List NodeType}, ts.foldlM u.settleStep done = .ok settled →
      (last ∈ done ∨ t ∈ ts) → last ∈ settled := by
    intro ts
    induction ts with
    | nil =>
        intro done h hmem
        obtain rfl := Except.ok.inj h
        exact hmem.resolve_right List.not_mem_nil
    | cons s ts ih =>
        intro done h hmem
        rw [List.foldlM_cons] at h
        obtain ⟨next, hnext, h⟩ := Except.bind_eq_ok_iff.1 h
        obtain ⟨last', hlast', hadmit⟩ := Except.bind_eq_ok_iff.1 hnext
        refine ih h ?_
        have hnew : last' ∈ next ∧ done ⊆ next := by
          rcases admitType_eq_ok hadmit with ⟨rfl, -⟩ | ⟨rfl, hold⟩
          · exact ⟨List.mem_append_right _ (List.mem_singleton.2 rfl), List.subset_append_left _ _⟩
          · exact ⟨hold, List.Subset.refl _⟩
        rcases hmem with hmem | hmem
        · exact Or.inl (hnew.2 hmem)
        · rcases List.mem_cons.1 hmem with rfl | hmem
          · rw [resolve_eq_ok_iff, hlast] at hlast'
            rw [Option.some.inj hlast']
            exact Or.inl hnew.1
          · exact Or.inr hmem
  exact hfold h (Or.inr ht)

/-- The declarations that upgrade something stay, if they are not upgraded themselves. -/
theorem OneStep.mem_settle {types settled : List NodeType} {u : Upgrades} (h : OneStep types)
    (hu : ofTypes types = .ok u) (hsettle : u.settle types = .ok settled) {t : NodeType}
    (ht : t ∈ types) (hne : t.upgraded ≠ []) : t ∈ settled := by
  refine mem_settle_of_final? hsettle ht (final?_of_lookup_eq_none ?_)
  cases hlookup : u.lookup t.name with
  | none => rfl
  | some s =>
      obtain ⟨hs, hupgraded⟩ := mem_of_lookup_ofTypes hu hlookup
      exact absurd hupgraded (h t ht hne s hs)

theorem ne_nil_of_mem_upgraded {t : NodeType} {x : String} (h : x ∈ t.upgraded) :
    t.upgraded ≠ [] := by
  intro hnil
  rw [hnil] at h
  exact absurd h List.not_mem_nil

/-- A settled list upgrades the same names by the same types. -/
theorem OneStep.firstUpgrade?_settle {types settled : List NodeType} {u : Upgrades}
    (h : OneStep types) (hu : ofTypes types = .ok u) (hsettle : u.settle types = .ok settled)
    (x : String) : firstUpgrade? settled x = firstUpgrade? types x := by
  have hcompatible := ofTypes_ok_iff.1 ⟨u, hu⟩
  have hmem := mem_of_settle hu hsettle
  have hupgrades : ∀ {ts : List NodeType} {t : NodeType}, firstUpgrade? ts x = some t →
      t ∈ ts ∧ x ∈ t.upgraded := by
    intro ts t ht
    have hfound := List.find?_some ht
    exact ⟨List.mem_of_find?_eq_some ht, by simpa using hfound⟩
  cases hfirst : firstUpgrade? types x with
  | none =>
      refine List.find?_eq_none.2 fun s hs hupgraded => ?_
      exact List.find?_eq_none.1 hfirst s (hmem s hs) hupgraded
  | some t =>
      obtain ⟨ht, hx⟩ := hupgrades hfirst
      have htsettled := h.mem_settle hu hsettle ht (ne_nil_of_mem_upgraded hx)
      cases hfirst' : firstUpgrade? settled x with
      | none =>
          have hnot := List.find?_eq_none.1 hfirst' t htsettled
          simp [hx] at hnot
      | some s =>
          obtain ⟨hs, hx'⟩ := hupgrades hfirst'
          have hname := hcompatible s (hmem s hs) t ht x hx' hx
          rw [List.inj_on_of_nodup_map (nodup_names_of_settle hsettle) hs htsettled hname]

/-- A settled list contradicts further declarations exactly if the list that it was settled from
does. -/
theorem OneStep.compatible_settle_iff {types settled : List NodeType} {u : Upgrades}
    (h : OneStep types) (more : List NodeType) (hu : ofTypes types = .ok u) (hsettle : u.settle types = .ok settled) :
    Compatible (settled ++ more) ↔ Compatible (types ++ more) := by
  have hsame : ∀ t : NodeType, t.upgraded ≠ [] → (t ∈ settled ++ more ↔ t ∈ types ++ more) := by
    intro t hne
    rw [List.mem_append, List.mem_append]
    constructor
    · exact Or.imp_left (mem_of_settle hu hsettle t)
    · exact Or.imp_left fun ht => h.mem_settle hu hsettle ht hne
  constructor
  · intro hcompatible t ht t' ht' x hx hx'
    exact hcompatible t ((hsame t (ne_nil_of_mem_upgraded hx)).2 ht) t'
      ((hsame t' (ne_nil_of_mem_upgraded hx')).2 ht') x hx hx'
  · intro hcompatible t ht t' ht' x hx hx'
    exact hcompatible t ((hsame t (ne_nil_of_mem_upgraded hx)).1 ht) t'
      ((hsame t' (ne_nil_of_mem_upgraded hx')).1 ht') x hx hx'

theorem firstUpgrade?_append (types more : List NodeType) (x : String) :
    firstUpgrade? (types ++ more) x = (firstUpgrade? types x).or (firstUpgrade? more x) :=
  List.find?_append

/-- What a table leads to, a table with further entries leads on from. -/
theorem final?_of_extends {u small : Upgrades}
    (h : ∀ x t, small.lookup x = some t → u.lookup x = some t) {t last : NodeType}
    (hlast : small.final? t = some last) : u.final? t = u.final? last := by
  obtain ⟨n, hn⟩ := final?_eq_some_iff.1 hlast
  clear hlast
  induction n generalizing t with
  | zero => simp [follow] at hn
  | succ n ih =>
      cases hlookup : small.lookup t.name with
      | none =>
          rw [follow_succ_of_lookup_eq_none hlookup] at hn
          rw [Option.some.inj hn]
      | some next =>
          rw [follow_succ_of_lookup_eq_some hlookup] at hn
          rw [final?_of_lookup_eq_some (h _ _ hlookup), ih hn]

end Upgrades

/-! ## Lowering what was settled -/

namespace Naming

/-- Rules become the same productions if types have the same numbers. -/
theorem lowerAll_congr (ns ns' : Naming) (htypes : ns.types = ns'.types)
    (hnumber : ∀ name, ns.typeNumber? name = ns'.typeNumber? name) : ns.lowerAll = ns'.lowerAll := by
  have htype : ∀ owner name, ns.lowerType owner name = ns'.lowerType owner name := by
    intro owner name
    rw [lowerType, lowerType, hnumber]
  have hrest : ∀ owner, ns.restNumber owner = ns'.restNumber owner := by
    intro owner
    rw [restNumber, restNumber, listTypes, listTypes, htypes]
  have hsym : ∀ owner s, ns.lowerSym owner s = ns'.lowerSym owner s := by
    intro owner s
    induction s with
    | this => rw [lowerSym, lowerSym, htype]
    | node name => rw [lowerSym, lowerSym, htype]
    | terminal t => rw [lowerSym, lowerSym]
    | field name target default ih => rw [lowerSym, lowerSym, ih]
  have helement : ∀ owner, ns.lowerElement owner = ns'.lowerElement owner := by
    intro owner
    funext x
    cases x with
    | sym s => exact hsym owner s
    | rest => rw [lowerElement, lowerElement, hrest]
  have hhead : ∀ owner head, ns.lowerHead owner head = ns'.lowerHead owner head := by
    intro owner head
    cases head with
    | this => exact htype owner owner
    | type name => exact htype owner name
    | rest => rw [lowerHead, lowerHead, hrest]
  have hrule : ∀ t, ns.lowerRule t = ns'.lowerRule t := by
    intro t
    funext r
    rw [lowerRule, lowerRule, hhead, helement]
  have hnodeType : ns.lowerNodeType = ns'.lowerNodeType := by
    funext t
    rw [lowerNodeType, lowerNodeType, hrule]
  rw [lowerAll, lowerAll, htypes, hnodeType]

theorem nonTerminals_congr (ns ns' : Naming) (htypes : ns.types = ns'.types) :
    ns.nonTerminals = ns'.nonTerminals := by
  funext productions
  rw [nonTerminals, nonTerminals, nonTerminalNames, nonTerminalNames, listTypes, listTypes, htypes]

end Naming

/-- What lowering does after the types are settled. -/
def lowerSettled (upgrades : Upgrades) (types : List NodeType) : Except AssemblyError Lowered := do
  let start ← uniqueStart types
  let ns : Naming := ⟨upgrades, types⟩
  let (productions, arena) ← ns.lowerAll.run Arena.empty
  pure
    { grammar :=
        { nonTerminals := ns.nonTerminals productions
          arena
          start := types.findIdx (·.name == start) }
      types
      start }

theorem lower_eq_bind (declared : List NodeType) :
    lower declared =
      Upgrades.ofTypes declared >>= fun u => u.settle declared >>= lowerSettled u := rfl

/-- After the types are settled, only the entries of the table matter. -/
theorem lowerSettled_congr {u v : Upgrades} (h : ∀ x, u.lookup x = v.lookup x)
    (types : List NodeType) : lowerSettled u types = lowerSettled v types := by
  have hnumber : ∀ name, Naming.typeNumber? ⟨u, types⟩ name = Naming.typeNumber? ⟨v, types⟩ name := by
    intro name
    have hfinal : u.finalName? name = v.finalName? name := by
      rw [Upgrades.finalName?, Upgrades.finalName?, h name]
      cases v.lookup name with
      | none => rfl
      | some next => exact congrArg (Option.map NodeType.name) (Upgrades.final?_congr h next)
    rw [Naming.typeNumber?, Naming.typeNumber?, hfinal]
  have hall := Naming.lowerAll_congr ⟨u, types⟩ ⟨v, types⟩ rfl hnumber
  have hnonTerminals := Naming.nonTerminals_congr ⟨u, types⟩ ⟨v, types⟩ rfl
  simp only [lowerSettled, hall, hnonTerminals]

/-- Lowering settled types together with further ones is lowering all declarations together. -/
theorem toOption_lower_settled_append {a settled b : List NodeType} {u : Upgrades}
    (h : Upgrades.OneStep a) (hu : Upgrades.ofTypes a = .ok u)
    (hsettle : u.settle a = .ok settled) :
    (lower (settled ++ b)).toOption = (lower (a ++ b)).toOption := by
  have hcompatible := h.compatible_settle_iff b hu hsettle
  rw [← Upgrades.ofTypes_ok_iff, ← Upgrades.ofTypes_ok_iff] at hcompatible
  rw [lower_eq_bind, lower_eq_bind]
  cases hv : Upgrades.ofTypes (a ++ b) with
  | error err =>
      cases hw : Upgrades.ofTypes (settled ++ b) with
      | error err' => rfl
      | ok w =>
          obtain ⟨v, hv'⟩ := hcompatible.1 ⟨w, hw⟩
          rw [hv] at hv'
          exact absurd hv' (by simp)
  | ok v =>
      obtain ⟨w, hw⟩ := hcompatible.2 ⟨v, hv⟩
      rw [hw]
      -- The settled types upgrade what the declarations upgraded, so both tables hold the same.
      have hlookup : ∀ x, w.lookup x = v.lookup x := by
        intro x
        rw [Upgrades.lookup_ofTypes hw, Upgrades.lookup_ofTypes hv, Upgrades.firstUpgrade?_append,
          Upgrades.firstUpgrade?_append, h.firstUpgrade?_settle hu hsettle]
      have hextends : ∀ x t, u.lookup x = some t → v.lookup x = some t := by
        intro x t ht
        rw [Upgrades.lookup_ofTypes hu] at ht
        rw [Upgrades.lookup_ofTypes hv, Upgrades.firstUpgrade?_append, ht]
        rfl
      have hresolve : w.settleStep = v.settleStep := by
        funext done t
        rw [Upgrades.settleStep, Upgrades.settleStep, Upgrades.resolve, Upgrades.resolve,
          Upgrades.final?_congr hlookup t]
      -- Settling the declarations again under the larger table settles what they were settled to.
      obtain ⟨rest, hrest, heq⟩ := Upgrades.toOption_foldlM_settleStep (u := v)
        (fun t last => Upgrades.final?_of_extends hextends) hsettle
      obtain rfl : settled = rest := hrest
      have hsettled : (w.settle (settled ++ b)).toOption = (v.settle (a ++ b)).toOption := by
        rw [Upgrades.settle_eq_foldlM, Upgrades.settle_eq_foldlM, hresolve, List.foldlM_append,
          List.foldlM_append, Upgrades.toOption_bind, Upgrades.toOption_bind,
          ← heq [] List.nodup_nil fun s hs => absurd hs List.not_mem_nil]
      change (w.settle (settled ++ b) >>= lowerSettled w).toOption =
        (v.settle (a ++ b) >>= lowerSettled v).toOption
      rw [Upgrades.toOption_bind, Upgrades.toOption_bind, hsettled]
      refine Option.bind_congr fun types _ => ?_
      rw [lowerSettled_congr hlookup]

/-- A result is there if the optional one is. -/
theorem Except.toOption_eq_some_iff {ε α : Type} {x : Except ε α} {a : α} :
    x.toOption = some a ↔ x = .ok a := by
  cases x <;> simp [Except.toOption]

/-! ## Languages -/

namespace Language

/-- Two assemblies agree if both fail, or if both give languages with the same types that make the
same of all tokens. -/
inductive Agree : Except AssemblyError Language → Except AssemblyError Language → Prop
  | fail (err err' : AssemblyError) : Agree (.error err) (.error err')
  | succeed (l m : Language) (types : l.types = m.types)
      (parse : ∀ tokens, l.parseTokens tokens = m.parseTokens tokens) : Agree (.ok l) (.ok m)

theorem agree_of_toOption_eq {x y : Except AssemblyError Language}
    (h : x.toOption = y.toOption) : Agree x y := by
  cases x with
  | error err =>
      cases y with
      | error err' => exact .fail err err'
      | ok m => exact absurd h (by simp [Except.toOption])
  | ok l =>
      cases y with
      | error err => exact absurd h (by simp [Except.toOption])
      | ok m =>
          obtain rfl : l = m := by simpa [Except.toOption] using h
          exact .succeed l l rfl fun _ => rfl

/-- What assembly does after lowering. -/
def ofLowered (config : Config) (lowered : Lowered) : Except AssemblyError Language := do
  let compiled ← Compiled.ofGrammar lowered.grammar.stratify
  pure ⟨lowered.types, lowered.start, config, compiled⟩

theorem assemble_eq_bind (types : List NodeType) (config : Config) :
    assemble types config = lower types >>= ofLowered config := rfl

theorem assemble_eq_ok {types : List NodeType} {config : Config} {l : Language}
    (h : assemble types config = .ok l) :
    ∃ lowered, lower types = .ok lowered ∧ l.types = lowered.types ∧ l.config = config ∧
      Compiled.ofGrammar lowered.grammar.stratify = .ok l.compiled := by
  obtain ⟨lowered, hlowered, h⟩ := Except.bind_eq_ok_iff.1 h
  obtain ⟨compiled, hcompiled, h⟩ := Except.bind_eq_ok_iff.1 h
  obtain rfl := Except.ok.inj h
  exact ⟨lowered, hlowered, rfl, rfl, hcompiled⟩

/-- Everything that an assembled language has is derived from its grammar. -/
theorem compiled_of_assemble {types : List NodeType} {config : Config} {l : Language}
    (h : assemble types config = .ok l) : Compiled.ofGrammar l.grammar = .ok l.compiled := by
  obtain ⟨lowered, -, -, -, hcompiled⟩ := assemble_eq_ok h
  rwa [grammar, (Compiled.ofGrammar_eq_ok hcompiled).1]

section Extend

variable {a : List NodeType} {config : Config} {l : Language}

/-- The table and the settled types of an assembled language. -/
theorem upgrades_of_assemble (h : assemble a config = .ok l) :
    ∃ u, Upgrades.ofTypes a = .ok u ∧ u.settle a = .ok l.types := by
  obtain ⟨lowered, hlowered, htypes, -, -⟩ := assemble_eq_ok h
  obtain ⟨ns, hmakes⟩ := lower_eq_ok hlowered
  refine ⟨ns.upgrades, hmakes.ofTypes, ?_⟩
  rw [htypes, hmakes.types, hmakes.settle]

theorem toOption_addTypes_of_oneStep (h : assemble a config = .ok l) (hone : Upgrades.OneStep a)
    (b : List NodeType) : (l.addTypes b).toOption = (assemble (a ++ b) config).toOption := by
  obtain ⟨u, hu, hsettle⟩ := upgrades_of_assemble h
  obtain ⟨-, -, -, hconfig, -⟩ := assemble_eq_ok h
  rw [addTypes, hconfig, assemble_eq_bind, assemble_eq_bind, Upgrades.toOption_bind,
    Upgrades.toOption_bind, toOption_lower_settled_append hone hu hsettle]

theorem addTypes_agree_of_oneStep (h : assemble a config = .ok l) (hone : Upgrades.OneStep a)
    (b : List NodeType) : Agree (l.addTypes b) (assemble (a ++ b) config) :=
  agree_of_toOption_eq (toOption_addTypes_of_oneStep h hone b)

/-- A declaration of an upgraded name, and nothing else, changes nothing. -/
theorem assemble_append_named (h : assemble a config = .ok l) {t : NodeType} (ht : t ∈ a)
    {x : String} (hx : x ∈ t.upgraded) : assemble (a ++ [.named x]) config = .ok l := by
  obtain ⟨u, hu, hsettle⟩ := upgrades_of_assemble h
  have hu' : Upgrades.ofTypes (a ++ [.named x]) = .ok u := by
    rw [Upgrades.ofTypes, List.foldlM_append]
    exact Except.bind_eq_ok_iff.2 ⟨u, hu, rfl⟩
  -- The name leads to a type that is there.
  obtain ⟨s, hs⟩ : ∃ s, u.lookup x = some s := by
    rw [Upgrades.lookup_ofTypes hu, ← Option.isSome_iff_exists, Upgrades.firstUpgrade?,
      List.find?_isSome]
    exact ⟨t, ht, by simpa using hx⟩
  have hlast : ∃ last ∈ l.types, u.final? s = some last := by
    have hsa := (Upgrades.mem_of_lookup_ofTypes hu hs).1
    obtain ⟨last, hlast⟩ := Upgrades.exists_final?_of_settle hsettle hsa
    exact ⟨last, Upgrades.mem_settle_of_final? hsettle hsa hlast, hlast⟩
  obtain ⟨last, hmem, hlast⟩ := hlast
  have hfinal : u.final? (.named x) = some last := by
    rw [Upgrades.final?_of_lookup_eq_some (t := .named x) hs, hlast]
  have hsettle' : u.settle (a ++ [.named x]) = .ok l.types := by
    rw [Upgrades.settle_eq_foldlM, List.foldlM_append]
    refine Except.bind_eq_ok_iff.2 ⟨l.types, hsettle, ?_⟩
    rw [List.foldlM_cons, Upgrades.settleStep_of_final?_eq_some hfinal,
      Upgrades.admitType_of_mem hmem (Upgrades.nodup_names_of_settle hsettle)]
    rfl
  have hlower : lower (a ++ [.named x]) = lower a := by
    rw [lower_eq_bind, lower_eq_bind, hu, hu']
    change u.settle (a ++ [.named x]) >>= lowerSettled u = u.settle a >>= lowerSettled u
    rw [hsettle, hsettle']
  rw [assemble_eq_bind, hlower, ← assemble_eq_bind, h]

/-- A language whose declarations upgrade in more than one step has forgotten an upgrade: the name is
free again. -/
theorem not_agree_named (h : assemble a config = .ok l) {t s : NodeType} (ht : t ∈ a) (hs : s ∈ a)
    (hts : t.name ∈ s.upgraded) {x : String} (hx : x ∈ t.upgraded) :
    ¬ Agree (l.addTypes [.named x]) (assemble (a ++ [.named x]) config) := by
  obtain ⟨u, hu, hsettle⟩ := upgrades_of_assemble h
  rw [assemble_append_named h ht hx]
  intro hagree
  generalize hadd : l.addTypes [.named x] = result at hagree
  cases hagree with
  | succeed m _ htypes hparse =>
      obtain ⟨v, hv, hvsettle⟩ := upgrades_of_assemble hadd
      -- No type of the language is upgraded.
      have hfree : ∀ r ∈ l.types, u.lookup r.name = none := by
        intro r hr
        obtain ⟨r', -, hfinal⟩ := Upgrades.final?_of_settle hsettle r hr
        exact Upgrades.lookup_of_follow hfinal
      have hupgraded : ∀ {y : String} {r : NodeType}, r ∈ a → y ∈ r.upgraded →
          u.lookup y ≠ none := by
        intro y r hr hy hnone
        rw [Upgrades.lookup_ofTypes hu, Upgrades.firstUpgrade?, List.find?_eq_none] at hnone
        exact hnone r hr (by simpa using hy)
      have hnone : v.lookup x = none := by
        rw [Upgrades.lookup_ofTypes hv, Upgrades.firstUpgrade?, List.find?_eq_none]
        intro r hr hcontains
        have hxr : x ∈ r.upgraded := by simpa using hcontains
        rcases List.mem_append.1 hr with hr | hr
        · have hra := Upgrades.mem_of_settle hu hsettle r hr
          have hname := Upgrades.ofTypes_ok_iff.1 ⟨u, hu⟩ r hra t ht x hxr hx
          refine hupgraded hs hts ?_
          rw [← hname]
          exact hfree r hr
        · rw [List.mem_singleton.1 hr] at hxr
          exact absurd hxr List.not_mem_nil
      have hmem : NodeType.named x ∈ m.types :=
        Upgrades.mem_settle_of_final? hvsettle
          (List.mem_append_right _ (List.mem_singleton.2 rfl))
          (Upgrades.final?_of_lookup_eq_none (t := .named x) hnone)
      rw [htypes] at hmem
      exact hupgraded ht hx (hfree _ hmem)

/-- Extending a language agrees with assembling all declarations together, whatever they are extended
by, exactly if no declaration that upgrades something is upgraded itself. -/
theorem addTypes_agree_iff (h : assemble a config = .ok l) :
    (∀ b, Agree (l.addTypes b) (assemble (a ++ b) config)) ↔ Upgrades.OneStep a := by
  constructor
  · intro hagree t ht hne s hs hts
    obtain ⟨x, hx⟩ := List.exists_mem_of_ne_nil _ hne
    exact not_agree_named h ht hs hts hx (hagree [.named x])
  · intro hone b
    exact addTypes_agree_of_oneStep h hone b

end Extend

/-- A list of types assembles if everything can be derived from the grammar it is lowered to. -/
theorem exists_assemble {types : List NodeType} {config : Config} {g : Grammar}
    (hlower : (lower types).toOption.map Lowered.grammar = some g)
    (hcompiled : (Compiled.ofGrammar g.stratify).toOption.isSome = true) :
    ∃ l, assemble types config = .ok l := by
  cases hl : lower types with
  | error err => exact absurd hlower (by simp [hl, Except.toOption])
  | ok lowered =>
      have hg : lowered.grammar = g := by simpa [hl, Except.toOption] using hlower
      cases hc : Compiled.ofGrammar g.stratify with
      | error err => exact absurd hcompiled (by simp [hc, Except.toOption])
      | ok compiled =>
          refine ⟨⟨lowered.types, lowered.start, config, compiled⟩, ?_⟩
          subst hg
          rw [assemble_eq_bind, hl]
          change ofLowered config lowered = _
          rw [ofLowered, hc]
          rfl

/-- A name, and a program that is one. -/
def nameTypes : List NodeType :=
  [((NodeType.named "Program").generates [.field "ident" (.node "Identifier") none]
      Prec.default).start,
    (NodeType.named "Identifier").generates [.field "name" (.literal "x") none] Prec.default]

/-- The second type of `nameTypes` under another name, in place of the type of the given name. -/
def standIn (name source : String) : NodeType :=
  ((NodeType.named name).generates [.field "name" (.literal "x") none] Prec.default).upgrades source

/-- The grammar of `nameTypes` with another name for the second type. -/
def nameGrammar (name : String) : Grammar :=
  { nonTerminals :=
      [⟨"Program", [⟨[.nonTerminal 1], .node "Program" [⟨"ident", 0, none⟩], Prec.default⟩]⟩,
        ⟨name, [⟨[.terminal 0], .node name [⟨"name", 0, none⟩], Prec.default⟩]⟩]
    arena := ⟨[.literal "x"]⟩
    start := 0 }

theorem addTypes_agree_of_nameTypes :
    ∃ l, assemble (nameTypes ++ [standIn "DerefIdentifier" "Identifier"]) .quiet = .ok l ∧
      ∀ b, Agree (l.addTypes b)
        (assemble ((nameTypes ++ [standIn "DerefIdentifier" "Identifier"]) ++ b) .quiet) := by
  obtain ⟨l, hl⟩ : ∃ l, assemble (nameTypes ++ [standIn "DerefIdentifier" "Identifier"]) .quiet =
      .ok l :=
    exists_assemble (g := nameGrammar "DerefIdentifier") (by decide +kernel) (by cbv)
  exact ⟨l, hl, (addTypes_agree_iff hl).2 (by decide +kernel)⟩

/-- Upgrades in two steps: `DerefIdentifier` stands in for `Identifier`, and `CheckedIdentifier` for
`DerefIdentifier`. -/
def chainTypes : List NodeType :=
  nameTypes ++ [standIn "DerefIdentifier" "Identifier", standIn "CheckedIdentifier" "DerefIdentifier"]

/-- The language of `chainTypes` cannot be extended by nothing: its types are a program that mentions
an `Identifier`, and a type that does not stand in for one any more. -/
theorem chainTypes_disagree :
    ∃ l, assemble chainTypes .quiet = .ok l ∧
      ¬ Agree (l.addTypes []) (assemble (chainTypes ++ []) .quiet) := by
  obtain ⟨l, hl⟩ : ∃ l, assemble chainTypes .quiet = .ok l :=
    exists_assemble (g := nameGrammar "CheckedIdentifier") (by decide +kernel) (by cbv)
  refine ⟨l, hl, ?_⟩
  obtain ⟨lowered, hlowered, htypes, -, -⟩ := assemble_eq_ok hl
  have hsettled : (lower chainTypes).toOption.map Lowered.types =
      some (nameTypes.take 1 ++ [standIn "CheckedIdentifier" "DerefIdentifier"]) := by
    decide +kernel
  have hfails : (lower ((nameTypes.take 1 ++ [standIn "CheckedIdentifier" "DerefIdentifier"]) ++
      [])).toOption.isNone = true := by
    decide +kernel
  have htypes' : l.types =
      nameTypes.take 1 ++ [standIn "CheckedIdentifier" "DerefIdentifier"] := by
    rw [htypes]
    simpa [hlowered, Except.toOption] using hsettled
  rw [List.append_nil chainTypes, hl, addTypes, assemble_eq_bind, htypes']
  cases hlower : lower ((nameTypes.take 1 ++
      [standIn "CheckedIdentifier" "DerefIdentifier"]) ++ []) with
  | error err =>
      intro hagree
      cases hagree
  | ok lowered' =>
      rw [hlower] at hfails
      exact absurd hfails (by simp [Except.toOption])

end Language

end SmallLang
