import Mathlib.Data.FinEnum
import Mathlib.Data.Fintype.Sum
import SmallLang.Assembly.Lowering

/-!
# Lowering with other priorities

Lowering hands the priorities of rules on to productions and reads them nowhere else. Only the test whether
two declarations of one name are equal compares them, so a map that keeps different priorities different
goes through lowering (`lower_regrade`): the same declarations with other priorities become the same
grammar with these priorities.
-/

set_option autoImplicit false

namespace SmallLang

/-! ## Other priorities -/

/-- The precedence with the image of its priority. -/
def Prec.regrade (f : Int32 → Int32) (p : Prec) : Prec := { p with priority := f p.priority }

/-- The rule with the image of its priority. -/
def Rule.regrade (f : Int32 → Int32) (r : Rule) : Rule := { r with prec := r.prec.regrade f }

/-- The production with the image of its priority. -/
def Production.regrade (f : Int32 → Int32) (p : Production) : Production :=
  { p with prec := p.prec.regrade f }

/-- The productions with the images of their priorities. -/
def NonTerminal.regrade (f : Int32 → Int32) (nt : NonTerminal) : NonTerminal :=
  { nt with productions := nt.productions.map (Production.regrade f) }

/-- The grammar with the images of all priorities. -/
def Grammar.regrade (f : Int32 → Int32) (g : Grammar) : Grammar :=
  { g with nonTerminals := g.nonTerminals.map (NonTerminal.regrade f) }

namespace NodeType

/-- The declaration with the images of all priorities. -/
def regrade (f : Int32 → Int32) (t : NodeType) : NodeType :=
  { t with rules := t.rules.map (Rule.regrade f) }

/-- The priorities of the rules. -/
def priorities (t : NodeType) : List Int32 := t.rules.map fun r => r.prec.priority

end NodeType

/-- What was lowered, with the images of all priorities. -/
def Lowered.regrade (f : Int32 → Int32) (lowered : Lowered) : Lowered :=
  ⟨lowered.grammar.regrade f, lowered.types.map (NodeType.regrade f), lowered.start⟩

/-- A map that tells some priorities apart agrees on them with one that tells all priorities apart. -/
theorem exists_injective_eq_on {f : Int32 → Int32} {ps : List Int32}
    (hf : ∀ p ∈ ps, ∀ q ∈ ps, f p = f q → p = q) :
    ∃ σ : Int32 → Int32, Function.Injective σ ∧ ∀ p ∈ ps, σ p = f p := by
  have hinj : Set.InjOn f (ps.toFinset : Set Int32) := fun p hp q hq =>
    hf p (List.mem_toFinset.1 hp) q (List.mem_toFinset.1 hq)
  -- There are as many images as priorities, so what is not in the list can be sent to what is left.
  obtain ⟨σ, hσ⟩ := Finset.exists_equiv_extend_of_card_eq (t := Finset.univ) Finset.card_univ.symm
    (Finset.subset_univ _) hinj
  exact ⟨fun p => σ p, fun p q h => σ.injective (Subtype.ext h),
    fun p hp => hσ p (List.mem_toFinset.2 hp)⟩

theorem NodeType.map_regrade_congr {f σ : Int32 → Int32} {declared : List NodeType}
    (h : ∀ p ∈ declared.flatMap NodeType.priorities, σ p = f p) :
    declared.map (NodeType.regrade σ) = declared.map (NodeType.regrade f) := by
  refine List.map_congr_left fun t ht => ?_
  have hrules : t.rules.map (Rule.regrade σ) = t.rules.map (Rule.regrade f) := by
    refine List.map_congr_left fun r hr => ?_
    have hp : r.prec.priority ∈ declared.flatMap NodeType.priorities :=
      List.mem_flatMap.2 ⟨t, ht, List.mem_map.2 ⟨r, hr, rfl⟩⟩
    rw [Rule.regrade, Rule.regrade, Prec.regrade, Prec.regrade, h _ hp]
  rw [NodeType.regrade, NodeType.regrade, hrules]

variable {f : Int32 → Int32}

theorem Rule.regrade_injective (hf : Function.Injective f) : Function.Injective (Rule.regrade f) := by
  intro r r' h
  obtain ⟨head, body, template, ⟨assoc, p⟩⟩ := r
  obtain ⟨head', body', template', ⟨assoc', p'⟩⟩ := r'
  simp only [Rule.regrade, Prec.regrade, Rule.mk.injEq, Prec.mk.injEq] at h ⊢
  exact ⟨h.1, h.2.1, h.2.2.1, h.2.2.2.1, hf h.2.2.2.2⟩

theorem NodeType.regrade_injective (hf : Function.Injective f) :
    Function.Injective (NodeType.regrade f) := by
  intro t t' h
  obtain ⟨name, rules, upgraded, isStart, field, bindings⟩ := t
  obtain ⟨name', rules', upgraded', isStart', field', bindings'⟩ := t'
  simp only [NodeType.regrade, NodeType.mk.injEq] at h ⊢
  exact ⟨h.1, List.map_injective_iff.2 (Rule.regrade_injective hf) h.2.1, h.2.2⟩

/-! ## Steps on images -/

/-- A fold goes through maps if each of its steps does. -/
theorem Except.foldlM_map_eq_map {ε α α' β β' : Type} {step : β → α → Except ε β}
    {step' : β' → α' → Except ε β'} {φ : β → β'} {ψ : α → α'}
    (h : ∀ b a, step' (φ b) (ψ a) = (step b a).map φ) (xs : List α) (b : β) :
    (xs.map ψ).foldlM step' (φ b) = (xs.foldlM step b).map φ := by
  induction xs generalizing b with
  | nil => rfl
  | cons x xs ih =>
      rw [List.map_cons, List.foldlM_cons, List.foldlM_cons, h]
      cases step b x with
      | error e => rfl
      | ok b' => exact ih b'

/-- Steps in a row go through maps if each of them does. -/
theorem Lower.mapM_map_eq_map {α α' β β' : Type} {step : α → Lower β} {step' : α' → Lower β'}
    {φ : β → β'} {ψ : α → α'} (h : ∀ a, step' (ψ a) = φ <$> step a) (xs : List α) :
    (xs.map ψ).mapM step' = List.map φ <$> xs.mapM step := by
  induction xs with
  | nil => rfl
  | cons x xs ih =>
      rw [List.map_cons, List.mapM_cons, List.mapM_cons, h, ih]
      simp only [map_bind, bind_map_left, map_pure, List.map_cons]

/-! ## Upgrades -/

namespace Upgrades

/-- The table with the images of all priorities. -/
def regrade (f : Int32 → Int32) (u : Upgrades) : Upgrades := u.map fun x => (x.1, x.2.regrade f)

theorem lookup_regrade (u : Upgrades) (name : String) :
    (u.regrade f).lookup name = (u.lookup name).map (NodeType.regrade f) := by
  induction u with
  | nil => rfl
  | cons x u ih =>
      obtain ⟨s, t⟩ := x
      rw [regrade, List.map_cons, List.lookup_cons, List.lookup_cons]
      cases name == s with
      | true => rfl
      | false => exact ih

theorem add_regrade (t : NodeType) (u : Upgrades) (name : String) :
    add (t.regrade f) (u.regrade f) name = (add t u name).map (regrade f) := by
  rw [add, add, lookup_regrade]
  cases u.lookup name with
  | none =>
      refine congrArg Except.ok ?_
      rw [regrade, regrade, List.map_append]
      rfl
  | some first =>
      simp only [Option.map_some, NodeType.regrade, apply_ite (Except.map (regrade f))]
      rfl

theorem ofTypes_regrade (declared : List NodeType) :
    ofTypes (declared.map (NodeType.regrade f)) = (ofTypes declared).map (regrade f) := by
  rw [ofTypes, ofTypes]
  refine Except.foldlM_map_eq_map (φ := regrade f) (fun u t => ?_) declared []
  have hnames := Except.foldlM_map_eq_map (ψ := id) (fun u name => add_regrade (f := f) t u name)
    t.upgraded u
  rwa [List.map_id] at hnames

theorem follow_regrade (u : Upgrades) (n : Nat) (t : NodeType) :
    (u.regrade f).follow n (t.regrade f) = (u.follow n t).map (NodeType.regrade f) := by
  induction n generalizing t with
  | zero => rfl
  | succ n ih =>
      have hlookup : (u.regrade f).lookup (t.regrade f).name = _ := lookup_regrade u t.name
      rw [follow, follow, hlookup]
      cases u.lookup t.name with
      | none => rfl
      | some next => exact ih next

theorem final?_regrade (u : Upgrades) (t : NodeType) :
    (u.regrade f).final? (t.regrade f) = (u.final? t).map (NodeType.regrade f) := by
  rw [final?, final?, ← follow_regrade, regrade, List.length_map]

theorem resolve_regrade (u : Upgrades) (t : NodeType) :
    (u.regrade f).resolve (t.regrade f) = (u.resolve t).map (NodeType.regrade f) := by
  rw [resolve, resolve, final?_regrade]
  cases u.final? t with
  | none => rfl
  | some last => rfl

theorem finalName?_regrade (u : Upgrades) (name : String) :
    (u.regrade f).finalName? name = u.finalName? name := by
  rw [finalName?, finalName?, lookup_regrade]
  cases u.lookup name with
  | none => rfl
  | some next =>
      show ((u.regrade f).final? (next.regrade f)).map NodeType.name = _
      rw [final?_regrade, Option.map_map]
      rfl

theorem find?_regrade (types : List NodeType) (name : String) :
    (types.map (NodeType.regrade f)).find? (·.name == name) =
      (types.find? (·.name == name)).map (NodeType.regrade f) :=
  List.find?_map

theorem admitType_regrade (hf : Function.Injective f) (types : List NodeType) (t : NodeType) :
    admitType (types.map (NodeType.regrade f)) (t.regrade f) =
      (admitType types t).map (List.map (NodeType.regrade f)) := by
  have hfind : (types.map (NodeType.regrade f)).find? (·.name == (t.regrade f).name) = _ :=
    find?_regrade types t.name
  rw [admitType, admitType, hfind]
  cases types.find? (·.name == t.name) with
  | none =>
      refine congrArg Except.ok ?_
      rw [List.map_append]
      rfl
  | some known =>
      -- The only place where priorities are compared.
      simp only [Option.map_some, (NodeType.regrade_injective hf).eq_iff]
      split <;> rfl

theorem settle_regrade (hf : Function.Injective f) (u : Upgrades) (declared : List NodeType) :
    (u.regrade f).settle (declared.map (NodeType.regrade f)) =
      (u.settle declared).map (List.map (NodeType.regrade f)) := by
  rw [settle, settle]
  refine Except.foldlM_map_eq_map (φ := List.map (NodeType.regrade f)) (fun settled t => ?_) declared []
  rw [resolve_regrade]
  cases u.resolve t with
  | error e => rfl
  | ok last => exact admitType_regrade hf settled last

end Upgrades

theorem uniqueStart_regrade (types : List NodeType) :
    uniqueStart (types.map (NodeType.regrade f)) = uniqueStart types := by
  have hfilter : (types.map (NodeType.regrade f)).filter NodeType.isStart =
      (types.filter NodeType.isStart).map (NodeType.regrade f) := List.filter_map
  rw [uniqueStart, uniqueStart, hfilter]
  match types.filter NodeType.isStart with
  | [] => rfl
  | [t] => rfl
  | t :: t' :: ts =>
      simp only [List.map_cons, List.map_map]
      rfl

/-! ## Rules -/

namespace NodeType

theorem buildingRules_regrade (t : NodeType) :
    (t.regrade f).buildingRules = t.buildingRules.map (Rule.regrade f) :=
  List.filter_map

theorem fields_regrade (t : NodeType) : (t.regrade f).fields = t.fields := by
  rw [fields, fields, buildingRules_regrade, List.head?_map, Option.map_map]
  rfl

theorem fieldNames_regrade (t : NodeType) : (t.regrade f).fieldNames = t.fieldNames := by
  rw [fieldNames, fieldNames, fields_regrade]

theorem checkFields_regrade (t : NodeType) : (t.regrade f).checkFields = t.checkFields := by
  have hbody : ∀ r : Rule, (t.regrade f).checkBody (r.regrade f) = t.checkBody r := by
    intro r
    rw [checkBody, checkBody, fieldNames_regrade]
    rfl
  have hfield : (t.regrade f).checkField = t.checkField := by
    funext name
    rw [checkField, checkField, fieldNames_regrade]
    rfl
  have hbodies : (t.regrade f).buildingRules.forM (t.regrade f).checkBody =
      t.buildingRules.forM t.checkBody := by
    rw [buildingRules_regrade]
    exact List.forM_map.trans (congrArg t.buildingRules.forM (funext hbody))
  rw [checkFields, checkFields, hbodies, hfield]
  rfl

theorem construction_regrade (t : NodeType) (r : Rule) :
    (t.regrade f).construction (r.regrade f) = t.construction r := by
  rw [construction, construction, fields_regrade]
  rfl

end NodeType

namespace Naming

/-- The naming of the types with the images of all priorities. -/
def regrade (f : Int32 → Int32) (ns : Naming) : Naming :=
  ⟨ns.upgrades.regrade f, ns.types.map (NodeType.regrade f)⟩

variable (ns : Naming)

theorem typeNumber?_regrade (name : String) :
    (ns.regrade f).typeNumber? name = ns.typeNumber? name := by
  have hfind : ∀ final : String,
      (ns.types.map (NodeType.regrade f)).findIdx? (·.name == final) =
        ns.types.findIdx? (·.name == final) := fun final => List.findIdx?_map
  have hfinal : (ns.regrade f).upgrades.finalName? name = ns.upgrades.finalName? name :=
    Upgrades.finalName?_regrade ns.upgrades name
  rw [typeNumber?, typeNumber?, hfinal]
  exact congrArg _ (funext hfind)

theorem listTypes_regrade : (ns.regrade f).listTypes = ns.listTypes := by
  have hany : ∀ t : NodeType,
      (t.regrade f).rules.any Rule.usesRest = t.rules.any Rule.usesRest := fun t => List.any_map
  have hfilter : (ns.types.map (NodeType.regrade f)).filter (fun t => t.rules.any Rule.usesRest) =
      (ns.types.filter fun t => t.rules.any Rule.usesRest).map (NodeType.regrade f) := by
    rw [List.filter_map]
    exact congrArg (List.map _) (List.filter_congr fun t _ => hany t)
  rw [listTypes, listTypes, regrade, hfilter, List.map_map]
  rfl

theorem restNumber_regrade (owner : String) :
    (ns.regrade f).restNumber owner = ns.restNumber owner := by
  rw [restNumber, restNumber, listTypes_regrade, regrade, List.length_map]

theorem nonTerminalNames_regrade : (ns.regrade f).nonTerminalNames = ns.nonTerminalNames := by
  rw [nonTerminalNames, nonTerminalNames, listTypes_regrade, regrade, List.map_map]
  rfl

theorem lowerType_regrade (owner name : String) :
    (ns.regrade f).lowerType owner name = ns.lowerType owner name := by
  rw [lowerType, lowerType, typeNumber?_regrade]

theorem lowerSym_regrade (owner : String) (s : Sym) :
    (ns.regrade f).lowerSym owner s = ns.lowerSym owner s := by
  induction s with
  | this => rw [lowerSym, lowerSym, lowerType_regrade]
  | node name => rw [lowerSym, lowerSym, lowerType_regrade]
  | terminal t => rw [lowerSym, lowerSym]
  | field name target default ih => rw [lowerSym, lowerSym, ih]

theorem lowerElement_regrade (owner : String) :
    (ns.regrade f).lowerElement owner = ns.lowerElement owner := by
  funext x
  cases x with
  | sym s => exact ns.lowerSym_regrade owner s
  | rest => rw [lowerElement, lowerElement, restNumber_regrade]

theorem lowerHead_regrade (owner : String) (head : Head) :
    (ns.regrade f).lowerHead owner head = ns.lowerHead owner head := by
  cases head with
  | this => exact ns.lowerType_regrade owner owner
  | type name => exact ns.lowerType_regrade owner name
  | rest => rw [lowerHead, lowerHead, restNumber_regrade]

theorem lowerRule_regrade (t : NodeType) (r : Rule) :
    (ns.regrade f).lowerRule (t.regrade f) (r.regrade f) =
      Prod.map id (Production.regrade f) <$> ns.lowerRule t r := by
  have hhead : (ns.regrade f).lowerHead (t.regrade f).name (r.regrade f).head =
      ns.lowerHead t.name r.head := ns.lowerHead_regrade t.name r.head
  have helement : (ns.regrade f).lowerElement (t.regrade f).name = ns.lowerElement t.name :=
    ns.lowerElement_regrade t.name
  rw [lowerRule, lowerRule, hhead, helement, NodeType.construction_regrade]
  simp only [map_bind, map_pure]
  rfl

theorem lowerNodeType_regrade (t : NodeType) :
    (ns.regrade f).lowerNodeType (t.regrade f) =
      List.map (Prod.map id (Production.regrade f)) <$> ns.lowerNodeType t := by
  have hrules := Lower.mapM_map_eq_map (fun r => ns.lowerRule_regrade (f := f) t r) t.rules
  rw [lowerNodeType, lowerNodeType, NodeType.checkFields_regrade, map_bind]
  exact congrArg _ (funext fun _ => hrules)

theorem lowerAll_regrade : (ns.regrade f).lowerAll =
    List.map (Prod.map id (Production.regrade f)) <$> ns.lowerAll := by
  have htypes := Lower.mapM_map_eq_map (fun t => ns.lowerNodeType_regrade (f := f) t) ns.types
  have hmapped : (ns.regrade f).types.mapM (ns.regrade f).lowerNodeType = _ := htypes
  rw [lowerAll, lowerAll, hmapped]
  simp only [bind_map_left, map_bind, map_pure, List.map_flatten]

theorem nonTerminals_regrade (productions : List (Nat × Production)) :
    (ns.regrade f).nonTerminals (productions.map (Prod.map id (Production.regrade f))) =
      (ns.nonTerminals productions).map (NonTerminal.regrade f) := by
  rw [nonTerminals, nonTerminals, nonTerminalNames_regrade, List.map_map]
  refine List.map_congr_left fun x _ => ?_
  have hfilter : (productions.map (Prod.map id (Production.regrade f))).filter (·.1 == x.2) =
      (productions.filter (·.1 == x.2)).map (Prod.map id (Production.regrade f)) := List.filter_map
  show NonTerminal.mk _ _ = NonTerminal.mk _ _
  rw [hfilter, List.map_map, List.map_map]
  rfl

end Naming

/-- The same declarations with other priorities are lowered to the same grammar with these. -/
theorem lower_regrade (hf : Function.Injective f) (declared : List NodeType) :
    lower (declared.map (NodeType.regrade f)) = (lower declared).map (Lowered.regrade f) := by
  -- Stage by stage: each one yields the images, or fails with the same error.
  rw [lower, lower, Upgrades.ofTypes_regrade]
  cases Upgrades.ofTypes declared with
  | error e => rfl
  | ok u =>
  have hsettle := Upgrades.settle_regrade hf u declared
  show ((u.regrade f).settle _ >>= _) = Except.map _ (u.settle declared >>= _)
  rw [hsettle]
  cases u.settle declared with
  | error e => rfl
  | ok types =>
  show (uniqueStart (types.map (NodeType.regrade f)) >>= _) = Except.map _ (uniqueStart types >>= _)
  rw [uniqueStart_regrade]
  cases uniqueStart types with
  | error e => rfl
  | ok start =>
  have hall : (Naming.regrade f ⟨u, types⟩).lowerAll.run Arena.empty =
      ((Naming.mk u types).lowerAll.run Arena.empty).map
        (Prod.map (List.map (Prod.map id (Production.regrade f))) id) := by
    rw [Naming.lowerAll_regrade]
    exact StateT.run_map _ _ _
  show ((Naming.regrade f ⟨u, types⟩).lowerAll.run Arena.empty >>= _) =
    Except.map _ ((Naming.mk u types).lowerAll.run Arena.empty >>= _)
  rw [hall]
  cases (Naming.mk u types).lowerAll.run Arena.empty with
  | error e => rfl
  | ok made =>
  have hstart : (types.map (NodeType.regrade f)).findIdx (·.name == start) =
      types.findIdx (·.name == start) := List.findIdx_map ..
  have hnonTerminals := Naming.nonTerminals_regrade (f := f) ⟨u, types⟩ made.1
  show Except.ok (Lowered.mk ⟨_, _, _⟩ _ _) = Except.ok (Lowered.mk ⟨_, _, _⟩ _ _)
  rw [hstart]
  exact congrArg (fun nts => Except.ok (Lowered.mk ⟨nts, made.2, _⟩ _ start)) hnonTerminals

end SmallLang
