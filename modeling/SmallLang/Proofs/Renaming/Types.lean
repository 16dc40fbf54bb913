import SmallLang.Assembly.Lowering
import SmallLang.Proofs.Assembly.Fields

/-!
# Node types under other names

Rules mention types by name. `Rule.rename` mentions them by other names, and `NodeType.Renamed` says
that a type has the rules of another one with such mentions, and perhaps another name itself. The two
have the same fields, pass the same checks (`NodeType.Renamed.checkFields`), and their rules build the
same up to the kind of the nodes (`NodeType.Renamed.construction`).
-/

set_option autoImplicit false

namespace SmallLang

/-! ## Mentions by other names -/

/-- The element with other names for the types that it mentions. -/
def Sym.rename (m : String → String) : Sym → Sym
  | .this => .this
  | .node name => .node (m name)
  | .terminal t => .terminal t
  | .field name target default => .field name (target.rename m) default

/-- The element of a body with other names for the types that it mentions. -/
def Element.rename (m : String → String) : Element → Element
  | .sym s => .sym (s.rename m)
  | .rest => .rest

/-- The head with another name for the type that it mentions. -/
def Head.rename (m : String → String) : Head → Head
  | .this => .this
  | .type name => .type (m name)
  | .rest => .rest

/-- The rule with other names for the types that it mentions. -/
def Rule.rename (m : String → String) (r : Rule) : Rule :=
  { r with head := r.head.rename m, body := r.body.map (Element.rename m) }

/-- The construction with other kinds of nodes. -/
def Construction.rename (ρ : String → String) : Construction → Construction
  | .node kind slots => .node (ρ kind) slots
  | .operator inner looping => .operator (inner.rename ρ) looping
  | .child i => .child i
  | .emptyList => .emptyList
  | .listHead => .listHead
  | .listNext => .listNext
  | .climb => .climb
  | .endOfTail => .endOfTail

/-- The production with other kinds of nodes. -/
def Production.rename (ρ : String → String) (p : Production) : Production :=
  { p with construction := p.construction.rename ρ }

@[simp] theorem Construction.rename_id (c : Construction) : c.rename id = c := by
  induction c with
  | operator inner looping ih => rw [rename, ih]
  | _ => rfl

@[simp] theorem Construction.rename_rename (ρ σ : String → String) (c : Construction) :
    (c.rename ρ).rename σ = c.rename (σ ∘ ρ) := by
  induction c with
  | operator inner looping ih => simp only [rename, ih]
  | _ => rfl

@[simp] theorem Production.rename_id (p : Production) : p.rename id = p := by
  rw [rename, Construction.rename_id]

@[simp] theorem Sym.rename_id (s : Sym) : s.rename id = s := by
  induction s with
  | field name target default ih => rw [rename, ih]
  | _ => rfl

@[simp] theorem Rule.rename_id (r : Rule) : r.rename id = r := by
  obtain ⟨head, body, template, prec⟩ := r
  have hbody : body.map (Element.rename id) = body := by
    refine List.map_id'' (fun e => ?_) body
    cases e with
    | sym s => rw [Element.rename, Sym.rename_id]
    | rest => rfl
  rw [rename, hbody]
  cases head <;> rfl

@[simp] theorem Element.field?_rename (m : String → String) (e : Element) :
    (e.rename m).field? = e.field? := by
  cases e with
  | sym s => cases s <;> rfl
  | rest => rfl

theorem Element.rename_eq_this_iff (m : String → String) (e : Element) :
    e.rename m = .sym .this ↔ e = .sym .this := by
  cases e with
  | sym s => cases s <;> simp [rename, Sym.rename]
  | rest => simp [rename]

theorem Element.rename_eq_rest_iff (m : String → String) (e : Element) :
    e.rename m = .rest ↔ e = .rest := by
  cases e with
  | sym s => simp [rename]
  | rest => simp [rename]

namespace Rule

variable (m : String → String) (r : Rule)

@[simp] theorem fields_rename : (r.rename m).fields = r.fields := by
  rw [fields, rename, List.filterMap_map]
  exact List.filterMap_congr fun e _ => Element.field?_rename m e

@[simp] theorem fieldPlace_rename (name : String) :
    (r.rename m).fieldPlace name = r.fieldPlace name := by
  rw [fieldPlace, rename, List.findIdx_map, fieldPlace]
  refine congrArg (fun p => r.body.findIdx p) (funext fun e => ?_)
  rw [Function.comp_apply, Element.field?_rename]

@[simp] theorem thisPlaces_rename : (r.rename m).thisPlaces = r.thisPlaces := by
  rw [thisPlaces, rename, List.zipIdx_map, List.filterMap_map, thisPlaces]
  refine List.filterMap_congr ?_
  rintro ⟨e, i⟩ -
  simp only [Function.comp_apply, Prod.map_apply, id_eq, Element.rename_eq_this_iff]

@[simp] theorem usesRest_rename : (r.rename m).usesRest = r.usesRest := by
  have hhead : ((r.head.rename m) == .rest) = (r.head == .rest) := by
    cases r.head <;> rfl
  have hbody : ((r.body.map (Element.rename m)).contains .rest) = r.body.contains .rest := by
    rw [Bool.eq_iff_iff]
    simp [Element.rename_eq_rest_iff]
  rw [usesRest, rename, usesRest, hhead, hbody]

end Rule

/-! ## Types by other names -/

namespace NodeType

/-- The second type is the first one with another name, and with other names for the types that its
rules mention. What the types upgrade does not matter. -/
structure Renamed (m ρ : String → String) (t t' : NodeType) : Prop where
  name : t'.name = ρ t.name
  rules : t'.rules = t.rules.map (Rule.rename m)
  isStart : t'.isStart = t.isStart
  variableField : t'.variableField = t.variableField
  bindings : t'.bindings = t.bindings

namespace Renamed

variable {m ρ : String → String} {t t' : NodeType} (h : Renamed m ρ t t')
include h

theorem buildingRules : t'.buildingRules = t.buildingRules.map (Rule.rename m) := by
  rw [NodeType.buildingRules, h.rules, List.filter_map]
  rfl

theorem fields : t'.fields = t.fields := by
  rw [NodeType.fields, h.buildingRules, List.head?_map, Option.map_map, NodeType.fields]
  refine congrArg (fun f => (Option.map f _).getD []) (funext fun r => ?_)
  exact Rule.fields_rename m r

theorem scoping : t'.scoping = t.scoping := by
  rw [NodeType.scoping, h.variableField, h.bindings]
  rfl

/-- The type passes the check if the other one does. -/
theorem checkFields (hchecked : t.checkFields = .ok ()) : t'.checkFields = .ok () := by
  have hnames : t'.fieldNames = t.fieldNames := by
    rw [fieldNames, h.fields]
    rfl
  obtain ⟨⟨⟩, hbodies, hscoping⟩ := Except.bind_eq_ok_iff.1 hchecked
  refine Except.bind_eq_ok_iff.2 ⟨(), forM_eq_ok fun r hr => ?_, forM_eq_ok fun name hname => ?_⟩
  · rw [h.buildingRules] at hr
    obtain ⟨r', hr', rfl⟩ := List.mem_map.1 hr
    have hbody := forall_of_forM_eq_ok hbodies r' hr'
    simp only [checkBody, Rule.fields_rename, hnames] at hbody ⊢
    split at hbody
    · exact absurd hbody (by simp)
    · split at hbody
      · rename_i hsame
        rw [if_pos hsame]
      · exact absurd hbody (by simp)
  · have hscopingNames : t'.scopingNames = t.scopingNames := by
      rw [scopingNames, h.variableField, h.bindings]
      rfl
    rw [hscopingNames] at hname
    have hfield := forall_of_forM_eq_ok hscoping name hname
    rw [checkField] at hfield ⊢
    split at hfield
    · rename_i hcontains
      rw [hnames, if_pos hcontains]
    · exact absurd hfield (by simp)

/-- A rule builds the same, but nodes of the kind of the other name. -/
theorem construction {r : Rule} {c : Construction} (hc : t.construction r = .ok c) :
    t'.construction (r.rename m) = .ok (c.rename ρ) := by
  have htemplate : (r.rename m).template = r.template := rfl
  cases hcase : r.template with
  | construct =>
      simp only [NodeType.construction, hcase] at hc
      obtain rfl := Except.ok.inj hc
      simp only [NodeType.construction, htemplate, hcase, h.name, h.fields, Rule.fieldPlace_rename]
      rfl
  | skip =>
      simp only [NodeType.construction, hcase] at hc
      split at hc
      · rename_i i hplaces
        obtain rfl := Except.ok.inj hc
        simp only [NodeType.construction, htemplate, hcase, Rule.thisPlaces_rename, hplaces]
        rfl
      · exact absurd hc (by simp)
  | _ =>
      simp only [NodeType.construction, hcase] at hc
      obtain rfl := Except.ok.inj hc
      simp only [NodeType.construction, htemplate, hcase]
      rfl

end Renamed

end NodeType

end SmallLang
