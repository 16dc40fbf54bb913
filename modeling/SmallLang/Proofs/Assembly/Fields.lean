import Mathlib.Data.List.Perm.Subperm
import SmallLang.Assembly.Fields
import SmallLang.Assembly.Lowering
import SmallLang.Proofs.Assembly.Upgrade

/-!
# The fields of a body

A type whose fields pass the check has the same fields in every body that builds its nodes, each
declared once (`NodeType.perm_fieldNames`), so the place that a slot looks up is where the body declares
the field (`Rule.getElem?_fieldPlace`).
-/

set_option autoImplicit false

namespace SmallLang

theorem nodup_of_firstRepeated? {seen names : List String}
    (h : firstRepeated? seen names = none) : names.Nodup ∧ ∀ n ∈ names, n ∉ seen := by
  induction names generalizing seen with
  | nil => exact ⟨List.nodup_nil, fun n hn => absurd hn List.not_mem_nil⟩
  | cons name names ih =>
      rw [firstRepeated?] at h
      split at h
      · simp at h
      · rename_i hname
        obtain ⟨hnodup, hseen⟩ := ih h
        have hnot : name ∉ names := fun hmem => hseen name hmem List.mem_cons_self
        refine ⟨List.nodup_cons.2 ⟨hnot, hnodup⟩, ?_⟩
        intro n hn
        rcases List.mem_cons.1 hn with rfl | hn
        · simpa using hname
        · exact fun hmem => hseen n hn (List.mem_cons_of_mem _ hmem)

/-- A body that passes the check declares each field of the type, and each once. -/
theorem NodeType.checkBody_eq_ok {t : NodeType} {r : Rule} (h : t.checkBody r = .ok ()) :
    (r.fields.map FieldDecl.name).Nodup ∧ t.fieldNames.length = r.fields.length ∧
      ∀ n ∈ t.fieldNames, n ∈ r.fields.map FieldDecl.name := by
  simp only [NodeType.checkBody] at h
  split at h
  · simp at h
  · rename_i hnone
    split at h
    · rename_i hsame
      rw [sameNames, Bool.and_eq_true, beq_iff_eq, List.all_eq_true] at hsame
      refine ⟨(nodup_of_firstRepeated? hnone).1, by simpa using hsame.1, ?_⟩
      intro n hn
      simpa using hsame.2 n hn
    · simp at h

theorem forall_of_forM_eq_ok {α ε : Type} {f : α → Except ε Unit} {xs : List α}
    (h : xs.forM f = .ok ()) : ∀ x ∈ xs, f x = .ok () := by
  induction xs with
  | nil => exact fun x hx => absurd hx List.not_mem_nil
  | cons x xs ih =>
      obtain ⟨⟨⟩, hx, hxs⟩ := Except.bind_eq_ok_iff.1 h
      exact List.forall_mem_cons.2 ⟨hx, ih hxs⟩

theorem forM_eq_ok {α ε : Type} {f : α → Except ε Unit} {xs : List α} (h : ∀ x ∈ xs, f x = .ok ()) :
    xs.forM f = .ok () := by
  induction xs with
  | nil => rfl
  | cons x xs ih =>
      obtain ⟨hx, hxs⟩ := List.forall_mem_cons.1 h
      exact Except.bind_eq_ok_iff.2 ⟨(), hx, ih hxs⟩

theorem NodeType.checkBody_of_checkFields {t : NodeType} (h : t.checkFields = .ok ()) :
    ∀ r ∈ t.buildingRules, t.checkBody r = .ok () := by
  obtain ⟨⟨⟩, hbodies, -⟩ := Except.bind_eq_ok_iff.1 h
  exact forall_of_forM_eq_ok hbodies

/-- In a body that builds nodes, the fields are those of the type, each declared once. -/
theorem NodeType.perm_fieldNames {t : NodeType} (h : t.checkFields = .ok ()) {r : Rule}
    (hr : r ∈ t.buildingRules) :
    (r.fields.map FieldDecl.name).Nodup ∧ t.fieldNames.Perm (r.fields.map FieldDecl.name) := by
  have hbodies := t.checkBody_of_checkFields h
  obtain ⟨hnodup, hlength, hsubset⟩ := NodeType.checkBody_eq_ok (hbodies r hr)
  refine ⟨hnodup, ?_⟩
  have hfirst : t.fieldNames.Nodup := by
    cases hrules : t.buildingRules with
    | nil => simp [NodeType.fieldNames, NodeType.fields, hrules]
    | cons first others =>
        have hmem : first ∈ t.buildingRules := by rw [hrules]; exact List.mem_cons_self
        have hnames : t.fieldNames = first.fields.map FieldDecl.name := by
          simp [NodeType.fieldNames, NodeType.fields, hrules]
        rw [hnames]
        exact (NodeType.checkBody_eq_ok (hbodies first hmem)).1
  exact (hfirst.subperm hsubset).perm_of_length_le (by simp [hlength])

theorem getElem?_findIdx_field {body : List Element} {name : String} {target : Sym}
    {default : Option Value}
    (hnodup : ((body.filterMap Element.field?).map FieldDecl.name).Nodup)
    (hmem : .sym (.field name target default) ∈ body) :
    body[body.findIdx fun e => (e.field?.map FieldDecl.name) == some name]? =
      some (.sym (.field name target default)) := by
  induction body with
  | nil => exact absurd hmem List.not_mem_nil
  | cons e body ih =>
      rw [List.findIdx_cons]
      by_cases hname : e.field?.map FieldDecl.name = some name
      · obtain ⟨f, hf, rfl⟩ := Option.map_eq_some_iff.1 hname
        rw [List.filterMap_cons_some hf, List.map_cons, List.nodup_cons] at hnodup
        have hhead : .sym (.field f.name target default) = e := by
          rcases List.mem_cons.1 hmem with heq | hmem
          · exact heq
          · have hfield : ⟨f.name, default⟩ ∈ body.filterMap Element.field? :=
              List.mem_filterMap.2 ⟨_, hmem, rfl⟩
            exact absurd (List.mem_map.2 ⟨_, hfield, rfl⟩) hnodup.1
        simp [hf, hhead]
      · have htail : .sym (.field name target default) ∈ body := by
          rcases List.mem_cons.1 hmem with rfl | hmem
          · exact absurd rfl hname
          · exact hmem
        have hnodup' : ((body.filterMap Element.field?).map FieldDecl.name).Nodup := by
          refine hnodup.sublist (List.Sublist.map _ ?_)
          exact List.Sublist.filterMap _ (List.sublist_cons_self e body)
        rw [beq_false_of_ne hname, cond_false, List.getElem?_cons_succ]
        exact ih hnodup' htail

/-- The place of a field in a body is where the body declares it. -/
theorem Rule.getElem?_fieldPlace {r : Rule} (h : (r.fields.map FieldDecl.name).Nodup)
    {name : String} {target : Sym} {default : Option Value}
    (hmem : .sym (.field name target default) ∈ r.body) :
    r.body[r.fieldPlace name]? = some (.sym (.field name target default)) :=
  getElem?_findIdx_field h hmem

/-- Each field of the type has a place in every body that builds its nodes. -/
theorem NodeType.exists_field {t : NodeType} (h : t.checkFields = .ok ()) {r : Rule}
    (hr : r ∈ t.buildingRules) {name : String} (hname : name ∈ t.fieldNames) :
    ∃ target default, .sym (.field name target default) ∈ r.body := by
  obtain ⟨f, hf, rfl⟩ := List.mem_map.1 ((t.perm_fieldNames h hr).2.subset hname)
  obtain ⟨e, he, hfield⟩ := List.mem_filterMap.1 hf
  obtain ⟨target, rfl⟩ : ∃ target, e = .sym (.field f.name target f.default) := by
    unfold Element.field? at hfield
    split at hfield
    · rename_i target default
      obtain rfl := Option.some.inj hfield
      exact ⟨target, rfl⟩
    · simp at hfield
  exact ⟨target, f.default, he⟩

/-- The place of a field is within every body that builds nodes of the type. -/
theorem NodeType.fieldPlace_lt {t : NodeType} (h : t.checkFields = .ok ()) {r : Rule}
    (hr : r ∈ t.buildingRules) {f : FieldDecl} (hf : f ∈ t.fields) :
    r.fieldPlace f.name < r.body.length := by
  obtain ⟨target, default, hmem⟩ := t.exists_field h hr (List.mem_map.2 ⟨f, hf, rfl⟩)
  exact (List.getElem?_eq_some_iff.1
    (Rule.getElem?_fieldPlace (t.perm_fieldNames h hr).1 hmem)).1

/-- What a body declares is a field of the type. -/
theorem NodeType.mem_fieldNames {t : NodeType} (h : t.checkFields = .ok ()) {r : Rule}
    (hr : r ∈ t.buildingRules) {name : String} {target : Sym} {default : Option Value}
    (hmem : .sym (.field name target default) ∈ r.body) : name ∈ t.fieldNames := by
  refine (t.perm_fieldNames h hr).2.symm.subset (List.mem_map.2 ⟨⟨name, default⟩, ?_, rfl⟩)
  exact List.mem_filterMap.2 ⟨_, hmem, rfl⟩

end SmallLang
