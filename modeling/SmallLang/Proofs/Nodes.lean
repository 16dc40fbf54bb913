import SmallLang.Assembly.Lowering
import SmallLang.Parsing.Scanner

/-!
# Nodes within a value

A value may hold nodes anywhere in its lists and nodes. `Value.AllNodes` says something about each of
them. What a rule builds has only such nodes if its children do, and if the node that it builds itself
is one (`NodeType.allNodes_apply`). The tokens of a text have no nodes at all
(`Scanner.isScalar_of_scanFrom`).
-/

set_option autoImplicit false

namespace SmallLang

namespace Value

/-- The first value is the second one, or is within an item of a list or a field of a node. -/
inductive Within : Value → Value → Prop
  | self (v : Value) : Within v v
  | item {w v : Value} {items : List Value} (hv : v ∈ items) (hw : Within w v) :
      Within w (.list items)
  | field {w v : Value} {kind name : String} {fields : List (String × Value)}
      (hv : (name, v) ∈ fields) (hw : Within w v) : Within w (.node kind fields)

/-- A node of the kind. -/
def IsNode (kind : String) (v : Value) : Prop := ∃ fields, v = .node kind fields

/-- A value without parts, as tokens have it. -/
def IsScalar : Value → Prop
  | .list _ => False
  | .node _ _ => False
  | _ => True

/-- Every node within the value has the property. -/
def AllNodes (N : String → List (String × Value) → Prop) (v : Value) : Prop :=
  ∀ kind fields, Within (.node kind fields) v → N kind fields

variable {N : String → List (String × Value) → Prop}

theorem allNodes_of_isScalar {v : Value} (hv : v.IsScalar) : AllNodes N v := by
  intro kind fields hwithin
  cases hwithin with
  | self => exact absurd hv (by simp [IsScalar])
  | item _ _ => exact absurd hv (by simp [IsScalar])
  | field _ _ => exact absurd hv (by simp [IsScalar])

theorem allNodes_list_iff {items : List Value} :
    AllNodes N (.list items) ↔ ∀ v ∈ items, AllNodes N v := by
  constructor
  · intro h v hv kind fields hwithin
    exact h kind fields (.item hv hwithin)
  · intro h kind fields hwithin
    cases hwithin with
    | item hv hwithin => exact h _ hv kind fields hwithin

theorem allNodes_node_iff {kind : String} {fields : List (String × Value)} :
    AllNodes N (.node kind fields) ↔ N kind fields ∧ ∀ f ∈ fields, AllNodes N f.2 := by
  constructor
  · intro h
    exact ⟨h kind fields (.self _), fun f hf kind' fields' hwithin =>
      h kind' fields' (.field hf hwithin)⟩
  · rintro ⟨hnode, hfields⟩ kind' fields' hwithin
    cases hwithin with
    | self => exact hnode
    | field hv hwithin => exact hfields _ hv kind' fields' hwithin

theorem allNodes_empty : AllNodes N .empty :=
  allNodes_list_iff.2 fun _ hv => absurd hv List.not_mem_nil

theorem allNodes_getD {vs : List Value} (h : ∀ v ∈ vs, AllNodes N v) (i : Nat) :
    AllNodes N (vs[i]?.getD .empty) := by
  cases hv : vs[i]? with
  | none => exact allNodes_empty
  | some v => exact h v (List.mem_of_getElem? hv)

theorem allNodes_items {vs : List Value} (h : ∀ v ∈ vs, AllNodes N v) (i j : Nat) :
    AllNodes N (.list (vs[i]?.toList ++ itemsOf vs[j]?)) := by
  refine allNodes_list_iff.2 fun v hv => ?_
  rcases List.mem_append.1 hv with hv | hv
  · exact h v (List.mem_of_getElem? (Option.mem_toList.1 hv))
  · cases hw : vs[j]? with
    | none => simp [hw, itemsOf] at hv
    | some w =>
        have hnodes := h w (List.mem_of_getElem? hw)
        cases w with
        | list items =>
            rw [hw] at hv
            exact allNodes_list_iff.1 hnodes v hv
        | _ => simp [hw, itemsOf, Value.items?] at hv

end Value

/-- What a rule of the type builds has only nodes of the property if its children do, and if the node
that the rule builds, where it builds one, does. -/
theorem NodeType.allNodes_apply {N : String → List (String × Value) → Prop} {t : NodeType} {r : Rule}
    {c : Construction} (hc : t.construction r = .ok c) {vs : List Value}
    (hvs : ∀ v ∈ vs, v.AllNodes N)
    (hnode : r.template = .construct → ((Construction.node t.name
      (t.fields.map fun f => ⟨f.name, r.fieldPlace f.name, f.default⟩)).apply vs).AllNodes N) :
    (c.apply vs).AllNodes N := by
  cases htemplate : r.template with
  | construct =>
      simp only [construction, htemplate] at hc
      obtain rfl := Except.ok.inj hc
      exact hnode htemplate
  | handOn =>
      simp only [construction, htemplate] at hc
      obtain rfl := Except.ok.inj hc
      exact Value.allNodes_getD hvs 0
  | skip =>
      simp only [construction, htemplate] at hc
      split at hc
      · obtain rfl := Except.ok.inj hc
        exact Value.allNodes_getD hvs _
      · simp at hc
  | emptyList =>
      simp only [construction, htemplate] at hc
      obtain rfl := Except.ok.inj hc
      exact Value.allNodes_empty
  | listHead =>
      simp only [construction, htemplate] at hc
      obtain rfl := Except.ok.inj hc
      exact Value.allNodes_items hvs 0 1
  | listNext =>
      simp only [construction, htemplate] at hc
      obtain rfl := Except.ok.inj hc
      exact Value.allNodes_items hvs 1 2

/-! ## Tokens of a text -/

theorem Decoder.isScalar_of_decode {d : Decoder} {text : String} {v : Value}
    (h : d.decode text = some v) : v.IsScalar := by
  cases d with
  | integer =>
      obtain ⟨n, -, rfl⟩ := Option.map_eq_some_iff.1 h
      trivial
  | boolean =>
      simp only [Decoder.decode] at h
      split at h
      · obtain rfl := Option.some.inj h
        trivial
      · split at h
        · obtain rfl := Option.some.inj h
          trivial
        · simp at h
  | text =>
      obtain ⟨cs, -, rfl⟩ := Option.map_eq_some_iff.1 h
      trivial
  | identifier =>
      obtain rfl := Option.some.inj h
      trivial
  | raw =>
      obtain rfl := Option.some.inj h
      trivial

theorem Terminal.isScalar_of_decode {t : Terminal} {text : String} {position : Position} {v : Value}
    (h : t.decode text position = .ok v) : v.IsScalar := by
  cases t with
  | literal text' =>
      obtain rfl := Except.ok.inj h
      trivial
  | ofClass c =>
      rw [Terminal.decode] at h
      split at h
      · rename_i w hdecode
        obtain rfl := Except.ok.inj h
        exact Decoder.isScalar_of_decode hdecode
      · simp at h

theorem Scanner.isScalar_of_nextToken {s : Scanner} {position : Position} {rest after : List Char}
    {token : Token} (h : s.nextToken position rest = .ok (token, after)) :
    token.value.IsScalar := by
  unfold nextToken at h
  split at h
  · simp at h
  · rename_i c hc
    cases hdecode : c.terminal.decode (String.ofList (rest.take c.length)) position with
    | error err => simp [hdecode, Except.map] at h
    | ok v =>
        simp only [hdecode, Except.map, Except.ok.injEq, Prod.mk.injEq] at h
        rw [← h.1]
        exact Terminal.isScalar_of_decode hdecode

/-- The tokens of a text have values without parts. -/
theorem Scanner.isScalar_of_scanFrom {s : Scanner} {position : Position} {cs : List Char}
    {tokens : List Token} (h : s.scanFrom position cs = .ok tokens) :
    ∀ token ∈ tokens, token.value.IsScalar := by
  fun_induction s.scanFrom position cs generalizing tokens with
  | case1 position cs hnil =>
      obtain rfl := Except.ok.inj h
      exact fun token htoken => absurd htoken List.not_mem_nil
  | case2 => simp at h
  | case3 position cs span hne here token after hnext hlt =>
      rename_i ih
      cases hrest : s.scanFrom (here.advance token.text.toList) after with
      | error err => simp [hrest, Except.map] at h
      | ok rest =>
          simp only [hrest, Except.map, Except.ok.injEq] at h
          subst h
          exact List.forall_mem_cons.2 ⟨isScalar_of_nextToken hnext, ih hrest⟩

end SmallLang
