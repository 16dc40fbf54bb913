import SmallLang.Parsing.Fold
import SmallLang.Proofs.Nodes
import SmallLang.Proofs.Renaming.Types

/-!
# Values under other kinds of nodes

`Value.rename` gives the nodes of a value other kinds. It goes through constructions: from renamed
children the renamed construction builds the renamed value (`Construction.apply_rename`), as long as it
asks only for children that are there, since a default is not renamed. A renamed value has the free names
that the value had, if the other kinds mean the same for names (`Value.freeNames_rename`).
-/

set_option autoImplicit false

namespace SmallLang

open List (Forall₂)

namespace Value

/-- Induction over a value: through the items of a list and the fields of a node. -/
theorem induct {motive : Value → Prop} (scalar : ∀ v, v.IsScalar → motive v)
    (list : ∀ items, (∀ v ∈ items, motive v) → motive (.list items))
    (node : ∀ kind fields, (∀ f ∈ fields, motive f.2) → motive (.node kind fields)) :
    ∀ v, motive v := by
  intro v
  refine @Value.rec motive (fun items => ∀ v ∈ items, motive v)
    (fun fields => ∀ f ∈ fields, motive f.2) (fun f => motive f.2) ?_ ?_ ?_ ?_ ?_ ?_ ?_ ?_ ?_ ?_ ?_ ?_ v
  · exact fun n => scalar _ trivial
  · exact fun b => scalar _ trivial
  · exact fun s => scalar _ trivial
  · exact fun s => scalar _ trivial
  · exact fun s => scalar _ trivial
  · exact list
  · exact node
  · exact fun v hv => absurd hv List.not_mem_nil
  · exact fun v items hv hitems => List.forall_mem_cons.2 ⟨hv, hitems⟩
  · exact fun f hf => absurd hf List.not_mem_nil
  · exact fun f fields hf hfields => List.forall_mem_cons.2 ⟨hf, hfields⟩
  · exact fun name v hv => hv

/-! ## Other kinds -/

mutual

/-- The value with other kinds of nodes. -/
def rename (ρ : String → String) : Value → Value
  | list items => list (renameAll ρ items)
  | node kind fields => node (ρ kind) (renameFields ρ fields)
  | int n => int n
  | bool b => bool b
  | text s => text s
  | ident s => ident s
  | token s => token s

/-- The values of a list with other kinds of nodes. -/
def renameAll (ρ : String → String) : List Value → List Value
  | [] => []
  | v :: vs => rename ρ v :: renameAll ρ vs

/-- The values of some fields with other kinds of nodes. -/
def renameFields (ρ : String → String) : List (String × Value) → List (String × Value)
  | [] => []
  | (name, v) :: fs => (name, rename ρ v) :: renameFields ρ fs

end

variable (ρ : String → String)

@[simp] theorem rename_list (items : List Value) :
    (list items).rename ρ = list (items.map (rename ρ)) := by
  have hall : ∀ vs, renameAll ρ vs = vs.map (rename ρ) := by
    intro vs
    induction vs with
    | nil => rfl
    | cons v vs ih => rw [renameAll, ih, List.map_cons]
  rw [rename, hall]

@[simp] theorem rename_node (kind : String) (fields : List (String × Value)) :
    (node kind fields).rename ρ = node (ρ kind) (fields.map fun f => (f.1, f.2.rename ρ)) := by
  have hall : ∀ fs, renameFields ρ fs = fs.map fun f => (f.1, f.2.rename ρ) := by
    intro fs
    induction fs with
    | nil => rfl
    | cons f fs ih => rw [renameFields, ih, List.map_cons]
  rw [rename, hall]

@[simp] theorem rename_empty : empty.rename ρ = empty := rename_list ρ []

theorem rename_of_isScalar {v : Value} (hv : v.IsScalar) : v.rename ρ = v := by
  cases v with
  | list items => exact hv.elim
  | node kind fields => exact hv.elim
  | _ => rfl

variable {ρ}

/-- Only the kinds of the nodes in a value matter. -/
theorem rename_congr {σ : String → String} {v : Value}
    (h : v.AllNodes fun kind _ => ρ kind = σ kind) : v.rename ρ = v.rename σ := by
  induction v using Value.induct with
  | scalar v hv => rw [rename_of_isScalar ρ hv, rename_of_isScalar σ hv]
  | list items ih =>
      rw [rename_list, rename_list]
      exact congrArg list (List.map_congr_left fun v hv => ih v hv (allNodes_list_iff.1 h v hv))
  | node kind fields ih =>
      obtain ⟨hkind, hfields⟩ := allNodes_node_iff.1 h
      rw [rename_node, rename_node, hkind]
      refine congrArg (node (σ kind)) (List.map_congr_left fun f hf => ?_)
      rw [ih f hf (hfields f hf)]

@[simp] theorem rename_id (v : Value) : v.rename id = v := by
  induction v using Value.induct with
  | scalar v hv => exact rename_of_isScalar id hv
  | list items ih =>
      rw [rename_list, List.map_congr_left ih, List.map_id']
  | node kind fields ih =>
      have hfields : ∀ f ∈ fields, (f.1, f.2.rename id) = f := fun f hf => by rw [ih f hf]
      rw [rename_node, List.map_congr_left hfields, List.map_id', id_eq]

/-- A value without nodes of the renamed kinds stays as it is. -/
theorem rename_eq_self {v : Value} (h : v.AllNodes fun kind _ => ρ kind = kind) :
    v.rename ρ = v := by
  have hid : v.rename ρ = v.rename id := rename_congr h
  rw [hid, rename_id]

@[simp] theorem rename_rename (ρ σ : String → String) (v : Value) :
    (v.rename ρ).rename σ = v.rename (σ ∘ ρ) := by
  induction v using Value.induct with
  | scalar v hv => simp only [rename_of_isScalar _ hv]
  | list items ih =>
      rw [rename_list, rename_list, rename_list, List.map_map]
      exact congrArg list (List.map_congr_left ih)
  | node kind fields ih =>
      rw [rename_node, rename_node, rename_node, List.map_map]
      refine congrArg (node (σ (ρ kind))) (List.map_congr_left fun f hf => ?_)
      rw [Function.comp_apply, ih f hf]

theorem items?_rename (v : Value) : (v.rename ρ).items? = v.items?.map (List.map (rename ρ)) := by
  cases v with
  | list items => rw [rename_list]; rfl
  | node kind fields => rw [rename_node]; rfl
  | _ => rfl

theorem itemsOf_rename (v : Option Value) :
    itemsOf (v.map (rename ρ)) = (itemsOf v).map (rename ρ) := by
  cases v with
  | none => rfl
  | some v =>
      rw [Option.map_some, itemsOf, itemsOf, Option.bind_some, Option.bind_some, items?_rename]
      cases v.items? <;> rfl

end Value

/-! ## Constructions -/

/-- The construction asks for no child beyond the first `n`, so that no default is needed. It makes no
operator level. -/
def Construction.Plain (n : Nat) : Construction → Prop
  | .node _ slots => ∀ s ∈ slots, s.child < n
  | .child _ => True
  | .emptyList => True
  | .listHead => True
  | .listNext => True
  | _ => False

/-- From renamed children the renamed construction builds the renamed value. -/
theorem Construction.apply_rename {c : Construction} {vs : List Value} (hc : c.Plain vs.length)
    (ρ : String → String) :
    (c.rename ρ).apply (vs.map (Value.rename ρ)) = (c.apply vs).rename ρ := by
  have hget : ∀ i : Nat, (vs.map (Value.rename ρ))[i]? = vs[i]?.map (Value.rename ρ) :=
    fun i => List.getElem?_map
  cases c with
  | node kind slots =>
      simp only [rename, apply, Value.rename_node, List.map_map]
      refine congrArg (Value.node (ρ kind)) (List.map_congr_left fun s hs => ?_)
      have hlt : s.child < vs.length := hc s hs
      simp [Slot.value, hlt]
  | child i =>
      simp only [rename, apply, hget]
      cases vs[i]? <;> simp
  | emptyList => simp [rename, apply]
  | listHead =>
      simp only [rename, apply, hget, Value.rename_list, List.map_append, Value.itemsOf_rename]
      cases vs[0]? <;> rfl
  | listNext =>
      simp only [rename, apply, hget, Value.rename_list, List.map_append, Value.itemsOf_rename]
      cases vs[1]? <;> rfl
  | climb => exact hc.elim
  | operator inner looping => exact hc.elim
  | endOfTail => exact hc.elim

/-! ## Free names -/

namespace Value

mutual

/-- The names of a value do not depend on the kinds of its nodes. -/
theorem names_rename (ρ : String → String) : ∀ v : Value, (v.rename ρ).names = v.names
  | list vs => by
      rw [rename, names, names, namesAll_renameAll ρ vs]
  | node kind fields => by rw [rename, names, names]; all_goals simp
  | int _ | bool _ | text _ | ident _ | token _ => rfl

theorem namesAll_renameAll (ρ : String → String) :
    ∀ vs : List Value, namesAll (renameAll ρ vs) = namesAll vs
  | [] => rfl
  | v :: vs => by
      rw [renameAll, namesAll, namesAll, names_rename ρ v, namesAll_renameAll ρ vs]

end

theorem str?_rename (ρ : String → String) (v : Value) : (v.rename ρ).str? = v.str? := by
  cases v <;> simp [rename, str?]

/-- Fields with other kinds of nodes. -/
theorem lookup_rename (ρ : String → String) (fields : List (String × Value)) (name : String) :
    (fields.map fun f => (f.1, f.2.rename ρ)).lookup name = (fields.lookup name).map (rename ρ) := by
  induction fields with
  | nil => rfl
  | cons f fields ih =>
      rw [List.map_cons, List.lookup_cons, List.lookup_cons, ih]
      split <;> rfl

end Value

namespace Scoping

variable (s : Scoping) (ρ : String → String) (fields : List (String × Value))

theorem referent?_rename :
    s.referent? (fields.map fun f => (f.1, f.2.rename ρ)) = s.referent? fields := by
  rw [referent?, referent?]
  refine congrArg (Option.bind s.variableField) (funext fun field => ?_)
  rw [Value.lookup_rename, Option.bind_map]
  exact congrArg (Option.bind _) (funext (Value.str?_rename ρ))

theorem boundIn_rename (field : String) :
    s.boundIn (fields.map fun f => (f.1, f.2.rename ρ)) field = s.boundIn fields field := by
  rw [boundIn, boundIn]
  refine List.flatMap_congr fun b _ => List.flatMap_congr fun binder _ => ?_
  rw [Value.lookup_rename, Option.map_map]
  exact congrArg (fun f => (Option.map f _).getD []) (funext (Value.names_rename ρ))

end Scoping

/-- A value to be searched, with other kinds of nodes. -/
def Pending.rename (ρ : String → String) (p : Pending) : Pending := ⟨p.value.rename ρ, p.bound⟩

namespace FreeNames

variable {ρ : String → String} {scopes scopes' : Scopes}

theorem searchedItems_rename (items : List Value) (bound : List String) :
    searchedItems (items.map (Value.rename ρ)) bound =
      (searchedItems items bound).map (Pending.rename ρ) := by
  rw [searchedItems, searchedItems, List.map_map, List.map_map]
  rfl

theorem searchedFields_rename (s : Scoping) (fields : List (String × Value)) (bound : List String) :
    searchedFields s (fields.map fun f => (f.1, f.2.rename ρ)) bound =
      (searchedFields s fields bound).map (Pending.rename ρ) := by
  rw [searchedFields, searchedFields, List.filterMap_map, List.map_filterMap]
  refine List.filterMap_congr fun f _ => ?_
  simp only [Function.comp_apply, Scoping.boundIn_rename]
  split <;> rfl

/-- The kinds of the nodes still to be searched mean under their other names what they meant. -/
def Keeps (ρ : String → String) (scopes scopes' : Scopes) (ps : List Pending) : Prop :=
  ∀ p ∈ ps, p.value.AllNodes fun kind _ => scopes' (ρ kind) = scopes kind

theorem Keeps.node {kind : String} {fields : List (String × Value)} {bound : List String}
    {rest : List Pending} (h : Keeps ρ scopes scopes' (⟨.node kind fields, bound⟩ :: rest)) :
    scopes' (ρ kind) = scopes kind ∧
      Keeps ρ scopes scopes' (searchedFields (scopes kind) fields bound ++ rest) := by
  obtain ⟨hnode, hrest⟩ := List.forall_mem_cons.1 h
  obtain ⟨hkind, hfields⟩ := Value.allNodes_node_iff.1 hnode
  refine ⟨hkind, List.forall_mem_append.2 ⟨fun p hp => ?_, hrest⟩⟩
  obtain ⟨f, hf, hsearched⟩ := List.mem_filterMap.1 hp
  split at hsearched
  · obtain rfl := Option.some.inj hsearched
    exact hfields f hf
  · exact absurd hsearched (by simp)

theorem Keeps.list {items : List Value} {bound : List String} {rest : List Pending}
    (h : Keeps ρ scopes scopes' (⟨.list items, bound⟩ :: rest)) :
    Keeps ρ scopes scopes' (searchedItems items bound ++ rest) := by
  obtain ⟨hlist, hrest⟩ := List.forall_mem_cons.1 h
  refine List.forall_mem_append.2 ⟨fun p hp => ?_, hrest⟩
  obtain ⟨v, hv, rfl⟩ := List.mem_map.1 hp
  exact Value.allNodes_list_iff.1 hlist v hv

/-- The next free name is the same, and what is left to be searched is the same with other kinds. -/
theorem nextPending_rename {ps : List Pending} (h : Keeps ρ scopes scopes' ps) :
    nextPending scopes' (ps.map (Pending.rename ρ)) =
        (nextPending scopes ps).map (fun x => (x.1, x.2.map (Pending.rename ρ))) ∧
      ∀ x, nextPending scopes ps = some x → Keeps ρ scopes scopes' x.2 := by
  -- Along the search: lists and nodes put what they hold before the rest, a reference is a name if
  -- nothing binds it, and other values hold nothing.
  fun_induction nextPending scopes ps with
  | case1 => exact ⟨by simp [nextPending], fun x hx => absurd hx (by simp)⟩
  | case2 items bound rest ih =>
      obtain ⟨hnext, hrest⟩ := ih h.list
      refine ⟨?_, hrest⟩
      rw [List.map_cons, Pending.rename, Value.rename_list, nextPending, searchedItems_rename,
        ← List.map_append, hnext]
  | case3 kind fields bound rest after name hname hbound ih =>
      obtain ⟨hkind, hafter⟩ := h.node
      obtain ⟨hnext, hrest⟩ := ih hafter
      refine ⟨?_, hrest⟩
      rw [List.map_cons, Pending.rename, Value.rename_node, nextPending, hkind,
        Scoping.referent?_rename, hname]
      simp only [hbound, if_true]
      rw [searchedFields_rename, ← List.map_append, hnext]
  | case4 kind fields bound rest after name hname hbound =>
      obtain ⟨hkind, hafter⟩ := h.node
      refine ⟨?_, fun x hx => ?_⟩
      · rw [List.map_cons, Pending.rename, Value.rename_node, nextPending, hkind,
          Scoping.referent?_rename, hname]
        simp only [hbound, Bool.false_eq_true, if_false]
        rw [searchedFields_rename, ← List.map_append]
        rfl
      · obtain rfl := Option.some.inj hx
        exact hafter
  | case5 kind fields bound rest after hname ih =>
      obtain ⟨hkind, hafter⟩ := h.node
      obtain ⟨hnext, hrest⟩ := ih hafter
      refine ⟨?_, hrest⟩
      rw [List.map_cons, Pending.rename, Value.rename_node, nextPending, hkind,
        Scoping.referent?_rename, hname]
      simp only
      rw [searchedFields_rename, ← List.map_append, hnext]
  | case6 _ _ rest ih | case7 _ _ rest ih | case8 _ _ rest ih | case9 _ _ rest ih
  | case10 _ _ rest ih =>
      obtain ⟨hnext, hrest⟩ := ih (List.forall_mem_cons.1 h).2
      refine ⟨?_, hrest⟩
      rw [List.map_cons, Pending.rename, Value.rename, nextPending, hnext]

theorem toList_rename {e : FreeNames} (h : Keeps ρ scopes scopes' e.pending) :
    toList scopes' ⟨e.pending.map (Pending.rename ρ)⟩ = e.toList scopes := by
  obtain ⟨n, hn⟩ : ∃ n, e.measure = n := ⟨_, rfl⟩
  induction n using Nat.strong_induction_on generalizing e with
  | _ n ih =>
      obtain ⟨hnext, hrest⟩ := nextPending_rename h
      have hstep : next? scopes' ⟨e.pending.map (Pending.rename ρ)⟩ =
          (e.next? scopes).map fun x => (x.1, ⟨x.2.pending.map (Pending.rename ρ)⟩) := by
        rw [next?, next?, hnext, Option.map_map, Option.map_map]
        rfl
      rw [toList, toList, hstep]
      cases hx : e.next? scopes with
      | none => rfl
      | some x =>
          obtain ⟨⟨name, ps⟩, hps, rfl⟩ := Option.map_eq_some_iff.1 hx
          have hlt := measure_next?_lt hx
          simp only [Option.map_some]
          exact congrArg (name :: ·) (ih _ (hn ▸ hlt) (hrest _ hps) rfl)

end FreeNames

/-- A value has the same free names under other kinds that mean the same for names. -/
theorem Value.freeNames_rename {ρ : String → String} {scopes scopes' : Scopes} {v : Value}
    (h : v.AllNodes fun kind _ => scopes' (ρ kind) = scopes kind) :
    (v.rename ρ).freeNames scopes' = v.freeNames scopes :=
  FreeNames.toList_rename (e := .ofValue v) (List.forall_mem_singleton.2 h)

end SmallLang
