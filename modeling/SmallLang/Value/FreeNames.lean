import SmallLang.Value

/-!
# Free names of a value

A node type may say that one field names a variable, and that the names in some fields are bound in
others. The free names of a value are the variables that no node around them binds. They are
enumerated one at a time: an enumeration is the list of values still to be searched, each with the
names bound around it, so stopping early searches no further than needed, and every enumeration
comes to an end (`FreeNames.measure_next?_lt`).
-/

set_option autoImplicit false

namespace SmallLang

/-- The names held by the `binders` fields are bound inside the `scope` fields. -/
structure Binding where
  binders : List String
  scope : List String
  deriving DecidableEq, Repr

/-- What the nodes of one type mean for names: the field naming the variable that the node refers
to, if it refers to one, and the bindings it makes. -/
structure Scoping where
  variableField : Option String
  bindings : List Binding
  deriving DecidableEq, Repr, Inhabited

namespace Scoping

/-- Nodes that neither refer to a variable nor bind one. -/
def plain : Scoping := ⟨none, []⟩

/-- Whether some binding takes its names from the field. -/
def isBinder (s : Scoping) (field : String) : Bool :=
  s.bindings.any fun b => b.binders.contains field

/-- Whether names are searched in the field: neither the variable nor a binder. -/
def isSearched (s : Scoping) (field : String) : Bool :=
  s.variableField != some field && !s.isBinder field

/-- The names that a node with the given fields binds inside one of them. -/
def boundIn (s : Scoping) (fields : List (String × Value)) (field : String) : List String :=
  (s.bindings.filter fun b => b.scope.contains field).flatMap fun b =>
    b.binders.flatMap fun binder => ((fields.lookup binder).map Value.names).getD []

/-- The name of the variable that a node with the given fields refers to. -/
def referent? (s : Scoping) (fields : List (String × Value)) : Option String :=
  s.variableField.bind fun field => (fields.lookup field).bind Value.str?

end Scoping

/-- The scoping of each kind of node. -/
abbrev Scopes := String → Scoping

/-- A value still to be searched, and the names bound around it. -/
structure Pending where
  value : Value
  bound : List String

/-- An enumeration of free names: what is still to be searched, in order. -/
structure FreeNames where
  pending : List Pending

namespace FreeNames

/-- The enumeration of the free names of a value. -/
def ofValue (v : Value) : FreeNames := ⟨[⟨v, []⟩]⟩

/-- The items of a list, to be searched with the names bound around the list. -/
def searchedItems (items : List Value) (bound : List String) : List Pending :=
  items.map fun v => ⟨v, bound⟩

/-- The fields of a node that are to be searched, each with the names bound in it. -/
def searchedFields (s : Scoping) (fields : List (String × Value)) (bound : List String) :
    List Pending :=
  fields.filterMap fun f =>
    if s.isSearched f.1 then some ⟨f.2, s.boundIn fields f.1 ++ bound⟩ else none

/-- The size of what is still to be searched. -/
def pendingSize : List Pending → Nat
  | [] => 0
  | p :: ps => p.value.size + pendingSize ps

theorem pendingSize_cons (p : Pending) (ps : List Pending) :
    pendingSize (p :: ps) = p.value.size + pendingSize ps := rfl

theorem pendingSize_append (ps qs : List Pending) :
    pendingSize (ps ++ qs) = pendingSize ps + pendingSize qs := by
  induction ps with
  | nil => exact (Nat.zero_add _).symm
  | cons p ps ih =>
      rw [List.cons_append, pendingSize_cons, pendingSize_cons, ih, Nat.add_assoc]

theorem pendingSize_searchedItems (vs : List Value) (bound : List String) :
    pendingSize (searchedItems vs bound) = Value.sizeAll vs := by
  induction vs with
  | nil => rfl
  | cons v vs ih =>
      show pendingSize (⟨v, bound⟩ :: searchedItems vs bound) = v.size + Value.sizeAll vs
      rw [pendingSize_cons, ih]

theorem pendingSize_searchedFields_le (s : Scoping) (fields : List (String × Value))
    (bound : List String) :
    pendingSize (searchedFields s fields bound) ≤ Value.sizeFields fields := by
  have key : ∀ fs : List (String × Value),
      pendingSize (fs.filterMap fun f =>
        if s.isSearched f.1 then some ⟨f.2, s.boundIn fields f.1 ++ bound⟩ else none) ≤
      Value.sizeFields fs := by
    intro fs
    induction fs with
    | nil => exact Nat.le_refl _
    | cons f fs ih =>
        obtain ⟨name, v⟩ := f
        by_cases h : s.isSearched name = true
        · simp only [List.filterMap_cons, h, if_true, pendingSize_cons, Value.sizeFields]
          exact Nat.add_le_add_left ih _
        · simp only [List.filterMap_cons, if_neg h, Value.sizeFields]
          exact Nat.le_trans ih (Nat.le_add_left _ _)
  exact key fields

/-- The next free name and the enumeration of those after it. A node comes before its fields, and
earlier fields and items before later ones. -/
def nextPending (scopes : Scopes) : List Pending → Option (String × List Pending)
  | [] => none
  -- The items take the place of the list.
  | ⟨.list items, bound⟩ :: rest =>
      nextPending scopes (searchedItems items bound ++ rest)
  -- The fields take the place of the node, after the variable that it refers to.
  | ⟨.node kind fields, bound⟩ :: rest =>
      let after := searchedFields (scopes kind) fields bound ++ rest
      match (scopes kind).referent? fields with
      | some name => if bound.contains name then nextPending scopes after else some (name, after)
      | none => nextPending scopes after
  | ⟨.int _, _⟩ :: rest => nextPending scopes rest
  | ⟨.bool _, _⟩ :: rest => nextPending scopes rest
  | ⟨.text _, _⟩ :: rest => nextPending scopes rest
  | ⟨.ident _, _⟩ :: rest => nextPending scopes rest
  | ⟨.token _, _⟩ :: rest => nextPending scopes rest
termination_by ps => pendingSize ps
decreasing_by
  · rw [pendingSize_append, pendingSize_searchedItems, pendingSize_cons, Value.size]
    omega
  · have := pendingSize_searchedFields_le (scopes kind) fields bound
    rw [pendingSize_append, pendingSize_cons, Value.size]
    omega
  · have := pendingSize_searchedFields_le (scopes kind) fields bound
    rw [pendingSize_append, pendingSize_cons, Value.size]
    omega
  all_goals
    rw [pendingSize_cons, Value.size]
    · omega
    all_goals simp

/-- The next free name and the enumeration of those after it. -/
def next? (scopes : Scopes) (e : FreeNames) : Option (String × FreeNames) :=
  (nextPending scopes e.pending).map fun (name, rest) => (name, ⟨rest⟩)

/-- The size of what an enumeration has still to search. -/
def measure (e : FreeNames) : Nat := pendingSize e.pending

theorem pendingSize_nextPending_lt (scopes : Scopes) (ps : List Pending) :
    ∀ name rest, nextPending scopes ps = some (name, rest) → pendingSize rest < pendingSize ps := by
  fun_induction nextPending scopes ps with
  | case1 => intro name rest h; simp at h
  | case2 items bound rest ih =>
      intro name rest' h
      have := ih name rest' h
      rw [pendingSize_append, pendingSize_searchedItems] at this
      rw [pendingSize_cons, Value.size]
      omega
  | case3 kind fields bound rest after name hname hbound ih =>
      intro name' rest' h
      have h₁ := ih name' rest' h
      have h₂ := pendingSize_searchedFields_le (scopes kind) fields bound
      rw [pendingSize_append] at h₁
      rw [pendingSize_cons, Value.size]
      omega
  | case4 kind fields bound rest after name hname hbound =>
      intro name' rest' h
      have h₂ := pendingSize_searchedFields_le (scopes kind) fields bound
      simp only [Option.some.injEq, Prod.mk.injEq] at h
      rw [← h.2, pendingSize_append, pendingSize_cons, Value.size]
      omega
  | case5 kind fields bound rest after hname ih =>
      intro name' rest' h
      have h₁ := ih name' rest' h
      have h₂ := pendingSize_searchedFields_le (scopes kind) fields bound
      rw [pendingSize_append] at h₁
      rw [pendingSize_cons, Value.size]
      omega
  | case6 _ _ rest ih | case7 _ _ rest ih | case8 _ _ rest ih | case9 _ _ rest ih
  | case10 _ _ rest ih =>
      intro name' rest' h
      have h₁ := ih name' rest' h
      rw [pendingSize_cons]
      omega

/-- Each name found leaves less to be searched. -/
theorem measure_next?_lt {scopes : Scopes} {e rest : FreeNames} {name : String}
    (h : e.next? scopes = some (name, rest)) : rest.measure < e.measure := by
  obtain ⟨⟨name', ps⟩, hps, heq⟩ := Option.map_eq_some_iff.1 h
  simp only [Prod.mk.injEq] at heq
  rw [← heq.2]
  exact pendingSize_nextPending_lt scopes e.pending name' ps hps

/-- All names an enumeration has still to give. -/
def toList (scopes : Scopes) (e : FreeNames) : List String :=
  match _ : e.next? scopes with
  | none => []
  | some (name, rest) => name :: rest.toList scopes
termination_by e.measure
decreasing_by exact measure_next?_lt ‹_›

/-- The enumeration that is left after up to `n` names. -/
def drop (scopes : Scopes) : Nat → FreeNames → FreeNames
  | 0, e => e
  | n + 1, e =>
      match e.next? scopes with
      | none => e
      | some (_, rest) => drop scopes n rest

end FreeNames

/-- The free names of a value, once for each free occurrence. -/
def Value.freeNames (scopes : Scopes) (v : Value) : List String :=
  (FreeNames.ofValue v).toList scopes

end SmallLang
