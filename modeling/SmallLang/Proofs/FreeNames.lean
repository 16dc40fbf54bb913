import Mathlib.Data.List.Forall2
import SmallLang.Value.FreeNames

/-!
# Free names, one at a time and all at once

The free names of a value have a definition by recursion on the value (`Value.openNames`): those of the
items of a list one after the other, and for a node the variable that it refers to and then, field by
field, the names of the field without those that the node binds in it. An enumeration gives exactly these
names, in this order and with repeats (`Value.freeNames_eq_openNames`).

An enumeration is a place in this list and nothing more: however enumerations are asked for names and
copied, they answer as places in the list do (`FreeNames.answers_eq`).
-/

set_option autoImplicit false

namespace SmallLang

open List (Forall₂)

namespace Value

mutual

/-- The free names of a value, by recursion on the value. -/
def openNames (scopes : Scopes) : Value → List String
  | list vs => openNamesAll scopes vs
  | node kind fields =>
      ((scopes kind).referent? fields).toList ++ openNamesFields scopes (scopes kind) fields fields
  | _ => []

/-- The free names of some values, one after the other. -/
def openNamesAll (scopes : Scopes) : List Value → List String
  | [] => []
  | v :: vs => openNames scopes v ++ openNamesAll scopes vs

/-- The free names of some of the fields of a node. The variable and the binders have none, and those of
any other field are without the names that the node, with all its fields, binds in the field. -/
def openNamesFields (scopes : Scopes) (s : Scoping) (all : List (String × Value)) :
    List (String × Value) → List String
  | [] => []
  | (name, v) :: fs =>
      (if s.isSearched name then
        (openNames scopes v).filter fun n => !(s.boundIn all name).contains n
      else []) ++ openNamesFields scopes s all fs

end

end Value

/-! ## What an enumeration has still to give -/

namespace FreeNames

variable {scopes : Scopes}

/-- The names that are open in what is still to be searched and not bound around it. -/
def openPending (scopes : Scopes) (ps : List Pending) : List String :=
  ps.flatMap fun p => (p.value.openNames scopes).filter fun n => !p.bound.contains n

theorem openPending_cons (p : Pending) (ps : List Pending) :
    openPending scopes (p :: ps) =
      ((p.value.openNames scopes).filter fun n => !p.bound.contains n) ++ openPending scopes ps :=
  rfl

theorem openPending_append (ps qs : List Pending) :
    openPending scopes (ps ++ qs) = openPending scopes ps ++ openPending scopes qs :=
  List.flatMap_append

/-- A scalar has nothing to give. -/
theorem openPending_scalar {v : Value} (hv : v.openNames scopes = []) (bound : List String)
    (ps : List Pending) : openPending scopes (⟨v, bound⟩ :: ps) = openPending scopes ps := by
  rw [openPending_cons, hv, List.filter_nil, List.nil_append]

/-- The items of a list give what the list gives. -/
theorem openPending_searchedItems (vs : List Value) (bound : List String) :
    openPending scopes (searchedItems vs bound) =
      (Value.openNamesAll scopes vs).filter fun n => !bound.contains n := by
  induction vs with
  | nil => rfl
  | cons v vs ih =>
      rw [searchedItems, List.map_cons, openPending_cons, Value.openNamesAll, List.filter_append]
      rw [searchedItems] at ih
      rw [ih]

/-- The fields that are searched give what the fields of the node give. -/
theorem openPending_searchedFields (s : Scoping) (fields : List (String × Value))
    (bound : List String) :
    openPending scopes (searchedFields s fields bound) =
      (Value.openNamesFields scopes s fields fields).filter fun n => !bound.contains n := by
  -- The names that are bound come from all fields, the recursion is on those still to come.
  suffices key : ∀ fs : List (String × Value),
      openPending scopes (fs.filterMap fun f =>
        if s.isSearched f.1 then some ⟨f.2, s.boundIn fields f.1 ++ bound⟩ else none) =
      (Value.openNamesFields scopes s fields fs).filter fun n => !bound.contains n from key fields
  intro fs
  induction fs with
  | nil => rfl
  | cons f fs ih =>
      obtain ⟨name, v⟩ := f
      rw [Value.openNamesFields, List.filter_append, ← ih]
      by_cases hsearched : s.isSearched name = true
      · have hfilter : ((v.openNames scopes).filter fun n =>
            !(s.boundIn fields name ++ bound).contains n) =
            ((v.openNames scopes).filter fun n => !(s.boundIn fields name).contains n).filter
              fun n => !bound.contains n := by
          rw [List.filter_filter]
          refine List.filter_congr fun n _ => ?_
          rw [List.contains_append, Bool.not_or, Bool.and_comm]
        simp only [List.filterMap_cons, hsearched, if_true, openPending_cons, hfilter]
      · simp only [List.filterMap_cons, if_neg hsearched, List.filter_nil, List.nil_append]

/-- A node gives the variable that it refers to, unless it is bound around the node, and then what its
fields give. -/
theorem openPending_node (kind : String) (fields : List (String × Value)) (bound : List String)
    (ps : List Pending) :
    openPending scopes (⟨.node kind fields, bound⟩ :: ps) =
      (((scopes kind).referent? fields).toList.filter fun n => !bound.contains n) ++
        openPending scopes (searchedFields (scopes kind) fields bound ++ ps) := by
  rw [openPending_cons, Value.openNames, List.filter_append, openPending_append,
    openPending_searchedFields, List.append_assoc]

/-- The next name is the first that is open, and the others come after it. -/
theorem openPending_eq (ps : List Pending) :
    openPending scopes ps =
      match nextPending scopes ps with
      | none => []
      | some (name, rest) => name :: openPending scopes rest := by
  fun_induction nextPending scopes ps with
  | case1 => rfl
  | case2 items bound rest ih =>
      rw [← ih, openPending_append, openPending_searchedItems, openPending_cons, Value.openNames]
  | case3 kind fields bound rest after name hname hbound ih =>
      rw [← ih, openPending_node, hname, Option.toList_some,
        List.filter_cons_of_neg (by simpa using hbound)]
      rfl
  | case4 kind fields bound rest after name hname hbound =>
      rw [openPending_node, hname, Option.toList_some,
        List.filter_cons_of_pos (by simpa using hbound)]
      rfl
  | case5 kind fields bound rest after hname ih =>
      rw [← ih, openPending_node, hname]
      rfl
  | case6 _ _ rest ih | case7 _ _ rest ih | case8 _ _ rest ih | case9 _ _ rest ih
  | case10 _ _ rest ih =>
      rw [← ih]
      exact openPending_scalar (by simp [Value.openNames]) _ _

theorem toList_of_none {e : FreeNames} (h : e.next? scopes = none) : e.toList scopes = [] := by
  rw [toList]
  split
  · rfl
  · rename_i name rest hsome
    rw [h] at hsome
    exact absurd hsome (by simp)

theorem toList_of_some {e rest : FreeNames} {name : String}
    (h : e.next? scopes = some (name, rest)) : e.toList scopes = name :: rest.toList scopes := by
  rw [toList]
  split
  · rename_i hnone
    rw [h] at hnone
    exact absurd hnone (by simp)
  · rename_i name' rest' hsome
    obtain ⟨rfl, rfl⟩ := Prod.mk.inj (Option.some.inj (h.symm.trans hsome))
    rfl

/-- An enumeration has all open names still to give. -/
theorem toList_eq_openPending (e : FreeNames) : e.toList scopes = openPending scopes e.pending := by
  fun_induction toList scopes e with
  | case1 e hnone =>
      rw [openPending_eq, Option.map_eq_none_iff.1 hnone]
  | case2 e name rest hsome ih =>
      obtain ⟨⟨name', ps⟩, hps, heq⟩ := Option.map_eq_some_iff.1 hsome
      obtain ⟨rfl, rfl⟩ := Prod.mk.inj heq
      rw [openPending_eq, hps, ih]

/-- An enumeration begins with all names that are open in the value. -/
theorem toList_ofValue (v : Value) : (ofValue v).toList scopes = v.openNames scopes := by
  rw [toList_eq_openPending, ofValue, openPending_cons]
  simp [openPending]

/-- After some names an enumeration has the others still to give. -/
theorem toList_drop (k : Nat) (e : FreeNames) :
    (e.drop scopes k).toList scopes = (e.toList scopes).drop k := by
  induction k generalizing e with
  | zero => rfl
  | succ k ih =>
      cases h : e.next? scopes with
      | none =>
          rw [drop, h]
          exact (toList_of_none h).trans (by rw [toList_of_none h, List.drop_nil])
      | some x =>
          rw [drop, h, toList_of_some h, List.drop_succ_cons]
          exact ih x.2

/-! ## Enumerations that are copied -/

/-- What can be asked of enumerations, which are numbered in the order in which they are made. -/
inductive Request where
  /-- The next name of an enumeration. -/
  | next (i : Nat)
  /-- A copy of an enumeration as it is now. -/
  | copy (i : Nat)

section Sessions

variable {α β : Type}

/-- The answer to a request, and what the enumerations are after it. Of one that does not exist there is
nothing to be had. -/
def serve (call : α → Option String × α) (es : List α) : Request → Option String × List α
  | .next i =>
      match es[i]? with
      | none => (none, es)
      | some e => ((call e).1, es.set i (call e).2)
  | .copy i => (none, es ++ es[i]?.toList)

/-- The answers to some requests, one after the other. -/
def answers (call : α → Option String × α) (es : List α) : List Request → List (Option String)
  | [] => []
  | r :: rs => (serve call es r).1 :: answers call (serve call es r).2 rs

theorem rel_getElem? {R : α → β → Prop} {es : List α} {es' : List β} (h : Forall₂ R es es')
    (i : Nat) : Option.Rel R es[i]? es'[i]? := by
  induction h generalizing i with
  | nil => exact Option.Rel.none
  | cons he _ ih =>
      cases i with
      | zero => exact Option.Rel.some he
      | succ i => exact ih i

theorem rel_set {R : α → β → Prop} {es : List α} {es' : List β} (h : Forall₂ R es es') (i : Nat)
    {e : α} {e' : β} (he : R e e') : Forall₂ R (es.set i e) (es'.set i e') := by
  induction h generalizing i with
  | nil => exact .nil
  | cons hfirst hrest ih =>
      cases i with
      | zero => exact .cons he hrest
      | succ i => exact .cons hfirst (ih i)

variable {call : α → Option String × α} {call' : β → Option String × β} {R : α → β → Prop}
  (hcall : ∀ e e', R e e' → (call e).1 = (call' e').1 ∧ R (call e).2 (call' e').2)
include hcall

/-- A request keeps enumerations of two kinds related, and is answered alike. -/
theorem serve_related {es : List α} {es' : List β} (h : Forall₂ R es es') (r : Request) :
    (serve call es r).1 = (serve call' es' r).1 ∧
      Forall₂ R (serve call es r).2 (serve call' es' r).2 := by
  cases r with
  | next i =>
      have hi := rel_getElem? h i
      simp only [serve]
      generalize es[i]? = e, es'[i]? = e' at hi ⊢
      cases hi with
      | none => exact ⟨rfl, h⟩
      | some he => exact ⟨(hcall _ _ he).1, rel_set h i (hcall _ _ he).2⟩
  | copy i =>
      have hi := rel_getElem? h i
      refine ⟨rfl, List.rel_append h ?_⟩
      generalize es[i]? = e, es'[i]? = e' at hi ⊢
      cases hi with
      | none => exact .nil
      | some he => exact .cons he .nil

/-- Two kinds of enumerations give the same answers, if what is related gives the same name and stays
related. -/
theorem answers_related {es : List α} {es' : List β} (h : Forall₂ R es es') (rs : List Request) :
    answers call es rs = answers call' es' rs := by
  induction rs generalizing es es' with
  | nil => rfl
  | cons r rs ih =>
      obtain ⟨hanswer, hnext⟩ := serve_related hcall h r
      rw [answers, answers, hanswer, ih hnext]

end Sessions

/-- A request for the next name. An enumeration at its end stays there. -/
def call (scopes : Scopes) (e : FreeNames) : Option String × FreeNames :=
  match e.next? scopes with
  | none => (none, e)
  | some (name, rest) => (some name, rest)

/-- The same of a place in a list of names. -/
def callPlace (names : List String) (k : Nat) : Option String × Nat := (names[k]?, k + 1)

/-- An enumeration that has the names from a place on still to give answers as the place does. -/
theorem call_of_toList {names : List String} {e : FreeNames} {k : Nat}
    (h : e.toList scopes = names.drop k) :
    (call scopes e).1 = (callPlace names k).1 ∧
      (call scopes e).2.toList scopes = names.drop (callPlace names k).2 := by
  have hhead : names[k]? = (e.toList scopes)[0]? := by
    rw [h, List.getElem?_drop, Nat.add_zero]
  have htail : names.drop (k + 1) = (e.toList scopes).tail := by
    rw [h, List.tail_drop]
  rw [callPlace, hhead, htail, call]
  cases hnext : e.next? scopes with
  | none => simp [toList_of_none hnext]
  | some x =>
      obtain ⟨name, rest⟩ := x
      simp [toList_of_some hnext]

/-- However enumerations of a value are asked for names and copied, they answer as places in the list of
its open names do, of which the first is at the beginning. -/
theorem answers_eq (v : Value) (rs : List Request) :
    answers (call scopes) [ofValue v] rs = answers (callPlace (v.openNames scopes)) [0] rs :=
  answers_related (R := fun e k => e.toList scopes = (v.openNames scopes).drop k)
    (fun _ _ => call_of_toList) (.cons (toList_ofValue v) .nil) rs

end FreeNames

/-- An enumeration of the free names of a value gives those of the recursive definition, in their order
and with repeats, and comes to its end. After any number of names it has the others still to give, and
so has every copy that is made of it on the way. -/
theorem Value.freeNames_eq_openNames (scopes : Scopes) (v : Value) :
    v.freeNames scopes = v.openNames scopes ∧
      (∀ k, ((FreeNames.ofValue v).drop scopes k).toList scopes = (v.openNames scopes).drop k) ∧
      ∀ rs, FreeNames.answers (FreeNames.call scopes) [FreeNames.ofValue v] rs =
        FreeNames.answers (FreeNames.callPlace (v.openNames scopes)) [0] rs := by
  refine ⟨FreeNames.toList_ofValue v, fun k => ?_, FreeNames.answers_eq v⟩
  rw [FreeNames.toList_drop, FreeNames.toList_ofValue]

end SmallLang
