import SmallLang.Proofs.Scanning.Rebuilt

/-!
# Interning terminals one after the other

Terminals are requested from an arena in any order, any number of times, and some requests are
refused. `Arena.Interns` says what such a session amounts to: the arena has each terminal once, in
the order in which they were first given a number, and its answers are the numbers of these
terminals.

The arena here is a plain list that is searched for a key. `Arena.Store` is the same with an index:
a row of terminals, and a map from keys to places in the row, where a literal and a class of one
name have two keys. The two are kept in step by every request (`Arena.Store.InStep.request`), so
that no place of the map is outside the row and both forms give the same answers
(`Arena.session_interns`).
-/

set_option autoImplicit false

namespace SmallLang

/-! ## Keys -/

namespace Terminal

/-- What a terminal is known by. -/
inductive Key where
  | literal (text : String)
  | ofClass (name : String)
  deriving DecidableEq, Hashable

/-- The text of a literal, or the name of a class. -/
def key : Terminal → Key
  | literal text => .literal text
  | ofClass c => .ofClass c.name

theorem sameKey_iff_key_eq (s t : Terminal) : s.sameKey t = true ↔ s.key = t.key := by
  cases s <;> cases t <;> simp [sameKey, key]

/-- Two terminals of one key differ only if they are classes with different definitions. -/
theorem exists_classes_of_key_eq {s t : Terminal} (hkey : s.key = t.key) (hne : s ≠ t) :
    ∃ c d, t = ofClass c ∧ s = ofClass d ∧ d.name = c.name ∧
      (d.pattern ≠ c.pattern ∨ d.decoder ≠ c.decoder ∨ d.priority ≠ c.priority) := by
  cases s with
  | literal text =>
      cases t with
      | literal text' => exact absurd (congrArg literal (Key.literal.inj hkey)) hne
      | ofClass c => cases hkey
  | ofClass d =>
      cases t with
      | literal text => cases hkey
      | ofClass c =>
          have hname : d.name = c.name := Key.ofClass.inj hkey
          refine ⟨c, d, rfl, rfl, hname, ?_⟩
          by_contra hsame
          simp only [not_or, Decidable.not_not] at hsame
          obtain ⟨hpattern, hdecoder, hpriority⟩ := hsame
          exact hne (congrArg ofClass (by cases c; cases d; simp_all))

end Terminal

namespace Arena

variable {a : Arena} {t u : Terminal} {i j : Nat}

theorem Keyed.eq_of_key_eq (ha : a.Keyed) (hi : a.get? i = some t) (hj : a.get? j = some u)
    (hkey : t.key = u.key) : i = j :=
  ha.eq_of_sameKey hi hj ((Terminal.sameKey_iff_key_eq t u).2 hkey)

/-! ## Requests -/

/-- The answer to a request for the number of a terminal, and the arena after it. A request that is
refused adds nothing. -/
def request (a : Arena) (t : Terminal) : Except AssemblyError Nat × Arena :=
  match a.intern t with
  | .ok (i, a') => (.ok i, a')
  | .error e => (.error e, a)

/-- All that a request can do: the terminal has its number, it is refused for another one of its
key, or it is the first one of its key and added at the end. -/
theorem request_cases (a : Arena) (t : Terminal) :
    (∃ i, a.get? i = some t ∧ a.request t = (.ok i, a)) ∨
    (∃ i u, a.get? i = some u ∧ u.key = t.key ∧ u ≠ t ∧
      a.request t = (.error (.conflictingTerminal t.name), a)) ∨
    ((∀ i u, a.get? i = some u → u.key ≠ t.key) ∧
      a.request t = (.ok a.size, ⟨a.terminals ++ [t]⟩)) := by
  rw [request, intern, indexOf?]
  cases hfound : a.terminals.findIdx? t.sameKey with
  | none =>
      refine Or.inr (Or.inr ⟨fun i u hi hkey => ?_, rfl⟩)
      have hdiffer := List.findIdx?_eq_none_iff.1 hfound u (List.mem_of_getElem? hi)
      exact absurd ((Terminal.sameKey_iff_key_eq t u).2 hkey.symm) (by simp [hdiffer])
  | some i =>
      obtain ⟨u, hi, hkey⟩ := exists_of_findIdx? hfound
      by_cases hu : u = t
      · subst hu
        exact Or.inl ⟨i, hi, by simp [hi]⟩
      · refine Or.inr (Or.inl ⟨i, u, hi, ((Terminal.sameKey_iff_key_eq t u).1 hkey).symm, hu, ?_⟩)
        simp [hi, hu]

theorem Extends.get? {a' : Arena} (h : a.Extends a') (hi : a.get? i = some t) :
    a'.get? i = some t := by
  obtain ⟨more, hmore⟩ := h
  rw [Arena.get?] at hi
  obtain ⟨hlt, -⟩ := List.getElem?_eq_some_iff.1 hi
  rw [Arena.get?, ← hmore, List.getElem?_append_left hlt, hi]

theorem extends_request (a : Arena) (t : Terminal) : a.Extends (a.request t).2 := by
  rw [request]
  cases h : a.intern t with
  | error e => exact Extends.refl a
  | ok found => exact (intern_eq_ok h).1

theorem Keyed.request (ha : a.Keyed) (t : Terminal) : (a.request t).2.Keyed := by
  rw [Arena.request]
  cases h : a.intern t with
  | error e => exact ha
  | ok found => exact (ha.intern h).1

/-! ## Sessions -/

/-- The terminals requested, with the answers to them. -/
abbrev Log := List (Terminal × Except AssemblyError Nat)

namespace Log

/-- The terminals that were given a number. -/
def interned (log : Log) : List Terminal :=
  log.filterMap fun (t, answer) => answer.toOption.map fun _ => t

theorem interned_concat_ok (log : Log) (t : Terminal) (i : Nat) :
    interned (log ++ [(t, .ok i)]) = interned log ++ [t] := by
  rw [interned, List.filterMap_append]
  rfl

theorem interned_concat_error (log : Log) (t : Terminal) (e : AssemblyError) :
    interned (log ++ [(t, .error e)]) = interned log := by
  rw [interned, List.filterMap_append]
  exact List.append_nil _

end Log

/-- One more request. -/
def next (s : Log × Arena) (t : Terminal) : Log × Arena :=
  (s.1 ++ [(t, (s.2.request t).1)], (s.2.request t).2)

/-- Requests for terminals one after the other, from an empty arena on. -/
def session (ts : List Terminal) : Log × Arena := ts.foldl next ([], empty)

theorem session_concat (ts : List Terminal) (t : Terminal) :
    session (ts ++ [t]) = next (session ts) t := by
  rw [session, List.foldl_append]
  rfl

theorem eraseDups_concat (ts : List Terminal) (t : Terminal) :
    (ts ++ [t]).eraseDups = if t ∈ ts then ts.eraseDups else ts.eraseDups ++ [t] := by
  rw [List.eraseDups_append]
  by_cases h : t ∈ ts
  · simp [h, List.removeAll]
  · simp [h, List.removeAll, List.eraseDups_cons]

/-- What a session keeps: no two terminals have one key, each one interned is there once, and the
answers are the numbers of the terminals. -/
structure Records (log : Log) (a : Arena) : Prop where
  keyed : a.Keyed
  terminals_eq : a.terminals = log.interned.eraseDups
  get?_eq : ∀ t i, (t, .ok i) ∈ log → a.get? i = some t

namespace Records

variable {log : Log}

theorem mem_interned_iff (h : Records log a) : t ∈ log.interned ↔ t ∈ a.terminals := by
  rw [h.terminals_eq, List.mem_eraseDups]

/-- One request keeps it. -/
theorem request (h : Records log a) (t : Terminal) :
    Records (log ++ [(t, (a.request t).1)]) (a.request t).2 := by
  have hkeyed := h.keyed.request t
  have hextends := a.extends_request t
  -- The numbers given before are still those of the same terminals.
  have hget : ∀ u i, (u, .ok i) ∈ log → (a.request t).2.get? i = some u := by
    intro u i hu
    exact hextends.get? (h.get?_eq u i hu)
  have hanswer : ∀ {answer : Except AssemblyError Nat} {a' : Arena},
      (∀ i, answer = .ok i → a'.get? i = some t) → (∀ u i, (u, .ok i) ∈ log → a'.get? i = some u) →
      ∀ u i, (u, .ok i) ∈ log ++ [(t, answer)] → a'.get? i = some u := by
    intro answer a' hlast hbefore u i hu
    rcases List.mem_append.1 hu with hu | hu
    · exact hbefore u i hu
    · obtain ⟨rfl, hi⟩ := Prod.mk.inj (List.mem_singleton.1 hu)
      exact hlast i hi.symm
  rcases a.request_cases t with ⟨i, hi, heq⟩ | ⟨-, -, -, -, -, heq⟩ | ⟨hnew, heq⟩
  · -- The terminal is there, so that it is not the first time that it is interned.
    have hold : t ∈ log.interned := h.mem_interned_iff.2 (List.mem_of_getElem? hi)
    rw [heq] at hkeyed hget ⊢
    refine ⟨hkeyed, ?_, hanswer ?_ hget⟩
    · rw [h.terminals_eq, Log.interned_concat_ok, eraseDups_concat, if_pos hold]
    · rintro j ⟨⟩
      exact hi
  · rw [heq] at hkeyed hget ⊢
    refine ⟨hkeyed, ?_, hanswer ?_ hget⟩
    · rw [h.terminals_eq, Log.interned_concat_error]
    · rintro j ⟨⟩
  · have hfirst : t ∉ log.interned := fun hold => by
      obtain ⟨i, hi⟩ := List.getElem?_of_mem (h.mem_interned_iff.1 hold)
      exact hnew i t hi rfl
    rw [heq] at hkeyed hget ⊢
    refine ⟨hkeyed, ?_, hanswer ?_ hget⟩
    · rw [h.terminals_eq, Log.interned_concat_ok, eraseDups_concat, if_neg hfirst]
    · rintro j ⟨⟩
      exact List.getElem?_concat_length

end Records

/-- So every session keeps it. -/
theorem records_session (ts : List Terminal) : Records (session ts).1 (session ts).2 := by
  induction ts using List.reverseRecOn with
  | nil => exact ⟨keyed_empty, rfl, fun t i h => absurd h List.not_mem_nil⟩
  | append_singleton ts t ih =>
      rw [session_concat]
      exact ih.request t

/-! ## An arena with an index -/

/-- A row of terminals, and the place of each key in it. -/
structure Store where
  row : Array Terminal
  places : Std.HashMap Terminal.Key Nat

namespace Store

/-- The store with no terminals. -/
def empty : Store := ⟨#[], ∅⟩

/-- What comes of a request: an answer and the store after it, or a place outside the row. -/
inductive Outcome where
  | answered (answer : Except AssemblyError Nat) (store : Store)
  | stuck

/-- The number of a terminal. The key is looked up before anything is written; a new terminal is
written to the map and to the end of the row. -/
def request (s : Store) (t : Terminal) : Outcome :=
  match s.places[t.key]? with
  | some i =>
      match s.row[i]? with
      | none => .stuck
      | some u =>
          if u ≠ t then .answered (.error (.conflictingTerminal t.name)) s
          else .answered (.ok i) s
  | none => .answered (.ok s.row.size) ⟨s.row.push t, s.places.insert t.key s.row.size⟩

/-- A request that is refused writes nothing. -/
theorem eq_of_request_error {s s' : Store} {e : AssemblyError}
    (h : s.request t = .answered (.error e) s') : s' = s := by
  rw [request] at h
  split at h
  · split at h
    · cases h
    · split at h
      · exact (Outcome.answered.inj h).2.symm
      · cases (Outcome.answered.inj h).1
  · cases (Outcome.answered.inj h).1

/-- The place of the class of that name, or else of the literal of that text. -/
def find? (s : Store) (name : String) : Option Nat :=
  s.places[Terminal.Key.ofClass name]?.or s.places[Terminal.Key.literal name]?

/-- One more request, unless the store is stuck. -/
def next (s : Log × Store) (t : Terminal) : Option (Log × Store) :=
  match s.2.request t with
  | .answered answer store => some (s.1 ++ [(t, answer)], store)
  | .stuck => none

/-- Requests for terminals one after the other, from an empty store on. -/
def session (ts : List Terminal) : Option (Log × Store) := ts.foldlM next ([], empty)

/-- The row has the terminals of the arena, and the map leads from each key to the one place of a
terminal with it. -/
structure InStep (s : Store) (a : Arena) : Prop where
  row_eq : s.row.toList = a.terminals
  places_iff : ∀ key i, s.places[key]? = some i ↔ ∃ t, a.get? i = some t ∧ t.key = key

theorem inStep_empty : InStep empty .empty := by
  refine ⟨rfl, fun key i => ?_⟩
  simp [empty, Arena.empty, get?]

namespace InStep

variable {s : Store}

theorem getElem?_row (h : s.InStep a) (i : Nat) : s.row[i]? = a.get? i := by
  rw [get?, ← h.row_eq, Array.getElem?_toList]

theorem size_row (h : s.InStep a) : s.row.size = a.size := by
  rw [size, ← h.row_eq, Array.length_toList]

/-- The map finds what a search through the arena finds. -/
theorem getElem?_places (h : s.InStep a) {p : Terminal → Bool} {key : Terminal.Key}
    (hp : ∀ t, p t = true ↔ t.key = key) : s.places[key]? = a.terminals.findIdx? p := by
  cases hfound : a.terminals.findIdx? p with
  | none =>
      -- A place in the map would be one that the search finds.
      refine Option.eq_none_iff_forall_not_mem.2 fun i hi => ?_
      obtain ⟨t, ht, hkey⟩ := (h.places_iff key i).1 hi
      have hnot := List.findIdx?_eq_none_iff.1 hfound t (List.mem_of_getElem? ht)
      exact absurd ((hp t).2 hkey) (by simp [hnot])
  | some i =>
      obtain ⟨t, ht, hmatch⟩ := exists_of_findIdx? hfound
      exact (h.places_iff key i).2 ⟨t, ht, (hp t).1 hmatch⟩

theorem find?_eq (h : s.InStep a) (name : String) : s.find? name = a.find? name := by
  rw [Store.find?, Arena.find?]
  congr 1
  · refine h.getElem?_places fun t => ?_
    cases t <;> simp [Terminal.isClassNamed, Terminal.key]
  · refine h.getElem?_places fun t => ?_
    cases t <;> simp [Terminal.key]

/-- A new terminal goes to the end of the row, and its key leads there. -/
theorem push (h : s.InStep a) (hnew : ∀ i u, a.get? i = some u → u.key ≠ t.key) :
    InStep ⟨s.row.push t, s.places.insert t.key s.row.size⟩ ⟨a.terminals ++ [t]⟩ := by
  refine ⟨by rw [Array.toList_push, h.row_eq], fun key i => ?_⟩
  have hget : ∀ u, get? ⟨a.terminals ++ [t]⟩ i = some u ↔
      a.get? i = some u ∨ i = a.size ∧ t = u := by
    intro u
    rw [get?, get?, size, List.getElem?_append]
    grind
  simp only [Std.HashMap.getElem?_insert, h.size_row, hget, beq_iff_eq]
  by_cases hkey : t.key = key
  · -- No other place has the new key.
    rw [if_pos hkey, Option.some.injEq]
    constructor
    · rintro rfl
      exact ⟨t, Or.inr ⟨rfl, rfl⟩, hkey⟩
    · rintro ⟨u, hu | ⟨hi, -⟩, hu'⟩
      · exact absurd (hu'.trans hkey.symm) (hnew i u hu)
      · exact hi.symm
  · rw [if_neg hkey, h.places_iff]
    constructor
    · rintro ⟨u, hu, hu'⟩
      exact ⟨u, Or.inl hu, hu'⟩
    · rintro ⟨u, hu | ⟨-, rfl⟩, hu'⟩
      · exact ⟨u, hu, hu'⟩
      · exact absurd hu' hkey

/-- One request keeps row, map and arena in step, with one answer. -/
theorem request (h : s.InStep a) (t : Terminal) :
    ∃ s', s.request t = .answered (a.request t).1 s' ∧ s'.InStep (a.request t).2 := by
  rw [Store.request]
  rcases a.request_cases t with ⟨i, hi, heq⟩ | ⟨i, u, hi, hkey, hne, heq⟩ | ⟨hnew, heq⟩
  · have hplace := (h.places_iff t.key i).2 ⟨t, hi, rfl⟩
    refine ⟨s, ?_, by rwa [heq]⟩
    simp [hplace, h.getElem?_row, hi, heq]
  · have hplace := (h.places_iff t.key i).2 ⟨u, hi, hkey⟩
    refine ⟨s, ?_, by rwa [heq]⟩
    simp [hplace, h.getElem?_row, hi, hne, heq]
  · have hplace : s.places[t.key]? = none := by
      refine Option.eq_none_iff_forall_not_mem.2 fun i hi => ?_
      obtain ⟨u, hu, hkey⟩ := (h.places_iff t.key i).1 hi
      exact hnew i u hu hkey
    refine ⟨_, ?_, by rw [heq]; exact h.push hnew⟩
    simp [hplace, heq, h.size_row]

end InStep

/-- A session never gets stuck, and gives the answers of the arena. -/
theorem exists_session (ts : List Terminal) : ∃ s, session ts = some ((Arena.session ts).1, s) ∧
    s.InStep (Arena.session ts).2 := by
  induction ts using List.reverseRecOn with
  | nil => exact ⟨empty, rfl, inStep_empty⟩
  | append_singleton ts t ih =>
      obtain ⟨s, hsession, hstep⟩ := ih
      obtain ⟨s', hrequest, hstep'⟩ := hstep.request t
      refine ⟨s', ?_, by rwa [session_concat]⟩
      rw [session] at hsession
      rw [session, List.foldlM_append, hsession, session_concat]
      simp [next, Arena.next, hrequest]

end Store

/-! ## What a session amounts to -/

/-- What requests to an empty arena lead to, with refusals among them. -/
structure Interns (log : Log) (a : Arena) : Prop where
  /-- Each terminal that was given a number is there once, in the order of the first times. -/
  terminals_eq : a.terminals = log.interned.eraseDups
  /-- The terminal at a number that was given is the one requested. -/
  get?_eq : ∀ t i, (t, .ok i) ∈ log → a.get? i = some t
  /-- Terminals have one number if and only if they are equal. -/
  number_eq_iff : ∀ t u i j, (t, .ok i) ∈ log → (u, .ok j) ∈ log → (i = j ↔ t = u)
  /-- The next request is refused if and only if it is for a class, and a class of its name but with
  another definition was given a number. -/
  refused_iff : ∀ t, (∃ e, (a.request t).1 = .error e) ↔
    ∃ c d, t = .ofClass c ∧ .ofClass d ∈ log.interned ∧ d.name = c.name ∧
      (d.pattern ≠ c.pattern ∨ d.decoder ≠ c.decoder ∨ d.priority ≠ c.priority)
  /-- The refusal names the class and changes nothing. -/
  request_of_refused : ∀ t e, (a.request t).1 = .error e →
    e = .conflictingTerminal t.name ∧ (a.request t).2 = a
  /-- A class is found by its name. -/
  find?_class : ∀ c, .ofClass c ∈ log.interned →
    ∃ i, a.find? c.name = some i ∧ a.get? i = some (.ofClass c)
  /-- A literal is found by its text, unless this is the name of a class. -/
  find?_literal : ∀ text, .literal text ∈ log.interned →
    (∀ c, .ofClass c ∈ log.interned → c.name ≠ text) →
    ∃ i, a.find? text = some i ∧ a.get? i = some (.literal text)
  /-- By any other name nothing is found. -/
  find?_none : ∀ name, (∀ c, .ofClass c ∈ log.interned → c.name ≠ name) →
    .literal name ∉ log.interned → a.find? name = none

namespace Records

variable {log : Log}

theorem number_eq_iff (h : Records log a) (ht : (t, .ok i) ∈ log) (hu : (u, .ok j) ∈ log) :
    i = j ↔ t = u := by
  constructor
  · rintro rfl
    exact Option.some.inj ((h.get?_eq t i ht).symm.trans (h.get?_eq u i hu))
  · rintro rfl
    exact h.keyed.eq_of_sameKey (h.get?_eq t i ht) (h.get?_eq t j hu) (sameKey_self t)

/-- The terminal that stands in the way of a request is a class of the same name. -/
theorem refused_iff (h : Records log a) (t : Terminal) : (∃ e, (a.request t).1 = .error e) ↔
    ∃ c d, t = .ofClass c ∧ .ofClass d ∈ log.interned ∧ d.name = c.name ∧
      (d.pattern ≠ c.pattern ∨ d.decoder ≠ c.decoder ∨ d.priority ≠ c.priority) := by
  constructor
  · rintro ⟨e, he⟩
    rcases a.request_cases t with ⟨i, -, heq⟩ | ⟨i, u, hi, hkey, hne, -⟩ | ⟨-, heq⟩
    · rw [heq] at he
      cases he
    · obtain ⟨c, d, rfl, rfl, hname, hdiffer⟩ := Terminal.exists_classes_of_key_eq hkey hne
      exact ⟨c, d, rfl, h.mem_interned_iff.2 (List.mem_of_getElem? hi), hname, hdiffer⟩
    · rw [heq] at he
      cases he
  · rintro ⟨c, d, rfl, hd, hname, hdiffer⟩
    obtain ⟨j, hj⟩ := List.getElem?_of_mem (h.mem_interned_iff.1 hd)
    have hkey : (Terminal.ofClass d).key = (Terminal.ofClass c).key :=
      congrArg Terminal.Key.ofClass hname
    rcases a.request_cases (.ofClass c) with ⟨i, hi, -⟩ | ⟨-, -, -, -, -, heq⟩ | ⟨hnew, -⟩
    · -- Both classes would have one number, and so be equal.
      obtain rfl := h.keyed.eq_of_key_eq hj hi hkey
      obtain rfl := Terminal.ofClass.inj (Option.some.inj (hj.symm.trans hi))
      simp at hdiffer
    · exact ⟨_, congrArg Prod.fst heq⟩
    · exact absurd hkey (hnew j _ hj)

theorem find?_name (h : Records log a) (ht : t ∈ log.interned) (hhides : a.hides t = false) :
    ∃ i, a.find? t.name = some i ∧ a.get? i = some t := by
  obtain ⟨i, hi⟩ := List.getElem?_of_mem (h.mem_interned_iff.1 ht)
  exact ⟨i, Arena.find?_name h.keyed hi hhides, hi⟩

theorem isClassNamed_eq_false (h : Records log a) {name : String}
    (hname : ∀ c, .ofClass c ∈ log.interned → c.name ≠ name) :
    ∀ t ∈ a.terminals, t.isClassNamed name = false := by
  intro t ht
  cases t with
  | literal text => rfl
  | ofClass c => exact beq_eq_false_iff_ne.2 (hname c (h.mem_interned_iff.2 ht))

theorem interns (h : Records log a) : Interns log a where
  terminals_eq := h.terminals_eq
  get?_eq := h.get?_eq
  number_eq_iff _ _ _ _ ht hu := h.number_eq_iff ht hu
  refused_iff := h.refused_iff
  request_of_refused t e he := by
    rcases a.request_cases t with ⟨i, -, heq⟩ | ⟨-, -, -, -, -, heq⟩ | ⟨-, heq⟩
    · rw [heq] at he
      cases he
    · rw [heq] at he ⊢
      exact ⟨(Except.error.inj he).symm, rfl⟩
    · rw [heq] at he
      cases he
  find?_class c hc := h.find?_name hc rfl
  find?_literal text htext hname := by
    refine h.find?_name htext (Bool.eq_false_iff.2 fun hhides => ?_)
    obtain ⟨s, hs, hnamed⟩ := List.any_eq_true.1 hhides
    exact Bool.false_ne_true ((h.isClassNamed_eq_false hname s hs).symm.trans hnamed)
  find?_none name hname htext := by
    have hliteral : ∀ t ∈ a.terminals, decide (t = .literal name) = false := fun t ht =>
      decide_eq_false fun heq => htext (h.mem_interned_iff.2 (heq ▸ ht))
    rw [find?, List.findIdx?_eq_none_iff.2 (h.isClassNamed_eq_false hname),
      List.findIdx?_eq_none_iff.2 hliteral]
    rfl

end Records

/-- After any requests to an empty arena, refused ones included, its terminals are those that were
given a number, in the order of the first times; equal numbers were given to equal terminals only;
a request is refused only for a class whose name is taken by a class with another definition; and a
name finds a class before a literal. A store with a row and a map of keys comes to the same: it is
never stuck, gives the same answers, has the same terminals in its row, finds the same numbers, and
is left as it is by a request that is refused. -/
theorem session_interns (ts : List Terminal) : Interns (session ts).1 (session ts).2 ∧
    ∃ s, Store.session ts = some ((session ts).1, s) ∧ s.row.toList = (session ts).2.terminals ∧
      (∀ name, s.find? name = (session ts).2.find? name) ∧
      ∀ t, ∃ s', s.request t = .answered ((session ts).2.request t).1 s' ∧
        ∀ e, ((session ts).2.request t).1 = .error e → s' = s := by
  obtain ⟨s, hsession, hstep⟩ := Store.exists_session ts
  refine ⟨(records_session ts).interns, s, hsession, hstep.row_eq, hstep.find?_eq, fun t => ?_⟩
  obtain ⟨s', hrequest, -⟩ := hstep.request t
  refine ⟨s', hrequest, fun e he => ?_⟩
  rw [he] at hrequest
  exact Store.eq_of_request_error hrequest

/-- A literal named like a class has a number of its own; another class of the name has none. -/
example : (session [.literal "Number", .number, .tokenClass "Number" "[0-9a-f]+" .integer, .number,
    .literal "Number"]).1.map Prod.snd =
      [.ok 0, .ok 1, .error (.conflictingTerminal "Number"), .ok 1, .ok 0] := by
  decide +kernel

end Arena

end SmallLang
