import Mathlib.Data.Finset.Sort
import SmallLang.Proofs.FreeNames
import SmallLang.Proofs.Lookahead.First

/-!
# Requests to sets of indices

A row of sets of indices below one size is asked, in any order, for new sets, for copies, whether an
index is in a set, to add an index to a set, and to add the indices of one set to another
(`SetRequest`). What the requests come to is said with finite sets of numbers: the answers tell
whether something is in a set or new to it, and a set has the indices that were put into it
(`SetRequest.session`).

Sets can be kept in many ways. A `SetKind` has the operations of one of them, and an operation that
would leave the memory of a set is stuck. Its laws (`SetKind.Lawful`) only tell what sets contain
after an operation, that they are determined by what they contain, and what an enumeration gives.
They suffice: a lawful kind serves any requests as finite sets do (`SetKind.Lawful.exists_row_serves`),
since one request keeps the kept sets standing for the finite ones (`SetKind.Holds`,
`SetKind.Lawful.exists_serve?`).
-/

set_option autoImplicit false

namespace SmallLang

open List (Forall₂)
open FreeNames (rel_getElem? rel_set)

/-- A request to a row of sets of indices below `size`. Sets are named by their places in the row. -/
inductive SetRequest (size : Nat) where
  /-- A new set, at the end of the row. -/
  | create
  /-- A copy of a set as it is now, at the end of the row. -/
  | copy (place : Nat)
  /-- Whether the index is in the set. -/
  | ask (place : Nat) (i : Fin size)
  /-- The index is put into the set. The answer tells whether it is new. -/
  | add (place : Nat) (i : Fin size)
  /-- The indices of the other set are put into the set. The answer tells whether one is new. -/
  | addAll (place other : Nat)

namespace SetRequest

variable {size : Nat}

/-- The answer to a request, and the finite sets after it. A set that is not in the row has no answer. -/
def serve (sets : List (Finset Nat)) : SetRequest size → Option Bool × List (Finset Nat)
  | create => (none, sets ++ [∅])
  | copy p => (none, sets ++ sets[p]?.toList)
  | ask p i => (sets[p]?.map fun S => decide (↑i ∈ S), sets)
  | add p i =>
      match sets[p]? with
      | none => (none, sets)
      | some S => (some (decide (↑i ∉ S)), sets.set p (insert ↑i S))
  | addAll p q =>
      match sets[p]?, sets[q]? with
      | some S, some T => (some (decide (∃ i ∈ T, i ∉ S)), sets.set p (S ∪ T))
      | _, _ => (none, sets)

/-- The answers to some requests, one after the other, and the finite sets after them. -/
def session (sets : List (Finset Nat)) :
    List (SetRequest size) → List (Option Bool) × List (Finset Nat)
  | [] => ([], sets)
  | r :: rs =>
      ((serve sets r).1 :: (session (serve sets r).2 rs).1, (session (serve sets r).2 rs).2)

end SetRequest

/-- The operations of a kind of sets of indices below `size`. One that is stuck has no result. -/
structure SetKind (size : Nat) (σ : Type) where
  empty : σ
  /-- Whether the index is in the set. -/
  contains? : σ → Nat → Option Bool
  /-- Whether the index is new to the set, and the set with it. -/
  add? : σ → Nat → Option (Bool × σ)
  /-- Whether some index of the second set is new to the first, and the first with all of them. -/
  addAll : σ → σ → Bool × σ
  /-- What an enumeration of the set gives at its call of this number: a member, or nothing more. -/
  call? : σ → Nat → Option (Option Nat)

namespace SetKind

variable {size : Nat} {σ : Type} {kind : SetKind size σ}

/-- The answer to a request, and the sets after it, unless an operation is stuck. -/
def serve? (kind : SetKind size σ) (row : List σ) : SetRequest size → Option (Option Bool × List σ)
  | .create => some (none, row ++ [kind.empty])
  | .copy p => some (none, row ++ row[p]?.toList)
  | .ask p i =>
      match row[p]? with
      | none => some (none, row)
      | some s => (kind.contains? s i).map fun answer => (some answer, row)
  | .add p i =>
      match row[p]? with
      | none => some (none, row)
      | some s => (kind.add? s i).map fun (answer, s') => (some answer, row.set p s')
  | .addAll p q =>
      match row[p]?, row[q]? with
      | some s, some t => some (some (kind.addAll s t).1, row.set p (kind.addAll s t).2)
      | _, _ => some (none, row)

/-- The answers to some requests, one after the other, and the sets after them, unless an operation
is stuck. -/
def session? (kind : SetKind size σ) (row : List σ) :
    List (SetRequest size) → Option (List (Option Bool) × List σ)
  | [] => some ([], row)
  | r :: rs => do
      let (answer, row') ← kind.serve? row r
      let (answers, row'') ← kind.session? row' rs
      return (answer :: answers, row'')

/-- The kind serves the requests, from an empty row on, as finite sets do. None is stuck and all have
the same answers. Afterwards the row has a set for each finite set at the same place, which contains
what the finite set does, which is enumerated in increasing order with nothing to follow, and which is
equal to another one exactly if the finite sets are. -/
structure Serves (kind : SetKind size σ) (rs : List (SetRequest size)) (row : List σ) : Prop where
  session?_eq : kind.session? [] rs = some ((SetRequest.session [] rs).1, row)
  length_eq : row.length = (SetRequest.session [] rs).2.length
  contains?_eq : ∀ s S, (s, S) ∈ row.zip (SetRequest.session [] rs).2 →
    ∀ i : Fin size, kind.contains? s i = some (decide (↑i ∈ S))
  call?_eq : ∀ s S, (s, S) ∈ row.zip (SetRequest.session [] rs).2 →
    ∀ n, kind.call? s n = some (S.sort (· ≤ ·))[n]?
  eq_iff : ∀ s S t T, (s, S) ∈ row.zip (SetRequest.session [] rs).2 →
    (t, T) ∈ row.zip (SetRequest.session [] rs).2 → (s = t ↔ S = T)

/-- The operations of the kind, told apart by what sets contain afterwards: the laws say nothing of how
a set is kept. They reach to the end of the last word of 64 bits, since a set could differ from another
one there. -/
structure Lawful (kind : SetKind size σ) : Prop where
  contains?_empty : ∀ i < wordBits size, kind.contains? kind.empty i = some false
  exists_add? : ∀ s, ∀ i < wordBits size, ∃ old s', kind.contains? s i = some old ∧
    kind.add? s i = some (!old, s') ∧
      ∀ j, kind.contains? s' j = if i = j then some true else kind.contains? s j
  contains?_addAll : ∀ {s t i a b}, kind.contains? s i = some a → kind.contains? t i = some b →
    kind.contains? (kind.addAll s t).2 i = some (a || b)
  addAll_eq_true_iff : ∀ s t, (kind.addAll s t).1 = true ↔ (kind.addAll s t).2 ≠ s
  ext : ∀ {s t}, (∀ i < wordBits size, kind.contains? s i = kind.contains? t i) → s = t
  call?_eq : ∀ s n,
    kind.call? s n = some ((List.range size).filter fun i => kind.contains? s i == some true)[n]?

/-- The kept set stands for the finite set: it contains these indices below the size and no others. -/
structure Holds (kind : SetKind size σ) (s : σ) (S : Finset Nat) : Prop where
  lt_size : ∀ i ∈ S, i < size
  contains?_eq : ∀ i < wordBits size, kind.contains? s i = some (decide (i ∈ S))

namespace Holds

variable {s t : σ} {S T : Finset Nat}

theorem finset_eq (hS : kind.Holds s S) (hT : kind.Holds s T) : S = T := by
  -- Both finite sets are read off the same answers, so each is within the other one.
  have hsubset : ∀ {S T}, kind.Holds s S → kind.Holds s T → S ⊆ T := by
    intro S T hS hT i hi
    have hlt := IndexSet.lt_wordBits (hS.lt_size i hi)
    have halike := (hS.contains?_eq i hlt).symm.trans (hT.contains?_eq i hlt)
    rw [decide_eq_true hi] at halike
    exact of_decide_eq_true (Option.some.inj halike).symm
  exact (hsubset hS hT).antisymm (hsubset hT hS)

theorem contains?_fin (h : kind.Holds s S) (i : Fin size) :
    kind.contains? s i = some (decide (↑i ∈ S)) :=
  h.contains?_eq i (IndexSet.lt_wordBits i.isLt)

/-- The members in increasing order are those found by going through all indices. -/
theorem sort_eq (h : kind.Holds s S) :
    S.sort (· ≤ ·) = (List.range size).filter fun i => kind.contains? s i == some true := by
  have hfilter : ((List.range size).filter fun i => kind.contains? s i == some true) =
      (List.range size).filter fun i => decide (i ∈ S) := by
    refine List.filter_congr fun i hi => ?_
    rw [h.contains?_fin ⟨i, List.mem_range.1 hi⟩]
    cases decide (i ∈ S) <;> rfl
  -- No member is beyond the size, so all of them are gone through.
  have hmembers : ((List.range size).filter fun i => decide (i ∈ S)).toFinset = S := by
    ext i
    simp only [List.mem_toFinset, List.mem_filter, List.mem_range, decide_eq_true_eq,
      and_iff_right_iff_imp]
    exact h.lt_size i
  have hsorted := (List.toFinset_sort (· ≤ ·) (List.nodup_range.filter _)).2
    ((List.pairwise_le_range (n := size)).filter fun i => decide (i ∈ S))
  rw [hfilter, ← hsorted, hmembers]

end Holds

namespace Lawful

variable {s t : σ} {S T : Finset Nat}

theorem holds_empty (h : kind.Lawful) : kind.Holds kind.empty ∅ :=
  ⟨fun i hi => absurd hi (Finset.notMem_empty i), h.contains?_empty⟩

theorem eq_iff (h : kind.Lawful) (hs : kind.Holds s S) (ht : kind.Holds t T) :
    s = t ↔ S = T := by
  constructor
  · rintro rfl
    exact hs.finset_eq ht
  · rintro rfl
    exact h.ext fun i hi => (hs.contains?_eq i hi).trans (ht.contains?_eq i hi).symm

theorem exists_add (h : kind.Lawful) (hs : kind.Holds s S) (i : Fin size) :
    ∃ s', kind.add? s i = some (decide (↑i ∉ S), s') ∧ kind.Holds s' (insert ↑i S) := by
  obtain ⟨old, s', hold, hadd, hcontains⟩ := h.exists_add? s i (IndexSet.lt_wordBits i.isLt)
  obtain rfl : decide (↑i ∈ S) = old := Option.some.inj ((hs.contains?_fin i).symm.trans hold)
  refine ⟨s', by rw [hadd, decide_not], fun j hj => ?_, fun j hj => ?_⟩
  · rcases Finset.mem_insert.1 hj with rfl | hj
    · exact i.isLt
    · exact hs.lt_size j hj
  · rw [hcontains, hs.contains?_eq j hj]
    by_cases hij : ↑i = j
    · simp [hij]
    · simp [hij, Ne.symm hij]

theorem holds_addAll (h : kind.Lawful) (hs : kind.Holds s S)
    (ht : kind.Holds t T) : kind.Holds (kind.addAll s t).2 (S ∪ T) := by
  refine ⟨fun i hi => ?_, fun i hi => ?_⟩
  · exact (Finset.mem_union.1 hi).elim (hs.lt_size i) (ht.lt_size i)
  · rw [h.contains?_addAll (hs.contains?_eq i hi) (ht.contains?_eq i hi), ← Bool.decide_or]
    simp only [Finset.mem_union]

/-- The union is another set exactly if it has a new member. -/
theorem addAll_eq (h : kind.Lawful) (hs : kind.Holds s S) (ht : kind.Holds t T) :
    (kind.addAll s t).1 = decide (∃ i ∈ T, i ∉ S) := by
  rw [Bool.eq_iff_iff, decide_eq_true_iff, h.addAll_eq_true_iff, Ne,
    h.eq_iff (h.holds_addAll hs ht) hs, Finset.union_eq_left, Finset.not_subset]

section Sessions

variable {row : List σ} {sets : List (Finset Nat)}

/-- One request is answered alike, and leaves sets that stand for the finite sets after it. -/
theorem exists_serve? (h : kind.Lawful) (hrow : Forall₂ kind.Holds row sets)
    (r : SetRequest size) :
    ∃ row', kind.serve? row r = some ((r.serve sets).1, row') ∧
      Forall₂ kind.Holds row' (r.serve sets).2 := by
  -- A request about a place that holds nothing is answered alike, since the rows are equally long.
  cases r with
  | create => exact ⟨_, rfl, List.rel_append hrow (.cons h.holds_empty .nil)⟩
  | copy p =>
      refine ⟨_, rfl, List.rel_append hrow ?_⟩
      have hp := rel_getElem? hrow p
      generalize row[p]? = s, sets[p]? = S at hp ⊢
      cases hp with
      | none => exact .nil
      | some hs => exact .cons hs .nil
  | ask p i =>
      have hp := rel_getElem? hrow p
      simp only [serve?, SetRequest.serve]
      generalize row[p]? = s, sets[p]? = S at hp ⊢
      cases hp with
      | none => exact ⟨row, rfl, hrow⟩
      | some hs => exact ⟨row, by simp only [hs.contains?_fin, Option.map_some], hrow⟩
  | add p i =>
      have hp := rel_getElem? hrow p
      simp only [serve?, SetRequest.serve]
      generalize row[p]? = s, sets[p]? = S at hp ⊢
      cases hp with
      | none => exact ⟨row, rfl, hrow⟩
      | some hs =>
          obtain ⟨s', hadd, hs'⟩ := h.exists_add hs i
          exact ⟨row.set p s', by simp only [hadd, Option.map_some], rel_set hrow p hs'⟩
  | addAll p q =>
      have hp := rel_getElem? hrow p
      have hq := rel_getElem? hrow q
      simp only [serve?, SetRequest.serve]
      generalize row[p]? = s, sets[p]? = S at hp ⊢
      generalize row[q]? = t, sets[q]? = T at hq ⊢
      cases hp with
      | none => exact ⟨row, rfl, hrow⟩
      | some hs =>
          cases hq with
          | none => exact ⟨row, rfl, hrow⟩
          | some ht =>
              exact ⟨_, by simp only [h.addAll_eq hs ht], rel_set hrow p (h.holds_addAll hs ht)⟩

/-- So are any requests, one after the other. -/
theorem exists_session? (h : kind.Lawful) (hrow : Forall₂ kind.Holds row sets)
    (rs : List (SetRequest size)) :
    ∃ row', kind.session? row rs = some ((SetRequest.session sets rs).1, row') ∧
      Forall₂ kind.Holds row' (SetRequest.session sets rs).2 := by
  -- The rows change with each request, and what is kept of them is that the sets correspond.
  induction rs generalizing row sets with
  | nil => exact ⟨row, rfl, hrow⟩
  | cons r rs ih =>
      obtain ⟨row', hserve, hrow'⟩ := h.exists_serve? hrow r
      obtain ⟨row'', hsession, hrow''⟩ := ih hrow'
      refine ⟨row'', ?_, hrow''⟩
      rw [session?, hserve]
      show (kind.session? row' rs >>= _) = _
      rw [hsession]
      rfl

end Sessions

/-- A lawful kind serves any requests as finite sets do. -/
theorem exists_row_serves (h : kind.Lawful) (rs : List (SetRequest size)) :
    ∃ row, kind.Serves rs row := by
  obtain ⟨row, hsession, hrow⟩ := h.exists_session? .nil rs
  obtain ⟨hlength, hholds⟩ := List.forall₂_iff_zip.1 hrow
  refine ⟨row, hsession, hlength, fun s S hs => ?_, fun s S hs n => ?_, fun s S t T hs ht => ?_⟩
  · exact (hholds hs).contains?_fin
  · rw [h.call?_eq, (hholds hs).sort_eq]
  · exact h.eq_iff (hholds hs) (hholds ht)

end Lawful

end SetKind

end SmallLang
