import Mathlib.Data.List.Basic
import SmallLang.Lookahead.Saturation

/-!
# Tables changed in place

A table can be completed in place: one change after the other is made to it, each tells whether it made
a difference, and all of them are made again as long as one of them did. `Change` is such a step with
its answer, `Change.inOrder` a sweep of them, and `Change.Settles` the loop around the sweeps, which
may differ from round to round.

The answers are right (`Change.Truthful`) if a step that reports no difference makes none, and each one
that reports a difference leaves less room in the table. Then the loop ends
(`Change.exists_settles`), with a table that no change of the last sweep makes a difference to
(`Change.Settles.exists_idle`, `Change.Truthful.idle_inOrder_iff`), and which has whatever properties
every change keeps (`Change.Keeps`, `Change.Settles.keeps`).
-/

set_option autoImplicit false

namespace SmallLang

universe u

/-- Tables of one length are equal if they have the same entries, with a value for missing ones. -/
theorem ext_getD {α : Type u} {none : α} {xs ys : List α} (hlength : xs.length = ys.length)
    (h : ∀ i : Nat, xs[i]?.getD none = ys[i]?.getD none) : xs = ys := by
  apply List.ext_getElem hlength
  intro i hx hy
  have hi := h i
  rwa [List.getElem?_eq_getElem hx, List.getElem?_eq_getElem hy] at hi

/-- A change in place: whether it made a difference, and what there is after it. -/
abbrev Change (α : Type u) := α → Bool × α

namespace Change

variable {α : Type u}

/-- No change. -/
def skip : Change α := fun x => (false, x)

/-- Two changes, one after the other. -/
def andThen (f g : Change α) : Change α := fun x =>
  ((f x).1 || (g (f x).2).1, (g (f x).2).2)

/-- All changes of a list, one after the other. -/
def inOrder : List (Change α) → Change α
  | [] => skip
  | f :: fs => f.andThen (inOrder fs)

/-- A change that is chosen by what there is before it. -/
def reading (f : α → Change α) : Change α := fun x => f x x

/-- A change to one entry of a table, if the table has this entry. -/
def atEntry (i : Nat) (f : Change α) : Change (List α) := fun xs =>
  match xs[i]? with
  | none => (false, xs)
  | some x => ((f x).1, xs.set i (f x).2)

/-- The change makes no difference to the value. -/
def Idle (f : Change α) (x : α) : Prop := f x = (false, x)

/-! ## Right answers -/

/-- The change tells whether it made a difference: if not, nothing has changed, and if so, there is less
room left. -/
structure Truthful (room : α → Nat) (f : Change α) : Prop where
  unchanged : ∀ x, (f x).1 = false → (f x).2 = x
  room_lt : ∀ x, (f x).1 = true → room (f x).2 < room x

variable {room : α → Nat} {f g : Change α} {fs : List (Change α)} {x y z : α}

theorem Truthful.idle (h : Truthful room f) (hx : (f x).1 = false) : f.Idle x :=
  Prod.ext hx (h.unchanged x hx)

theorem Truthful.room_le (h : Truthful room f) (x : α) : room (f x).2 ≤ room x := by
  cases hx : (f x).1 with
  | false => exact Nat.le_of_eq (congrArg room (h.unchanged x hx))
  | true => exact Nat.le_of_lt (h.room_lt x hx)

theorem truthful_skip : Truthful room (skip : Change α) := by
  refine ⟨fun x _ => rfl, fun x hx => ?_⟩
  exact absurd hx Bool.false_ne_true

theorem Truthful.andThen (hf : Truthful room f) (hg : Truthful room g) :
    Truthful room (f.andThen g) := by
  refine ⟨fun x hx => ?_, fun x hx => ?_⟩
  · obtain ⟨hfx, hgx⟩ := Bool.or_eq_false_iff.1 hx
    show (g (f x).2).2 = x
    rw [hg.unchanged _ hgx, hf.unchanged x hfx]
  · show room (g (f x).2).2 < room x
    rcases Bool.or_eq_true_iff.1 hx with hfx | hgx
    · exact Nat.lt_of_le_of_lt (hg.room_le _) (hf.room_lt x hfx)
    · exact Nat.lt_of_lt_of_le (hg.room_lt _ hgx) (hf.room_le x)

theorem truthful_inOrder (h : ∀ f ∈ fs, Truthful room f) : Truthful room (inOrder fs) := by
  induction fs with
  | nil => exact truthful_skip
  | cons f fs ih =>
      apply Truthful.andThen
      · exact h f List.mem_cons_self
      · exact ih fun g hg => h g (List.mem_cons_of_mem _ hg)

theorem truthful_reading {f : α → Change α} (h : ∀ x, Truthful room (f x)) :
    Truthful room (reading f) :=
  ⟨fun x hx => (h x).unchanged x hx, fun x hx => (h x).room_lt x hx⟩

theorem totalRoom_set_lt {xs : List α} {i : Nat} (hx : xs[i]? = some x) (hlt : room y < room x) :
    totalRoom room (xs.set i y) < totalRoom room xs := by
  induction xs generalizing i with
  | nil => simp at hx
  | cons a xs ih =>
      cases i with
      | zero =>
          obtain rfl := Option.some.inj hx
          exact Nat.add_lt_add_right hlt _
      | succ i =>
          exact Nat.add_lt_add_left (ih hx) _

theorem Truthful.atEntry (h : Truthful room f) (i : Nat) :
    Truthful (totalRoom room) (atEntry i f) := by
  refine ⟨fun xs hxs => ?_, fun xs hxs => ?_⟩
  · unfold Change.atEntry at hxs ⊢
    split
    · rfl
    · rename_i x hx
      simp only [hx] at hxs
      show xs.set i (f x).2 = xs
      rw [h.unchanged x hxs]
      obtain ⟨hlt, rfl⟩ := List.getElem?_eq_some_iff.1 hx
      exact List.set_getElem_self hlt
  · unfold Change.atEntry at hxs ⊢
    split
    · rename_i hx
      simp only [hx] at hxs
      exact absurd hxs Bool.false_ne_true
    · rename_i x hx
      simp only [hx] at hxs
      exact totalRoom_set_lt hx (h.room_lt x hxs)

/-! ## Changes that make no difference -/

theorem Truthful.idle_andThen_iff (h : Truthful room f) :
    (f.andThen g).Idle x ↔ f.Idle x ∧ g.Idle x := by
  constructor
  · intro hidle
    obtain ⟨hfx, hgx⟩ := Bool.or_eq_false_iff.1 (congrArg Prod.fst hidle)
    have hf := h.idle hfx
    have hrest : (g (f x).2).2 = x := congrArg Prod.snd hidle
    rw [hf] at hgx hrest
    exact ⟨hf, Prod.ext hgx hrest⟩
  · rintro ⟨hf, hg⟩
    unfold Idle Change.andThen at *
    rw [hf, hg]
    rfl

/-- A sweep makes no difference where none of its changes makes any. -/
theorem Truthful.idle_inOrder_iff (h : ∀ f ∈ fs, Truthful room f) :
    (inOrder fs).Idle x ↔ ∀ f ∈ fs, f.Idle x := by
  induction fs with
  | nil => exact ⟨fun _ f hf => absurd hf List.not_mem_nil, fun _ => rfl⟩
  | cons f fs ih =>
      have ih := ih fun g hg => h g (List.mem_cons_of_mem _ hg)
      rw [inOrder, (h f List.mem_cons_self).idle_andThen_iff, ih, List.forall_mem_cons]

/-- A change to an entry that is there makes no difference to it if it makes none to the table. -/
theorem idle_of_idle_atEntry {xs : List α} {i : Nat} (h : (atEntry i f).Idle xs)
    (hi : i < xs.length) (none : α) : f.Idle (xs[i]?.getD none) := by
  have hx : xs[i]? = some xs[i] := List.getElem?_eq_getElem hi
  unfold Idle Change.atEntry at h
  simp only [hx, Prod.mk.injEq] at h
  obtain ⟨hfalse, hset⟩ := h
  have hentry : (xs.set i (f xs[i]).2)[i]? = some (f xs[i]).2 := List.getElem?_set_self hi
  rw [hset, hx] at hentry
  rw [hx]
  exact Prod.ext hfalse (Option.some.inj hentry).symm

/-! ## What every change keeps -/

/-- What holds before the change holds after it. -/
def Keeps (P : α → Prop) (f : Change α) : Prop := ∀ x, P x → P (f x).2

variable {P : α → Prop}

theorem keeps_skip : Keeps P skip := fun _ hx => hx

theorem Keeps.andThen (hf : Keeps P f) (hg : Keeps P g) : Keeps P (f.andThen g) :=
  fun _ hx => hg _ (hf _ hx)

/-- A change may be chosen with the knowledge of what holds before it. -/
theorem keeps_reading {f : α → Change α} (h : ∀ x, P x → Keeps P (f x)) : Keeps P (reading f) :=
  fun x hx => h x hx x hx

theorem keeps_inOrder (h : ∀ f ∈ fs, Keeps P f) : Keeps P (inOrder fs) := by
  induction fs with
  | nil => exact keeps_skip
  | cons f fs ih =>
      apply Keeps.andThen
      · exact h f List.mem_cons_self
      · exact ih fun g hg => h g (List.mem_cons_of_mem _ hg)

/-- No entry comes or goes. -/
theorem keeps_length_atEntry (n i : Nat) (f : Change α) :
    Keeps (fun xs => xs.length = n) (atEntry i f) := by
  intro xs hxs
  rw [← hxs]
  unfold atEntry
  split
  · rfl
  · exact List.length_set

/-- A change to one entry has only to keep what holds of this entry. -/
theorem keeps_entries_atEntry {Q : Nat → α → Prop} {none : α} {i : Nat} (hf : Keeps (Q i) f) :
    Keeps (fun xs => ∀ j, Q j (xs[j]?.getD none)) (atEntry i f) := by
  intro xs hxs j
  have hj := hxs j
  unfold atEntry
  split
  · exact hj
  · rename_i x hx
    show Q j ((xs.set i (f x).2)[j]?.getD none)
    rw [List.getElem?_set]
    split
    · rename_i hij
      obtain ⟨hlt, -⟩ := List.getElem?_eq_some_iff.1 hx
      rw [← hij, hx] at hj
      rw [if_pos hlt, ← hij]
      exact hf x hj
    · exact hj

/-! ## The loop -/

/-- The loop makes a change in each round, as long as it makes a difference. From the round with the
given number on, it leads from one value to another one. -/
inductive Settles (f : Nat → Change α) : Nat → α → α → Prop
  | last {k : Nat} {x : α} (h : (f k x).1 = false) : Settles f k x (f k x).2
  | again {k : Nat} {x y : α} (h : (f k x).1 = true) (hrest : Settles f (k + 1) (f k x).2 y) :
      Settles f k x y

section Settles

variable {f : Nat → Change α} {k : Nat}

theorem Settles.unique (hy : Settles f k x y) (hz : Settles f k x z) : y = z := by
  induction hy with
  | last h =>
      cases hz with
      | last _ => rfl
      | again h' _ => exact absurd (h'.symm.trans h) Bool.false_ne_true.symm
  | again h _ ih =>
      cases hz with
      | last h' => exact absurd (h.symm.trans h') Bool.false_ne_true.symm
      | again _ hrest => exact ih hrest

/-- Where the answers are right, the loop ends. -/
theorem exists_settles (h : ∀ k, Truthful room (f k)) (k : Nat) (x : α) : ∃ y, Settles f k x y := by
  -- Each further round has less room.
  induction hn : room x using Nat.strongRecOn generalizing k x with
  | ind n ih =>
      cases hx : (f k x).1 with
      | false => exact ⟨_, .last hx⟩
      | true =>
          obtain ⟨y, hy⟩ := ih _ (hn ▸ (h k).room_lt x hx) (k + 1) _ rfl
          exact ⟨y, .again hx hy⟩

/-- The loop ends with a change that makes no difference. -/
theorem Settles.exists_idle (hy : Settles f k x y) (h : ∀ k, Truthful room (f k)) :
    ∃ k, (f k).Idle y := by
  induction hy with
  | @last k x hx =>
      rw [(h k).unchanged _ hx]
      exact ⟨k, (h k).idle hx⟩
  | again _ _ ih => exact ih

theorem Settles.keeps (hy : Settles f k x y) (h : ∀ k, Keeps P (f k)) (hx : P x) : P y := by
  induction hy with
  | last _ => exact h _ _ hx
  | again _ _ ih => exact ih (h _ _ hx)

/-- Where the loop leads to, it leads to nothing else. -/
theorem Settles.eq_iff (hy : Settles f k x y) : Settles f k x z ↔ z = y := by
  constructor
  · intro hz
    exact hz.unique hy
  · rintro rfl
    exact hy

end Settles

end Change

end SmallLang
