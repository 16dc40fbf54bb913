/-!
# Saturation

The least table that satisfies some closure rules is found by applying all rules to every entry
until nothing changes. `saturate` repeats a function up to a value that it does not change, which it
reaches because every change leaves less room (`saturate_fixed`); what holds of the start and is kept
by the function holds of the result (`saturate_induction`). `growAll` changes all entries of a table
at once.
-/

set_option autoImplicit false

namespace SmallLang

universe u

section Saturate

variable {α : Type u} [DecidableEq α]

/-- Repeats `f` from `x` until it changes nothing more. -/
def saturate (f : α → α) (room : α → Nat) (h : ∀ x, f x ≠ x → room (f x) < room x) (x : α) : α :=
  if hx : f x = x then x else
    have := h x hx
    saturate f room h (f x)
termination_by room x

variable {f : α → α} {room : α → Nat} {h : ∀ x, f x ≠ x → room (f x) < room x}

/-- The function does not change the result. -/
theorem saturate_fixed (x : α) : f (saturate f room h x) = saturate f room h x := by
  fun_induction saturate f room h x with
  | case1 x hx => exact hx
  | case2 x hx hlt ih => exact ih

/-- What holds of the start and is kept by the function holds of the result. -/
theorem saturate_induction {P : α → Prop} (hstep : ∀ x, P x → P (f x)) {x : α} (hx : P x) :
    P (saturate f room h x) := by
  fun_induction saturate f room h x with
  | case1 x _ => exact hx
  | case2 x _ _ ih => exact ih (hstep x hx)

end Saturate

section GrowAll

variable {α : Type u}

/-- Changes every entry of a table, each according to its number. -/
def growAll (grow : Nat → α → α) (xs : List α) : List α :=
  xs.zipIdx.map fun (x, i) => grow i x

/-- The room left in all entries. -/
def totalRoom (room : α → Nat) : List α → Nat
  | [] => 0
  | x :: xs => room x + totalRoom room xs

theorem totalRoom_growFrom (grow : Nat → α → α) (room : α → Nat)
    (h : ∀ i x, grow i x ≠ x → room (grow i x) < room x) (xs : List α) (k : Nat) :
    (xs.zipIdx k).map (fun (x, i) => grow i x) = xs ∨
      totalRoom room ((xs.zipIdx k).map fun (x, i) => grow i x) < totalRoom room xs := by
  induction xs generalizing k with
  | nil => exact Or.inl rfl
  | cons x xs ih =>
      simp only [List.zipIdx_cons, List.map_cons, totalRoom] at ih ⊢
      by_cases hx : grow k x = x
      · rcases ih (k + 1) with heq | hlt
        · exact Or.inl (by rw [hx, heq])
        · exact Or.inr (by rw [hx]; omega)
      · have hlt := h k x hx
        rcases ih (k + 1) with heq | hlt'
        · exact Or.inr (by rw [heq]; omega)
        · exact Or.inr (by omega)

/-- A table that changes has less room afterwards, if this holds of every entry. -/
theorem totalRoom_growAll_lt {grow : Nat → α → α} {room : α → Nat}
    (h : ∀ i x, grow i x ≠ x → room (grow i x) < room x) {xs : List α}
    (hne : growAll grow xs ≠ xs) : totalRoom room (growAll grow xs) < totalRoom room xs := by
  rcases totalRoom_growFrom grow room h xs 0 with heq | hlt
  · exact absurd heq hne
  · exact hlt

end GrowAll

end SmallLang
