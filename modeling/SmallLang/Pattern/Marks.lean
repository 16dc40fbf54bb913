/-!
# Marks that are taken away all at once

A search marks the steps that it has met at a place of the text, and starts the next place without
marks. A mark is the number of the round in which it was made, so that a new round needs no work.
-/

set_option autoImplicit false

namespace SmallLang

/-- Marks on the numbers below a bound. No mark comes from a later round than the current one. -/
structure Marks where
  round : Nat
  stamps : Array Nat
  stamps_le : ∀ x ∈ stamps, x ≤ round

namespace Marks

/-- No marks, for the numbers below `size`. -/
def none (size : Nat) : Marks := ⟨1, Array.replicate size 0, by simp⟩

/-- Whether the number is marked. -/
def contains (m : Marks) (i : Nat) : Bool := m.stamps[i]? == some m.round

/-- Marks a number. -/
def insert (m : Marks) (i : Nat) : Marks :=
  ⟨m.round, m.stamps.setIfInBounds i m.round, fun x h => by
    rcases Array.mem_or_eq_of_mem_setIfInBounds h with h | h
    · exact m.stamps_le x h
    · exact Nat.le_of_eq h⟩

/-- Takes all marks away. -/
def clear (m : Marks) : Marks :=
  ⟨m.round + 1, m.stamps, fun x h => Nat.le_succ_of_le (m.stamps_le x h)⟩

@[simp] theorem contains_none (size i : Nat) : (none size).contains i = false := by
  simp only [contains, none, Array.getElem?_replicate]
  split <;> simp

@[simp] theorem contains_clear (m : Marks) (i : Nat) : m.clear.contains i = false := by
  simp only [contains, clear, beq_eq_false_iff_ne]
  intro h
  have := m.stamps_le _ (Array.mem_of_getElem? h)
  omega

@[simp] theorem contains_insert (m : Marks) (i j : Nat) :
    (m.insert i).contains j = ((i == j && decide (i < m.stamps.size)) || m.contains j) := by
  simp only [contains, insert, Array.getElem?_setIfInBounds]
  by_cases h : i = j
  · subst h
    by_cases hlt : i < m.stamps.size <;> simp [hlt]
  · simp [h]

end Marks

end SmallLang
