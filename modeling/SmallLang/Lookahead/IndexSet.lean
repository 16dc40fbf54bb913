/-!
# Sets of indices

A set of indices below a fixed size is kept as a row of bits, whose length is the size rounded up to
whole words of 64 bits. The indices between the size and the end of the last word can be put into a
set and asked for, but are not listed. An index beyond the last word is never in a set.
-/

set_option autoImplicit false

namespace SmallLang

/-- The number of bits for a set of the given size: whole words of 64. -/
def wordBits (size : Nat) : Nat := 64 * ((size + 63) / 64)

/-- A set of indices below `size`. -/
structure IndexSet (size : Nat) where
  bits : BitVec (wordBits size)
  deriving DecidableEq

namespace IndexSet

variable {size : Nat}

/-- The set without indices. -/
def empty : IndexSet size := ⟨0#_⟩

/-- Whether the index is in the set. -/
def contains (s : IndexSet size) (i : Nat) : Bool := s.bits.getLsbD i

/-- The set with one more index. -/
def insert (s : IndexSet size) (i : Nat) : IndexSet size := ⟨s.bits ||| BitVec.twoPow _ i⟩

/-- The indices of both sets. -/
def union (s t : IndexSet size) : IndexSet size := ⟨s.bits ||| t.bits⟩

/-- Adds an index, and tells whether it is new. -/
def add (s : IndexSet size) (i : Nat) : Bool × IndexSet size := (!s.contains i, s.insert i)

/-- Adds the indices of another set, and tells whether any of them is new. -/
def addAll (s t : IndexSet size) : Bool × IndexSet size := (s.union t != s, s.union t)

/-- The indices of the set below its size, in increasing order. -/
def toList (s : IndexSet size) : List Nat := (List.range size).filter s.contains

/-- How far the bits are from all being set, as a number. -/
def room (s : IndexSet size) : Nat := (~~~s.bits).toNat

theorem room_union_lt {s t : IndexSet size} (h : s.union t ≠ s) : (s.union t).room < s.room := by
  have hle : s.bits.toNat ≤ (s.union t).bits.toNat := by
    simp only [union, BitVec.toNat_or]
    exact Nat.left_le_or
  have hne : s.bits.toNat ≠ (s.union t).bits.toNat := by
    intro heq
    apply h
    cases s
    simp only [union, mk.injEq] at heq ⊢
    exact (BitVec.eq_of_toNat_eq heq).symm
  have hlt := (s.union t).bits.isLt
  simp only [room, BitVec.toNat_not]
  omega

end IndexSet

end SmallLang
