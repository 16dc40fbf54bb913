import SmallLang.Pattern.Build

/-!
# What a pattern matches

`Pattern.Takes` says, without automata, which pieces of a text a pattern matches: it relates a place
to every place that a match may end at. Preferences between the matches play no part in it. The
simplified rows of `Pattern.inRow` match what their parts match one after the other
(`Pattern.takes_inRow_iff`).

That the search finds such matches is shown in `SmallLang.Proofs.Pattern.Ways`.
-/

set_option autoImplicit false

namespace SmallLang

/-! ## Places and matches -/

/-- The second place comes after the first one, with the given characters between them. -/
def Place.Passes : List Char → Place → Place → Prop
  | [], c, d => d = c
  | x :: xs, c, d => ∃ rest, c.rest = x :: rest ∧ Passes xs ⟨some x, rest⟩ d

theorem CharSet.mem_single (c x : Char) : (CharSet.single c).mem x = decide (x = c) := by
  simp only [CharSet.mem, CharSet.memCode, CharSet.single, Text.inRanges]
  by_cases h : x = c
  · simp [h]
  · have hne : x.toNat ≠ c.toNat := fun heq => h (Char.toNat_inj.1 heq)
    split
    · simp [h]
    · rw [if_neg (by omega)]
      simp [h]

namespace Pattern

/-- So many rounds one after the other. -/
def Rounds (round : Place → Place → Prop) : Nat → Place → Place → Prop
  | 0, c, d => d = c
  | k + 1, c, d => ∃ e, round c e ∧ Rounds round k e d

/-- The pattern matches the piece between the two places. Of bounds that contradict each other,
which are never read, the lower one counts. -/
def Takes : Pattern → Place → Place → Prop
  | nothing, c, d => d = c
  | text cs, c, d => c.Passes cs d
  | char s, c, d => ∃ x, s.mem x = true ∧ c.Passes [x] d
  | anchor a, c, d => a.holds c = true ∧ d = c
  | group _ p, c, d => p.Takes c d
  | seq p q, c, d => ∃ e, p.Takes c e ∧ q.Takes e d
  | alt p q, c, d => p.Takes c d ∨ q.Takes c d
  | repeated p least most _, c, d =>
      ∃ k, least ≤ k ∧ (∀ m ∈ most, k ≤ max least m) ∧ Rounds p.Takes k c d

/-- The patterns match pieces one after the other. -/
def TakesRow : List Pattern → Place → Place → Prop
  | [], c, d => d = c
  | p :: ps, c, d => ∃ e, p.Takes c e ∧ TakesRow ps e d

end Pattern

/-! ## Rows -/

theorem Place.passes_append_iff {xs ys : List Char} {c d : Place} :
    c.Passes (xs ++ ys) d ↔ ∃ e, c.Passes xs e ∧ e.Passes ys d := by
  induction xs generalizing c with
  | nil => simp [Passes]
  | cons x xs ih =>
      simp only [List.cons_append, Passes, ih]
      constructor
      · rintro ⟨rest, hrest, e, hxs, hys⟩
        exact ⟨e, ⟨rest, hrest, hxs⟩, hys⟩
      · rintro ⟨e, ⟨rest, hrest, hxs⟩, hys⟩
        exact ⟨rest, hrest, e, hxs, hys⟩

namespace Pattern

variable {p q : Pattern} {ps qs : List Pattern} {c d : Place}

theorem takesRow_append_iff : TakesRow (ps ++ qs) c d ↔ ∃ e, TakesRow ps c e ∧ TakesRow qs e d := by
  induction ps generalizing c with
  | nil => simp [TakesRow]
  | cons p ps ih =>
      simp only [List.cons_append, TakesRow, ih]
      constructor
      · rintro ⟨e, hp, e', hps, hqs⟩
        exact ⟨e', ⟨e, hp, hps⟩, hqs⟩
      · rintro ⟨e', ⟨e, hp, hps⟩, hqs⟩
        exact ⟨e, hp, e', hps, hqs⟩

@[simp] theorem takesRow_singleton_iff : TakesRow [p] c d ↔ p.Takes c d := by
  simp [TakesRow]

theorem takesRow_items_iff : TakesRow p.items c d ↔ p.Takes c d := by
  induction p generalizing c d with
  | seq p q ihp ihq => simp only [items, takesRow_append_iff, ihp, ihq, Takes]
  | _ => exact takesRow_singleton_iff

theorem takesRow_flatMap_items_iff : TakesRow (ps.flatMap items) c d ↔ TakesRow ps c d := by
  induction ps generalizing c with
  | nil => rfl
  | cons p ps ih => simp only [List.flatMap_cons, takesRow_append_iff, takesRow_items_iff, ih, TakesRow]

theorem takesRow_glue_iff : TakesRow (glue p ps) c d ↔ TakesRow (p :: ps) c d := by
  fun_cases glue p ps with
  | case1 => simp [TakesRow, Takes]
  | case2 cs ds ps =>
      simp only [TakesRow, Takes, Place.passes_append_iff]
      constructor
      · rintro ⟨e, ⟨e', hcs, hds⟩, hps⟩
        exact ⟨e', hcs, e, hds, hps⟩
      · rintro ⟨e', hcs, e, hds, hps⟩
        exact ⟨e, ⟨e', hcs, hds⟩, hps⟩
  | case3 => rfl

theorem takesRow_foldr_glue_iff : TakesRow (ps.foldr glue []) c d ↔ TakesRow ps c d := by
  induction ps generalizing c with
  | nil => rfl
  | cons p ps ih => simp only [List.foldr_cons, takesRow_glue_iff, TakesRow, ih]

theorem takes_ofItems_iff : (ofItems ps).Takes c d ↔ TakesRow ps c d := by
  induction ps generalizing c with
  | nil => rfl
  | cons p ps ih =>
      cases ps with
      | nil => exact takesRow_singleton_iff.symm
      | cons q ps =>
          rw [ofItems, Takes, TakesRow]
          · simp only [ih]
          · simp

/-- A row in its simplest form matches what its parts match one after the other. -/
theorem takes_inRow_iff : (inRow ps).Takes c d ↔ TakesRow ps c d := by
  rw [inRow, takes_ofItems_iff, takesRow_foldr_glue_iff, takesRow_flatMap_items_iff]

/-- A row that begins with the anchor for the start of a text is anchored. -/
theorem isAnchored_inRow_textStart : (inRow (anchor .textStart :: ps)).isAnchored = true := by
  rw [inRow, List.flatMap_cons, items, List.singleton_append, List.foldr_cons, glue]
  · cases (ps.flatMap items).foldr glue [] with
    | nil => rfl
    | cons q qs => rfl
  · simp
  · simp
  · simp

end Pattern

end SmallLang
