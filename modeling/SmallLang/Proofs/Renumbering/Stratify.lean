import SmallLang.Proofs.Renumbering.Exchange

/-!
# Stratification under other numbers

Stratification takes the non-terminals in the order of their numbers, so other numbers mean another
order of its steps. Two steps that do not depend on each other can be exchanged, and so any two
orders give the same grammar by other numbers in which the steps that do depend on each other come
in the same order (`Grammar.Staged.exists_foldl_perm`). In particular a grammar by other numbers is
stratified to the same one, by other numbers again, where these keep the order of the steps that
depend on each other (`Grammar.Renumbers.exists_stratify`).
-/

set_option autoImplicit false

namespace SmallLang

open Equiv (Perm)

namespace Grammar

variable {r : Renumbering} {g g' : Grammar} {types size : Nat}

/-- The steps of two non-terminals may not be exchanged. -/
def Linked (g : Grammar) (x y : Nat) : Prop := g.Depends x y ∨ g.Depends y x

instance (g : Grammar) (x y : Nat) : Decidable (g.Linked x y) := inferInstanceAs (Decidable (_ ∨ _))

theorem Linked.symm {x y : Nat} (h : g.Linked x y) : g.Linked y x := Or.symm h

theorem Linked.operatorsOn_ne_nil {x y : Nat} (h : g.Linked x y) :
    g.operatorsOn x ≠ [] ∧ g.operatorsOn y ≠ [] :=
  h.elim Depends.operatorsOn_ne_nil fun hd => hd.operatorsOn_ne_nil.symm

theorem size_le_size_stratifyAt (g : Grammar) (x : Nat) : g.size ≤ (g.stratifyAt x).size := by
  by_cases hops : g.operatorsOn x = []
  · rw [stratifyAt_of_eq_nil hops]
  · exact size_le_stratifyAt hops

theorem start_lt_size_stratifyAt (hstart : g.start < g.size) (x : Nat) :
    (g.stratifyAt x).start < (g.stratifyAt x).size := by
  rw [stratifyAt_start]
  exact Nat.lt_of_lt_of_le hstart (size_le_size_stratifyAt g x)

/-- The same steps can be done after other numbers were given. -/
theorem Renumbers.exists_foldl (h : Renumbers r g g') (hg : g.Staged types size)
    (hstart : g.start < g.size) {xs : List Nat} (hxs : ∀ x ∈ xs, x < size) :
    ∃ s, Renumbers s (xs.foldl stratifyAt g) ((xs.map r.nonTerminal).foldl stratifyAt g') ∧
      Renumbering.AgreesBelow g.size r s := by
  induction xs generalizing r g g' with
  | nil => exact ⟨r, h, .refl _ r⟩
  | cons x xs ih =>
      have hx := hxs x List.mem_cons_self
      have hrest : ∀ y ∈ xs, y < size := fun y hy => hxs y (List.mem_cons_of_mem x hy)
      have hsize := size_le_size_stratifyAt g x
      obtain ⟨s, hs, hagrees⟩ :=
        h.exists_stratifyAt hg.hasSymbol hstart (Nat.lt_of_lt_of_le hx hg.size_le)
      obtain ⟨t, ht, hagrees'⟩ :=
        ih hs (hg.stratifyAt hx) (start_lt_size_stratifyAt hstart x) hrest
      -- The steps that follow are for numbers that were there before the first one.
      have hnumbers : xs.map s.nonTerminal = xs.map r.nonTerminal := List.map_congr_left fun y hy =>
        hagrees.nonTerminal y (Nat.lt_of_lt_of_le (hrest y hy) hg.size_le)
      rw [hnumbers] at ht
      exact ⟨t, ht, hagrees.trans (hagrees'.mono hsize)⟩

namespace Staged

variable (h : g.Staged types size) (hstart : g.start < g.size)
include h hstart

/-- A step can be done before those that it is not linked with. -/
theorem exists_foldl_front {x : Nat} (hx : x < size) {before after : List Nat}
    (hbefore : ∀ y ∈ before, y < size ∧ y ≠ x ∧ ¬ g.Linked y x) (hafter : ∀ y ∈ after, y < size) :
    ∃ r, Renumbers r ((before ++ x :: after).foldl Grammar.stratifyAt g)
        ((x :: (before ++ after)).foldl Grammar.stratifyAt g) ∧
      Renumbering.AgreesBelow g.size .refl r := by
  induction before generalizing g with
  | nil => exact ⟨.refl, .refl _, .refl _ _⟩
  | cons y before ih =>
      obtain ⟨hy, hyx, hlinked⟩ := hbefore y List.mem_cons_self
      have hrest : ∀ z ∈ before, z < size ∧ z ≠ x ∧ ¬ (g.stratifyAt y).Linked z x := by
        intro z hz
        obtain ⟨hlt, hne, hnot⟩ := hbefore z (List.mem_cons_of_mem y hz)
        refine ⟨hlt, hne, fun hlinked' => hnot ?_⟩
        exact hlinked'.imp (h.depends_of_stratifyAt hy hlt hx) (h.depends_of_stratifyAt hy hx hlt)
      have hstart' := start_lt_size_stratifyAt hstart y
      obtain ⟨r, hr, hagrees⟩ := ih (h.stratifyAt hy) hstart' hrest
      -- Before the rest of the steps, the first two are exchanged.
      obtain ⟨s, hs, hagrees'⟩ := h.exists_exchange hstart hy hx hyx (fun hd => hlinked (.inl hd))
        fun hd => hlinked (.inr hd)
      have hmembers : ∀ z ∈ before ++ after, z < size := fun z hz => by
        rcases List.mem_append.1 hz with hz | hz
        · exact (hrest z hz).1
        · exact hafter z hz
      obtain ⟨t, ht, hagrees''⟩ := hs.exists_foldl ((h.stratifyAt hy).stratifyAt hx)
        (start_lt_size_stratifyAt hstart' x) hmembers
      have hnumbers : (before ++ after).map s.nonTerminal = before ++ after :=
        (List.map_congr_left fun z hz =>
          hagrees'.nonTerminal z (Nat.lt_of_lt_of_le (hmembers z hz) h.size_le)).trans (List.map_id' _)
      rw [hnumbers] at ht
      have hsize := size_le_size_stratifyAt g y
      exact ⟨r.trans t, hr.trans ht, (hagrees.mono hsize).comp
        (hagrees'.trans (hagrees''.mono (Nat.le_trans hsize (size_le_size_stratifyAt _ x))))⟩

/-- Steps can be done in any order in which those that are linked come in the same order. -/
theorem exists_foldl_perm {xs ys : List Nat} (hperm : ys.Perm xs) (hxs : ∀ x ∈ xs, x < size)
    (hnodup : xs.Nodup) (hfirst : xs.Pairwise fun x y => g.Linked x y → x < y)
    (hsecond : ys.Pairwise fun x y => g.Linked x y → x < y) :
    ∃ r, Renumbers r (ys.foldl Grammar.stratifyAt g) (xs.foldl Grammar.stratifyAt g) ∧
      Renumbering.AgreesBelow g.size .refl r := by
  induction xs generalizing g ys with
  | nil =>
      rw [hperm.eq_nil]
      exact ⟨.refl, .refl _, .refl _ _⟩
  | cons x xs ih =>
      obtain ⟨before, after, rfl⟩ := List.append_of_mem (hperm.mem_iff.2 List.mem_cons_self)
      have hx := hxs x List.mem_cons_self
      have hrest : (before ++ after).Perm xs := (List.perm_middle.symm.trans hperm).cons_inv
      have hmember : ∀ y ∈ before ++ after, y ∈ xs := fun y hy => hrest.mem_iff.1 hy
      have hlt : ∀ y ∈ xs, y < size := fun y hy => hxs y (List.mem_cons_of_mem x hy)
      obtain ⟨hhead, htail⟩ := List.pairwise_cons.1 hfirst
      obtain ⟨-, -, hacross⟩ := List.pairwise_append.1 hsecond
      -- What comes before `x` in the one order only is not linked with it.
      have hbefore : ∀ y ∈ before, y < size ∧ y ≠ x ∧ ¬ g.Linked y x := by
        intro y hy
        have hy' := hmember y (List.mem_append_left after hy)
        refine ⟨hlt y hy', ?_, fun hlinked => ?_⟩
        · rintro rfl
          exact (List.nodup_cons.1 hnodup).1 hy'
        · have hyx := hacross y hy x List.mem_cons_self hlinked
          exact absurd hyx (Nat.lt_asymm (hhead y hy' hlinked.symm))
      have hafter : ∀ y ∈ after, y < size := fun y hy =>
        hlt y (hmember y (List.mem_append_right before hy))
      obtain ⟨r, hr, hagrees⟩ := h.exists_foldl_front hstart hx hbefore hafter
      -- A step leaves no more links than there were.
      have hsub : (before ++ after).Sublist (before ++ x :: after) :=
        (List.sublist_cons_self x after).append_left before
      have hlinks : ∀ {y z}, y ∈ xs → z ∈ xs → (g.stratifyAt x).Linked y z → g.Linked y z :=
        fun hy hz hlinked => hlinked.imp (h.depends_of_stratifyAt hx (hlt _ hy) (hlt _ hz))
          (h.depends_of_stratifyAt hx (hlt _ hz) (hlt _ hy))
      obtain ⟨s, hs, hagrees'⟩ := ih (h.stratifyAt hx) (start_lt_size_stratifyAt hstart x) hrest hlt
        (List.nodup_cons.1 hnodup).2
        (htail.imp_of_mem fun hy hz hpair hlinked => hpair (hlinks hy hz hlinked))
        ((hsecond.sublist hsub).imp_of_mem fun hy hz hpair hlinked =>
          hpair (hlinks (hmember _ hy) (hmember _ hz) hlinked))
      exact ⟨r.trans s, hr.trans hs, hagrees.comp (hagrees'.mono (size_le_size_stratifyAt g x))⟩

end Staged

/-- A grammar by other numbers is stratified to the same one by other numbers, where steps that are
linked keep their order. -/
theorem Renumbers.exists_stratify (h : Renumbers r g g') (hg : g.Staged types g.size)
    (hstart : g.start < g.size) (horder : ∀ x < g.size, ∀ y < g.size, g.Linked x y → x < y →
      r.nonTerminal x < r.nonTerminal y) :
    ∃ s, Renumbers s g.stratify g'.stratify ∧ s.terminal = r.terminal ∧ s.kind = r.kind := by
  -- The numbers in the order in which the other grammar takes them.
  let xs := (List.range g.size).map r.nonTerminal.symm
  have hlt : ∀ x, r.nonTerminal.symm x < g.size ↔ x < g.size := fun x => by
    rw [← h.lt_size_iff, Equiv.apply_symm_apply]
  have hmem : ∀ x ∈ xs, x < g.size := by
    intro x hx
    obtain ⟨y, hy, rfl⟩ := List.mem_map.1 hx
    exact (hlt y).2 (List.mem_range.1 hy)
  have hnumbers : xs.map r.nonTerminal = List.range g'.size := by
    rw [List.map_map, h.size_eq]
    exact (List.map_congr_left fun x _ => r.nonTerminal.apply_symm_apply x).trans (List.map_id' _)
  have hnodup : xs.Nodup := List.nodup_range.map r.nonTerminal.symm.injective
  have hperm : (List.range g.size).Perm xs := by
    refine (List.perm_ext_iff_of_nodup List.nodup_range hnodup).2 fun x => ?_
    refine ⟨fun hx => List.mem_map.2 ⟨r.nonTerminal x, ?_, r.nonTerminal.symm_apply_apply x⟩,
      fun hx => List.mem_range.2 (hmem x hx)⟩
    exact List.mem_range.2 ((h.lt_size_iff x).2 (List.mem_range.1 hx))
  have hfirst : xs.Pairwise fun x y => g.Linked x y → x < y := by
    refine List.pairwise_map.2 (List.pairwise_lt_range.imp_of_mem fun {x y} hx hy hxy hlinked => ?_)
    by_contra hno
    have hne : r.nonTerminal.symm x ≠ r.nonTerminal.symm y := fun heq =>
      (Nat.ne_of_lt hxy) (r.nonTerminal.symm.injective heq)
    have hback := horder _ ((hlt y).2 (List.mem_range.1 hy)) _ ((hlt x).2 (List.mem_range.1 hx))
      hlinked.symm (by omega)
    rw [Equiv.apply_symm_apply, Equiv.apply_symm_apply] at hback
    exact Nat.lt_asymm hback hxy
  have hsecond : (List.range g.size).Pairwise fun x y => g.Linked x y → x < y := by
    refine List.Pairwise.imp ?_ List.pairwise_lt_range
    exact fun hxy _ => hxy
  obtain ⟨s, hs, hagrees⟩ := hg.exists_foldl_perm hstart hperm hmem hnodup hfirst hsecond
  obtain ⟨t, ht, hagrees'⟩ := h.exists_foldl hg hstart hmem
  rw [hnumbers] at ht
  have hboth := hagrees.comp hagrees'
  exact ⟨s.trans t, hs.trans ht, hboth.terminal, hboth.kind⟩

end Grammar

end SmallLang
