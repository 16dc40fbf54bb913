import SmallLang.Proofs.Extension.Embed
import SmallLang.Proofs.Extension.Grammar

/-!
# Where the new grammar holds an old atom

A type that was no ladder may become one. Then it is in the way of units that led through it, and what
lies beyond is an atom of its ladder and no longer one of the ladder above. Following the path of units
from one such ladder to the next, each of them handed on by the one before, one arrives at the ladder
that holds the atom now (`Extension.exists_holder`).
-/

set_option autoImplicit false

namespace SmallLang

namespace Grammar

/-! ## Closures while the steps go on -/

namespace Staged

variable {types : Nat} {g : Grammar} (h : g.Staged types g.size)
include h

/-- What a later step reaches from a member of the closure, the earlier step reaches as well. -/
theorem mem_closureAt_trans {e z m : Nat} (hez : e ≤ z) (hzs : z < g.size) (hz : z ∈ g.closureAt e)
    (hm : m ∈ g.closureAt z) : m ∈ g.closureAt e := by
  apply h.closureAt_induction hzs hm
  · exact hz
  · intro a b _ hopen hab ha
    exact h.mem_closureAt_of_unitStep (Nat.lt_of_le_of_lt hez hzs) ha (hopen.of_le hez) hab

/-- A production of the closure that begins with the non-terminal makes it a ladder. -/
theorem isOperatorOn_eq_false {e m i : Nat} {q : Production} (hes : e < g.size)
    (hno : ¬ g.HasLadder e) (hm : m ∈ g.closureAt e) (hopen : g.Open e m)
    (hq : g.production? m i = some q) : q.isOperatorOn e = false := by
  by_contra htrue
  rw [Bool.not_eq_false] at htrue
  have hop := (h.mem_usesAt_iff hes).2 ⟨m, i, q, hm, hopen, hq, htrue, rfl⟩
  exact hno (List.ne_nil_of_mem hop)

end Staged

namespace Extension

variable {n n' : Nat} {g g' : Grammar}

/-- A ladder of the new grammar which holds what the atoms of an earlier one held in the old grammar:
it is that ladder itself, or was no ladder before. -/
structure Holder (g g' : Grammar) (e m x : Nat) : Prop where
  le : x ≤ e
  ladder : g'.HasLadder x
  new : x = e ∨ ¬ g.HasLadder x
  into : g'.stratify.Into (g'.ladder x).atom (g'.ladder e).atom
  old_closure : m ∈ g.closureAt x
  closure : m ∈ g'.closureAt x
  /-- The non-terminal in the closure is no ladder at that step, or was an earlier one before. -/
  status : g'.Open x m ∨ g.HasLadder m ∧ m < x

/-- The holder of an open non-terminal finds it open. -/
theorem Holder.open {e m x : Nat} (hx : Holder g g' e m x) (hopen : g.Open e m) : g'.Open x m := by
  rcases hx.status with hopen' | ⟨hold, hlt⟩
  · exact hopen'
  · exact absurd ⟨hold, Nat.lt_of_lt_of_le hlt hx.le⟩ hopen

variable (h : Extension n n' g g')
include h

/-- What the closure of a type held has a holder in the new grammar. -/
theorem exists_holder (hg' : g'.stratify.WellFormed) {e m : Nat} (he : e < n)
    (hladder : g'.HasLadder e) (hm : m ∈ g.closureAt e) : ∃ x, Holder g g' e m x := by
  apply h.old.closureAt_induction (h.lt_old he) hm
  · exact ⟨e, Nat.le_refl e, hladder, Or.inl rfl, Into.refl _ _, Staged.self_mem_closureAt g e,
      Staged.self_mem_closureAt g' e, Or.inl (Open.self g' e)⟩
  · rintro a b - hopen hab ⟨x, hx⟩
    obtain ⟨-, hb, hab'⟩ := h.unitStep hab
    have hxn : x < n := Nat.lt_of_le_of_lt hx.le he
    have hbold := h.old.mem_closureAt_of_unitStep (h.lt_old hxn) hx.old_closure
      (hopen.of_le hx.le) hab
    have hbnew := h.new.mem_closureAt_of_unitStep (h.lt_new hxn) hx.closure (hx.open hopen) hab'
    by_cases hblocked : g'.HasLadder b ∧ b < x
    · by_cases hbladder : g.HasLadder b
      · exact ⟨x, hx.le, hx.ladder, hx.new, hx.into, hbold, hbnew, Or.inr ⟨hbladder, hblocked.2⟩⟩
      · -- A ladder that was none before takes over.
        have hinto := h.new.into_atom_of_mem_closureAt hg' hx.ladder (h.lt_new hxn) hbnew hblocked.1
          hblocked.2
        exact ⟨b, Nat.le_trans (Nat.le_of_lt hblocked.2) hx.le, hblocked.1, Or.inr hbladder,
          hinto.trans hx.into, Staged.self_mem_closureAt g b, Staged.self_mem_closureAt g' b,
          Or.inl (Open.self g' b)⟩
    · exact ⟨x, hx.le, hx.ladder, hx.new, hx.into, hbold, hbnew, Or.inl hblocked⟩

/-- A production that no step up to the holder's found is an atom of the holder. -/
theorem atom_mem_of_holder {e m i x : Nat} {q : Production} (hx : Holder g g' e m x) (he : e < n)
    (hopen : g.Open e m) (hq : g.production? m i = some q) (hunit : q.unitTarget? = none)
    (hnotop : q.isOperatorOn e = false)
    (hnot : ∀ y < n, ∀ j op, g.Finds y m i j op → e < y) :
    (g'.ladder x).atomProduction (q.renumber n n') ∈
      g'.stratify.productionsOf (g'.ladder x).atom := by
  have hxn : x < n := Nat.lt_of_le_of_lt hx.le he
  have hmn : m < n := by
    rcases (h.old.stage (Nat.le_of_lt (h.lt_old hxn))).mem_unitClosure (h.lt_old hxn)
      hx.old_closure with rfl | ⟨-, hlt⟩
    · exact hxn
    · exact hlt
  have hq' := h.production?_of_lt hmn hq
  have hkept : g'.arranged x m i (q.renumber n n') = q.renumber n n' := by
    rcases g'.arranged_cases x m i (q.renumber n n') with ⟨heq, -⟩ | ⟨y, hy, j, op, hfinds, -⟩
    · exact heq
    · have hkeeps : renumber n n' m = m := renumber_of_lt hmn
      rw [← hkeeps] at hfinds
      obtain ⟨-, hyn, j', op', hfinds'⟩ :=
        h.exists_finds_of_finds (Nat.lt_trans hy (h.lt_new hxn)) hq hfinds
      exact absurd (Nat.lt_of_lt_of_le hy hx.le) (Nat.lt_asymm (hnot y hyn j' op' hfinds'))
  have hnotop' : (q.renumber n n').isOperatorOn x = false := by
    rw [Production.isOperatorOn_renumber h.grows.le hxn]
    rcases hx.new with rfl | hno
    · exact hnotop
    · exact h.old.isOperatorOn_eq_false (h.lt_old hxn) hno hx.old_closure (hopen.of_le hx.le) hq
  have hunit' : (q.renumber n n').unitTarget? = none := by
    rw [Production.unitTarget?_renumber, hunit]
    rfl
  have hatom := (h.new.mem_atomsAt_iff (h.lt_new hxn)).2
    (Or.inr ⟨m, hx.closure, hx.open hopen, i, _, hq', hnotop', hunit', hkept.symm⟩)
  exact h.new.mem_atom_of_mem_atomsAt hx.ladder (h.lt_new hxn) hatom

end Extension

end Grammar

end SmallLang
