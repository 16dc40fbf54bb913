import Mathlib.Data.List.Nodup
import Mathlib.Data.List.Perm.Basic
import Mathlib.Logic.Equiv.Basic
import SmallLang.Proofs.Operator.Use
import SmallLang.Proofs.Renaming.Types

/-!
# Other numbers for the same grammar

The numbers of non-terminals, of the productions of each, and of terminals depend on the order of
declarations. A `Renumbering` gives other numbers to non-terminals and terminals, and other names to
the kinds of nodes. `Grammar.Renumbers` says that a second grammar is the first one with these numbers
and kinds: each non-terminal has the same productions, in any order.

Renumberings are permutations of all numbers, so they can be undone (`Grammar.Renumbers.symm`) and
done one after the other (`Grammar.Renumbers.trans`).
-/

set_option autoImplicit false

namespace SmallLang

open Equiv (Perm)

/-! ## Permutations of numbers -/

/-- One permutation of the numbers below a bound, and another one of the numbers from there on. -/
def permSplit (bound : Nat) (below above : Perm Nat) (h : ∀ i, below i < bound ↔ i < bound) :
    Perm Nat where
  toFun i := if i < bound then below i else bound + above (i - bound)
  invFun i := if i < bound then below.symm i else bound + above.symm (i - bound)
  left_inv i := by
    by_cases hi : i < bound
    · simp [hi, (h i).2 hi]
    · have hge : ¬ bound + above (i - bound) < bound := by omega
      simp only [hi, hge, if_false, Nat.add_sub_cancel_left, Equiv.symm_apply_apply]
      omega
  right_inv i := by
    have hsymm : below.symm i < bound ↔ i < bound := by rw [← h, Equiv.apply_symm_apply]
    by_cases hi : i < bound
    · simp [hi, hsymm.2 hi]
    · have hge : ¬ bound + above.symm (i - bound) < bound := by omega
      simp only [hi, hge, if_false, Nat.add_sub_cancel_left, Equiv.apply_symm_apply]
      omega

theorem permSplit_of_lt {bound : Nat} {below above : Perm Nat}
    (h : ∀ i, below i < bound ↔ i < bound) {i : Nat} (hi : i < bound) :
    permSplit bound below above h i = below i :=
  if_pos hi

theorem permSplit_add {bound : Nat} {below above : Perm Nat}
    (h : ∀ i, below i < bound ↔ i < bound) (i : Nat) :
    permSplit bound below above h (bound + i) = bound + above i := by
  show (if bound + i < bound then below (bound + i) else bound + above (bound + i - bound)) = _
  rw [if_neg (by omega), Nat.add_sub_cancel_left]

theorem permSplit_lt_add_iff {bound size : Nat} {below above : Perm Nat}
    (h : ∀ i, below i < bound ↔ i < bound) (habove : ∀ i, above i < size ↔ i < size) (i : Nat) :
    permSplit bound below above h i < bound + size ↔ i < bound + size := by
  rcases Nat.lt_or_ge i bound with hi | hi
  · rw [permSplit_of_lt h hi]
    have hlt := (h i).2 hi
    omega
  · obtain ⟨k, rfl⟩ := Nat.exists_eq_add_of_le hi
    rw [permSplit_add, Nat.add_lt_add_iff_left, Nat.add_lt_add_iff_left, habove]

/-- The places of a list's members in another order of the list. -/
theorem exists_perm_getElem? {α : Type} {xs ys : List α} (h : ys.Perm xs) :
    ∃ σ : Perm Nat, ∀ i, ys[σ i]? = xs[i]? := by
  induction h with
  | nil => exact ⟨Equiv.refl Nat, fun i => rfl⟩
  | @cons x ys xs _ ih =>
      obtain ⟨σ, hσ⟩ := ih
      have hone : ∀ i, Equiv.refl Nat i < 1 ↔ i < 1 := fun i => Iff.of_eq rfl
      refine ⟨permSplit 1 (Equiv.refl Nat) σ hone, fun i => ?_⟩
      cases i with
      | zero => rfl
      | succ i =>
          rw [Nat.add_comm i 1, permSplit_add hone, Nat.add_comm 1, Nat.add_comm 1,
            List.getElem?_cons_succ, List.getElem?_cons_succ]
          exact hσ i
  | swap x y xs =>
      refine ⟨Equiv.swap 0 1, fun i => ?_⟩
      match i with
      | 0 => rw [Equiv.swap_apply_left]; rfl
      | 1 => rw [Equiv.swap_apply_right]; rfl
      | i + 2 => rw [Equiv.swap_apply_of_ne_of_ne (by omega) (by omega)]; rfl
  | trans _ _ ih ih' =>
      obtain ⟨σ, hσ⟩ := ih
      obtain ⟨σ', hσ'⟩ := ih'
      exact ⟨σ'.trans σ, fun i => (hσ (σ' i)).trans (hσ' i)⟩

theorem perm_lt_length_iff {α : Type} {xs ys : List α} {σ : Perm Nat}
    (h : ∀ i, ys[σ i]? = xs[i]?) (i : Nat) : σ i < ys.length ↔ i < xs.length := by
  rw [← Nat.not_le, ← Nat.not_le, ← List.getElem?_eq_none_iff, ← List.getElem?_eq_none_iff, h]

/-- The members with their places, in another order of the list. -/
theorem zipIdx_perm {α β : Type} {f : α → β} {xs : List α} {ys : List β} {σ : Perm Nat}
    (h : ∀ i, ys[σ i]? = xs[i]?.map f) :
    ys.zipIdx.Perm (xs.zipIdx.map fun x => (f x.1, σ x.2)) := by
  have hzip : ∀ {γ : Type} (zs : List γ), zs.zipIdx.Nodup := fun zs => by
    refine List.Nodup.of_map Prod.snd ?_
    rw [List.zipIdx_map_snd]
    exact List.nodup_range'
  have hnodup : (xs.zipIdx.map fun x => (f x.1, σ x.2)).Nodup := by
    refine List.Nodup.of_map Prod.snd ?_
    rw [List.map_map]
    have hcomp : Prod.snd ∘ (fun x : α × Nat => (f x.1, σ x.2)) = σ ∘ Prod.snd := rfl
    rw [hcomp, ← List.map_map, List.zipIdx_map_snd]
    exact List.Nodup.map σ.injective List.nodup_range'
  refine (List.perm_ext_iff_of_nodup (hzip ys) hnodup).2 ?_
  rintro ⟨y, j⟩
  obtain ⟨i, rfl⟩ := σ.surjective j
  rw [List.mk_mem_zipIdx_iff_getElem?, h, Option.map_eq_some_iff, List.mem_map]
  constructor
  · rintro ⟨x, hx, rfl⟩
    exact ⟨(x, i), List.mk_mem_zipIdx_iff_getElem?.2 hx, rfl⟩
  · rintro ⟨⟨x, i'⟩, hx, heq⟩
    obtain ⟨rfl, hi⟩ := Prod.mk.inj heq
    obtain rfl := σ.injective hi
    exact ⟨x, List.mk_mem_zipIdx_iff_getElem?.1 hx, rfl⟩

/-! ## Renumberings -/

/-- Other numbers for the non-terminals and the terminals of a grammar, and other kinds for the nodes
that it builds. -/
structure Renumbering where
  nonTerminal : Perm Nat
  terminal : Perm Nat
  kind : Perm String

namespace Renumbering

variable (r s : Renumbering)

/-- The numbers stay as they are. -/
def refl : Renumbering := ⟨Equiv.refl Nat, Equiv.refl Nat, Equiv.refl String⟩

/-- The old numbers for the new ones. -/
def symm : Renumbering := ⟨r.nonTerminal.symm, r.terminal.symm, r.kind.symm⟩

/-- Other numbers once more. -/
def trans : Renumbering :=
  ⟨r.nonTerminal.trans s.nonTerminal, r.terminal.trans s.terminal, r.kind.trans s.kind⟩

/-- A symbol by its other number. -/
def symbol : Symbol → Symbol
  | .nonTerminal i => .nonTerminal (r.nonTerminal i)
  | .terminal i => .terminal (r.terminal i)

/-- A production by the other numbers of its symbols, and with the other kinds of nodes. -/
def production (p : Production) : Production :=
  { p with symbols := p.symbols.map r.symbol, construction := p.construction.rename r.kind }

@[simp] theorem symm_nonTerminal_apply (i : Nat) : r.symm.nonTerminal (r.nonTerminal i) = i :=
  r.nonTerminal.symm_apply_apply i

@[simp] theorem symm_terminal_apply (i : Nat) : r.symm.terminal (r.terminal i) = i :=
  r.terminal.symm_apply_apply i

@[simp] theorem symbol_refl (s : Symbol) : refl.symbol s = s := by
  cases s <;> rfl

@[simp] theorem symbol_symm_symbol (s : Symbol) : r.symm.symbol (r.symbol s) = s := by
  cases s <;> simp [symbol, symm]

@[simp] theorem symbol_trans (x : Symbol) : (r.trans s).symbol x = s.symbol (r.symbol x) := by
  cases x <;> rfl

theorem symbol_injective : Function.Injective r.symbol :=
  Function.LeftInverse.injective r.symbol_symm_symbol

@[simp] theorem production_refl (p : Production) : refl.production p = p := by
  rw [production, funext symbol_refl, List.map_id']
  exact congrArg (Production.mk p.symbols · p.prec) p.construction.rename_id

@[simp] theorem production_symm_production (p : Production) :
    r.symm.production (r.production p) = p := by
  have hkind : (r.symm.kind : String → String) ∘ r.kind = id := funext r.kind.symm_apply_apply
  have hsymbol : r.symm.symbol ∘ r.symbol = id := funext r.symbol_symm_symbol
  rw [production, production, List.map_map, hsymbol, List.map_id, Construction.rename_rename, hkind,
    Construction.rename_id]

@[simp] theorem production_trans (p : Production) :
    (r.trans s).production p = s.production (r.production p) := by
  have hsymbol : s.symbol ∘ r.symbol = (r.trans s).symbol :=
    funext fun x => (symbol_trans r s x).symm
  rw [production, production, production, List.map_map, hsymbol, Construction.rename_rename]
  rfl

/-- A production whose symbols get the same numbers becomes the same one, with the same kinds. -/
theorem production_congr {p : Production} (h : ∀ x ∈ p.symbols, r.symbol x = s.symbol x)
    (hkind : r.kind = s.kind) : r.production p = s.production p := by
  rw [production, production, List.map_congr_left h, hkind]

end Renumbering

namespace Grammar

/-- The second grammar is the first one with other numbers. -/
structure Renumbers (r : Renumbering) (g g' : Grammar) : Prop where
  size_eq : g'.size = g.size
  lt_size_iff : ∀ i, r.nonTerminal i < g.size ↔ i < g.size
  start_eq : g'.start = r.nonTerminal g.start
  arena_size_eq : g'.arena.size = g.arena.size
  get? : ∀ i, g'.arena.get? (r.terminal i) = g.arena.get? i
  productionsOf : ∀ i,
    (g'.productionsOf (r.nonTerminal i)).Perm ((g.productionsOf i).map r.production)

theorem Renumbers.refl (g : Grammar) : Renumbers .refl g g := by
  refine ⟨rfl, fun i => Iff.rfl, rfl, rfl, fun i => rfl, fun i => ?_⟩
  rw [funext Renumbering.production_refl, List.map_id']
  exact List.Perm.refl _

namespace Renumbers

variable {r s : Renumbering} {g g' g'' : Grammar}

theorem trans (h : Renumbers r g g') (h' : Renumbers s g' g'') : Renumbers (r.trans s) g g'' := by
  refine ⟨h'.size_eq.trans h.size_eq, fun i => ?_, ?_, h'.arena_size_eq.trans h.arena_size_eq,
    fun i => (h'.get? _).trans (h.get? i), fun i => ?_⟩
  · have hlt := h'.lt_size_iff (r.nonTerminal i)
    rw [h.size_eq, h.lt_size_iff] at hlt
    exact hlt
  · rw [h'.start_eq, h.start_eq]
    rfl
  · refine (h'.productionsOf _).trans ?_
    have hmap := (h.productionsOf i).map s.production
    have hcomp : s.production ∘ r.production = (r.trans s).production :=
      funext fun p => (Renumbering.production_trans r s p).symm
    rwa [List.map_map, hcomp] at hmap

variable (h : Renumbers r g g')
include h

theorem symm : Renumbers r.symm g' g := by
  refine ⟨h.size_eq.symm, fun i => ?_, ?_, h.arena_size_eq.symm, fun i => ?_, fun i => ?_⟩
  · rw [h.size_eq, ← h.lt_size_iff]
    show r.nonTerminal (r.nonTerminal.symm i) < _ ↔ _
    rw [Equiv.apply_symm_apply]
  · rw [h.start_eq]
    exact (r.nonTerminal.symm_apply_apply _).symm
  · have hget := h.get? (r.terminal.symm i)
    rw [Equiv.apply_symm_apply] at hget
    exact hget.symm
  · have hprods := (h.productionsOf (r.nonTerminal.symm i)).map r.symm.production
    rw [Equiv.apply_symm_apply, List.map_map] at hprods
    have hid : r.symm.production ∘ r.production = id := funext r.production_symm_production
    rw [hid, List.map_id] at hprods
    exact hprods.symm

theorem mem_productionsOf {nt : Nat} {p : Production} (hp : p ∈ g.productionsOf nt) :
    r.production p ∈ g'.productionsOf (r.nonTerminal nt) :=
  (h.productionsOf nt).mem_iff.2 (List.mem_map_of_mem hp)

theorem exists_of_mem_productionsOf {nt : Nat} {p' : Production}
    (hp : p' ∈ g'.productionsOf (r.nonTerminal nt)) :
    ∃ p ∈ g.productionsOf nt, r.production p = p' :=
  List.mem_map.1 ((h.productionsOf nt).mem_iff.1 hp)

/-- The other numbers of all productions. -/
theorem exists_production?_eq : ∃ σ : Nat → Perm Nat, ∀ nt i,
    g'.production? (r.nonTerminal nt) (σ nt i) = (g.production? nt i).map r.production := by
  choose σ hσ using fun nt => exists_perm_getElem? (h.productionsOf nt)
  refine ⟨σ, fun nt i => (hσ nt i).trans ?_⟩
  exact List.getElem?_map

theorem lt_arena_size_iff (i : Nat) : r.terminal i < g.arena.size ↔ i < g.arena.size := by
  have hlt : r.terminal i < g'.arena.size ↔ i < g.arena.size := perm_lt_length_iff h.get? i
  rwa [h.arena_size_eq] at hlt

theorem hasSymbol_iff (x : Symbol) : g'.HasSymbol (r.symbol x) ↔ g.HasSymbol x := by
  cases x with
  | nonTerminal i =>
      show r.nonTerminal i < g'.size ↔ i < g.size
      rw [h.size_eq, h.lt_size_iff]
  | terminal i =>
      show r.terminal i < g'.arena.size ↔ i < g.arena.size
      rw [h.arena_size_eq, h.lt_arena_size_iff]

end Renumbers

end Grammar

end SmallLang
