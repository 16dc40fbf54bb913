import Mathlib.Data.List.Nodup
import Mathlib.Logic.Relation
import SmallLang.Reach

/-!
# What a breadth-first search meets

`Reach.reachable n next v` lists exactly the vertices that a path of edges leads to from `v`, each
once (`Reach.mem_reachable_iff`, `Reach.nodup_reachable`). While the search runs, every vertex met is
on such a path, and the successors of a vertex that left the queue are met (`Reach.Progress`).
-/

set_option autoImplicit false

namespace SmallLang.Reach

/-- There is an edge between two vertices of the graph. -/
def Edge (n : Nat) (next : Nat → List Nat) (v w : Nat) : Prop := w ∈ next v ∧ w < n

/-- A path of edges leads from one vertex to another one. -/
abbrev Path (n : Nat) (next : Nat → List Nat) : Nat → Nat → Prop :=
  Relation.ReflTransGen (Edge n next)

variable {n : Nat} {next : Nat → List Nat}

theorem mem_fresh_iff {met vs : List Nat} {w : Nat} :
    w ∈ fresh n met vs ↔ w ∈ vs ∧ w < n ∧ w ∉ met := by
  constructor
  · intro h
    refine ⟨?_, fresh_not_mem h⟩
    induction vs generalizing met with
    | nil => simp [fresh] at h
    | cons v vs ih =>
        rw [fresh] at h
        split at h
        · rcases List.mem_cons.1 h with rfl | h
          · exact List.mem_cons_self
          · exact List.mem_cons_of_mem _ (ih h)
        · exact List.mem_cons_of_mem _ (ih h)
  · rintro ⟨hmem, hlt, hmet⟩
    induction vs generalizing met with
    | nil => simp at hmem
    | cons v vs ih =>
        rw [fresh]
        by_cases hv : w = v
        · subst hv
          simp [hlt, hmet]
        · have hvs : w ∈ vs := (List.mem_cons.1 hmem).resolve_left hv
          split
          · exact List.mem_cons_of_mem _ (ih hvs (by simp [hv, hmet]))
          · exact ih hvs hmet

theorem nodup_fresh (met vs : List Nat) : (fresh n met vs).Nodup := by
  induction vs generalizing met with
  | nil => simp [fresh]
  | cons v vs ih =>
      rw [fresh]
      split
      · refine List.nodup_cons.2 ⟨fun h => ?_, ih _⟩
        exact (mem_fresh_iff.1 h).2.2 List.mem_cons_self
      · exact ih met

/-- What holds while the search from `v` runs. -/
structure Progress (n : Nat) (next : Nat → List Nat) (v : Nat) (met queue : List Nat) : Prop where
  nodup : met.Nodup
  start : v ∈ met
  sound : ∀ w ∈ met, Path n next v w
  queued : ∀ w ∈ queue, w ∈ met
  closed : ∀ w ∈ met, w ∉ queue → ∀ x, Edge n next w x → x ∈ met

/-- Taking a vertex from the queue and adding its new successors keeps this. -/
theorem Progress.step {v w : Nat} {met queue : List Nat}
    (h : Progress n next v met (w :: queue)) :
    Progress n next v (met ++ fresh n met (next w)) (queue ++ fresh n met (next w)) := by
  have hw : w ∈ met := h.queued w List.mem_cons_self
  refine ⟨?_, List.mem_append_left _ h.start, ?_, ?_, ?_⟩
  · refine h.nodup.append (nodup_fresh _ _) ?_
    intro x hx hfresh
    exact (mem_fresh_iff.1 hfresh).2.2 hx
  · intro x hx
    rcases List.mem_append.1 hx with hx | hx
    · exact h.sound x hx
    · obtain ⟨hnext, hlt, -⟩ := mem_fresh_iff.1 hx
      exact (h.sound w hw).tail ⟨hnext, hlt⟩
  · intro x hx
    rcases List.mem_append.1 hx with hx | hx
    · exact List.mem_append_left _ (h.queued x (List.mem_cons_of_mem _ hx))
    · exact List.mem_append_right _ hx
  · intro x hx hqueue y hy
    rw [List.mem_append, not_or] at hqueue
    by_cases hmet : y ∈ met
    · exact List.mem_append_left _ hmet
    rcases List.mem_append.1 hx with hx | hx
    · -- The successors of `x` are met, unless `x` is the vertex that is being looked at.
      by_cases hxw : x = w
      · subst hxw
        exact List.mem_append_right _ (mem_fresh_iff.2 ⟨hy.1, hy.2, hmet⟩)
      · exact List.mem_append_left _ (h.closed x hx (by simp [hxw, hqueue.1]) y hy)
    · exact absurd hx hqueue.2

theorem Progress.search {v : Nat} {met queue : List Nat} (h : Progress n next v met queue) :
    Progress n next v (search n next met queue) [] := by
  fun_induction Reach.search n next met queue with
  | case1 met => exact h
  | case2 met w queue new ih => exact ih h.step

theorem progress_reachable (n : Nat) (next : Nat → List Nat) (v : Nat) :
    Progress n next v (reachable n next v) [] := by
  refine Progress.search ⟨List.nodup_singleton v, List.mem_cons_self, ?_, ?_, ?_⟩
  · intro w hw
    rw [List.mem_singleton.1 hw]
  · intro w hw
    exact hw
  · intro w hw hqueue
    exact absurd hw hqueue

/-- The search meets exactly what paths lead to. -/
theorem mem_reachable_iff {v w : Nat} : w ∈ reachable n next v ↔ Path n next v w := by
  constructor
  · exact (progress_reachable n next v).sound w
  · intro h
    induction h with
    | refl => exact (progress_reachable n next v).start
    | tail _ hedge ih =>
        exact (progress_reachable n next v).closed _ ih List.not_mem_nil _ hedge

theorem nodup_reachable (n : Nat) (next : Nat → List Nat) (v : Nat) :
    (reachable n next v).Nodup :=
  (progress_reachable n next v).nodup

/-! ## Another graph with the same edges -/

section Congr

variable {m : Nat} {next' : Nat → List Nat}

theorem fresh_congr {met vs : List Nat} (h : ∀ v ∈ vs, v < m ↔ v < n) :
    fresh m met vs = fresh n met vs := by
  induction vs generalizing met with
  | nil => rfl
  | cons v vs ih =>
      have hlt : decide (v < m) = decide (v < n) := decide_eq_decide.2 (h v List.mem_cons_self)
      rw [fresh, fresh, hlt]
      split <;> rw [ih fun w hw => h w (List.mem_cons_of_mem _ hw)]

/-- The search depends only on the edges from what it meets. -/
theorem reachable_congr {v : Nat} (hnext : ∀ w ∈ reachable n next v, next' w = next w)
    (hlt : ∀ w ∈ reachable n next v, ∀ x ∈ next w, x < m ↔ x < n) :
    reachable m next' v = reachable n next v := by
  have hsearch : ∀ met queue, (∀ w ∈ queue, w ∈ reachable n next v) →
      search m next' met queue = search n next met queue := by
    intro met queue hqueue
    fun_induction Reach.search n next met queue with
    | case1 met => rw [search]
    | case2 met w queue new ih =>
        have hw := hqueue w List.mem_cons_self
        have hfresh : fresh m met (next' w) = new := by
          rw [hnext w hw, fresh_congr (hlt w hw)]
        rw [search, hfresh]
        refine ih fun x hx => ?_
        rcases List.mem_append.1 hx with hx | hx
        · exact hqueue x (List.mem_cons_of_mem _ hx)
        · obtain ⟨hmem, hxn, -⟩ := mem_fresh_iff.1 hx
          exact mem_reachable_iff.2 ((mem_reachable_iff.1 hw).tail ⟨hmem, hxn⟩)
  refine hsearch [v] [v] fun w hw => ?_
  rw [List.mem_singleton.1 hw]
  exact mem_reachable_iff.2 .refl

end Congr

end SmallLang.Reach
