/-!
# What can be reached

The vertices `0, …, n - 1` of a finite graph that can be reached from one of them, in the order in
which a breadth-first search meets them. Each round takes the next vertex of the queue and appends
its new successors, so the number of vertices not yet met bounds the search
(`Reach.unmet_append_lt`).
-/

set_option autoImplicit false

namespace SmallLang.Reach

/-- The vertices of the list that were not met before, each once. -/
def fresh (n : Nat) (met : List Nat) : List Nat → List Nat
  | [] => []
  | v :: vs =>
      if v < n && !met.contains v then v :: fresh n (v :: met) vs else fresh n met vs

/-- The number of vertices not yet met. -/
def unmet (n : Nat) (met : List Nat) : Nat := (List.range n).countP fun v => !met.contains v

theorem countP_lt_countP {p q : Nat → Bool} {l : List Nat} {x : Nat}
    (hpq : ∀ y, p y = true → q y = true) (hx : x ∈ l) (hq : q x = true) (hp : p x = false) :
    l.countP p < l.countP q := by
  have mono : ∀ l : List Nat, l.countP p ≤ l.countP q := fun l =>
    List.countP_mono_left fun y _ h => hpq y h
  induction l with
  | nil => simp at hx
  | cons y ys ih =>
      simp only [List.countP_cons]
      rcases List.mem_cons.1 hx with rfl | h
      · have := mono ys
        simp only [hq, hp, if_true]
        simp only [Bool.false_eq_true, if_false]
        omega
      · have := ih h
        by_cases hy : p y = true
        · simp only [hy, hpq y hy, if_true]
          omega
        · simp only [if_neg hy]
          omega

theorem fresh_not_mem {n : Nat} {met vs : List Nat} {v : Nat} (h : v ∈ fresh n met vs) :
    v < n ∧ v ∉ met := by
  induction vs generalizing met with
  | nil => simp [fresh] at h
  | cons w ws ih =>
      rw [fresh] at h
      split at h
      · rename_i hw
        simp only [Bool.and_eq_true, decide_eq_true_eq, Bool.not_eq_true',
          List.contains_eq_mem, decide_eq_false_iff_not] at hw
        rcases List.mem_cons.1 h with rfl | h
        · exact hw
        · have := ih h
          exact ⟨this.1, fun hm => this.2 (List.mem_cons_of_mem _ hm)⟩
      · exact ih h

/-- New vertices leave fewer that are not met. -/
theorem unmet_append_lt {n : Nat} {met vs : List Nat} (h : fresh n met vs ≠ []) :
    unmet n (met ++ fresh n met vs) < unmet n met := by
  obtain ⟨v, hv⟩ := List.exists_mem_of_ne_nil _ h
  have hmem := fresh_not_mem hv
  apply countP_lt_countP (x := v)
  · intro y hy
    simp only [List.contains_eq_mem, List.mem_append, Bool.not_eq_true',
      decide_eq_false_iff_not, not_or] at hy ⊢
    exact hy.1
  · exact List.mem_range.2 hmem.1
  · simpa using hmem.2
  · simp [hv]

/-- One more vertex leaves fewer that are not met. -/
theorem unmet_cons_lt {n : Nat} {met : List Nat} {v : Nat} (hn : v < n) (hv : v ∉ met) :
    unmet n (v :: met) < unmet n met := by
  apply countP_lt_countP (x := v)
  · intro y hy
    simp only [List.contains_eq_mem, List.mem_cons, Bool.not_eq_true',
      decide_eq_false_iff_not, not_or] at hy ⊢
    exact hy.2
  · exact List.mem_range.2 hn
  · simpa using hv
  · simp

/-- Continues the search: `met` are all vertices met so far, in order, and `queue` those whose
successors were not looked at yet. -/
def search (n : Nat) (next : Nat → List Nat) (met : List Nat) : List Nat → List Nat
  | [] => met
  | v :: queue =>
      let new := fresh n met (next v)
      search n next (met ++ new) (queue ++ new)
termination_by queue => (unmet n met, queue.length)
decreasing_by
  by_cases h : fresh n met (next v) = []
  · rw [h]
    simp only [List.append_nil, List.length_cons]
    exact Prod.Lex.right _ (Nat.lt_succ_self _)
  · exact Prod.Lex.left _ _ (unmet_append_lt h)

/-- The vertices that can be reached from `v`, `v` first. -/
def reachable (n : Nat) (next : Nat → List Nat) (v : Nat) : List Nat := search n next [v] [v]

end SmallLang.Reach
