import Mathlib.Logic.Function.Basic
import SmallLang.Proofs.Lookahead.FirstExact
import SmallLang.Proofs.Lookahead.LeftRecursion

/-!
# The check for left recursion is exact

A grammar is refused exactly if some non-terminal derives, by one replacement or more, a form that begins
with itself, and the error names such a non-terminal (`Grammar.checkLeftRecursion_exact`). For a form to
begin with a non-terminal, there must be a path to it along non-terminals that come first in productions
after parts that can be empty, and such a path gives a derivation (`Grammar.SymbolsExist.path_iff_derives`).

Where the search meets a vertex that it has not left yet, the way it has come leads from this vertex back
to it (`path_self_of_depthFirst`). The search can as well keep a stack of its own, with the number of the
next successor for each vertex on it, and mark the vertices as it enters and leaves them (`Walk`). The
walk ends, and finds the same (`Walk.ends_iff`).
-/

set_option autoImplicit false

namespace SmallLang

/-! ## What the search finds is on a cycle -/

section Search

variable {n : Nat} {next : Nat → List Nat}

/-- A vertex that the search stops at has a path back to itself, if the vertices that it has entered and
not left have paths to those that it is about to visit. -/
theorem path_self_of_depthFirst (hlt : ∀ v, ∀ w ∈ next v, w < n) {active done vs : List Nat}
    (hactive : ∀ a ∈ active, ∀ v ∈ vs, Relation.TransGen (Reach.Edge n next) a v) {w : Nat}
    (h : depthFirst n next active done vs = .error w) :
    Relation.TransGen (Reach.Edge n next) w w := by
  fun_induction depthFirst n next active done vs with
  | case1 active done => exact absurd h (by simp)
  | case2 active done v vs hmem =>
      obtain rfl := Except.error.inj h
      exact hactive v hmem v List.mem_cons_self
  | case3 active done v vs _ _ ih =>
      exact ih (fun a ha x hx => hactive a ha x (List.mem_cons_of_mem _ hx)) h
  | case4 active done v vs _ _ w' herror ih =>
      obtain rfl := Except.error.inj h
      -- The way leads through the vertex that was entered last.
      apply ih _ herror
      intro a ha x hx
      have hedge : Reach.Edge n next v x := ⟨hx, hlt v x hx⟩
      rcases List.mem_cons.1 ha with rfl | ha
      · exact .single hedge
      · exact (hactive a ha v List.mem_cons_self).tail hedge
  | case5 active done v vs _ _ done' _ _ ih =>
      exact ih (fun a ha x hx => hactive a ha x (List.mem_cons_of_mem _ hx)) h

theorem subset_of_depthFirst {active done vs done' : List Nat}
    (h : depthFirst n next active done vs = .ok done') {v : Nat} (hv : v ∈ done) : v ∈ done' := by
  fun_induction depthFirst n next active done vs generalizing done' with
  | case1 active done => exact Except.ok.inj h ▸ hv
  | case2 active done w vs _ => exact absurd h (by simp)
  | case3 active done w vs _ _ ih => exact ih h hv
  | case4 active done w vs _ _ x herror ih => exact absurd h (by simp)
  | case5 active done w vs _ _ done₁ hok ihnext ih =>
      apply ih h
      exact List.mem_cons_of_mem _ (ihnext hok hv)

theorem fresh_cons_of_new {met vs : List Nat} {v : Nat} (hlt : v < n) (hnew : v ∉ met) :
    Reach.fresh n met (v :: vs) = v :: Reach.fresh n (v :: met) vs := by
  rw [Reach.fresh, if_pos (by simp [hlt, hnew])]

theorem fresh_cons_of_met {met vs : List Nat} {v : Nat} (h : n ≤ v ∨ v ∈ met) :
    Reach.fresh n met (v :: vs) = Reach.fresh n met vs := by
  rw [Reach.fresh, if_neg]
  rcases h with hle | hmem
  · simp [Nat.not_lt.2 hle]
  · simp [hmem]

/-- A list of different vertices that were not met before is new as a whole. -/
theorem fresh_eq_self {met vs : List Nat} (hnodup : vs.Nodup) (h : ∀ v ∈ vs, v < n ∧ v ∉ met) :
    Reach.fresh n met vs = vs := by
  induction vs generalizing met with
  | nil => rw [Reach.fresh]
  | cons v vs ih =>
      obtain ⟨hv, hnodup⟩ := List.nodup_cons.1 hnodup
      obtain ⟨hfirst, hrest⟩ := List.forall_mem_cons.1 h
      rw [fresh_cons_of_new hfirst.1 hfirst.2, ih hnodup]
      intro w hw
      refine ⟨(hrest w hw).1, ?_⟩
      rw [List.mem_cons, not_or]
      exact ⟨fun heq => hv (heq ▸ hw), (hrest w hw).2⟩

/-- Successors that were listed before make no difference to the search: it has left them already. -/
theorem depthFirst_fresh {active done vs listed : List Nat}
    (hlisted : ∀ v ∈ listed, v ∈ done ∧ v ∉ active) (hactive : ∀ a ∈ active, a < n) :
    depthFirst n (fun v => Reach.fresh n [] (next v)) active done (Reach.fresh n listed vs) =
      depthFirst n next active done vs := by
  fun_induction depthFirst n next active done vs generalizing listed with
  | case1 active done => rw [Reach.fresh, depthFirst]
  | case2 active done v vs hmem =>
      have hnew : v ∉ listed := fun h => (hlisted v h).2 hmem
      rw [fresh_cons_of_new (hactive v hmem) hnew, depthFirst, if_pos hmem]
  | case3 active done v vs hactive' hskip ih =>
      by_cases hmet : n ≤ v ∨ v ∈ listed
      · rw [fresh_cons_of_met hmet]
        exact ih hlisted hactive
      · rw [not_or, Nat.not_le] at hmet
        have hdone : v ∈ done := hskip.resolve_right (Nat.not_le.2 hmet.1)
        rw [fresh_cons_of_new hmet.1 hmet.2, depthFirst, if_neg hactive', if_pos hskip]
        apply ih _ hactive
        intro w hw
        rcases List.mem_cons.1 hw with rfl | hw
        · exact ⟨hdone, hactive'⟩
        · exact hlisted w hw
  | case4 active done v vs hactive' hskip w herror ih =>
      rw [not_or, Nat.not_le] at hskip
      have hnew : v ∉ listed := fun h => hskip.1 (hlisted v h).1
      have hinner := @ih [] (fun _ h => absurd h List.not_mem_nil)
        (List.forall_mem_cons.2 ⟨hskip.2, hactive⟩)
      rw [fresh_cons_of_new hskip.2 hnew, depthFirst, if_neg hactive',
        if_neg (by simp [hskip.1, hskip.2]), hinner, herror]
  | case5 active done v vs hactive' hskip done₁ hok ihnext ih =>
      rw [not_or, Nat.not_le] at hskip
      have hnew : v ∉ listed := fun h => hskip.1 (hlisted v h).1
      have hinner := @ihnext [] (fun _ h => absurd h List.not_mem_nil)
        (List.forall_mem_cons.2 ⟨hskip.2, hactive⟩)
      rw [fresh_cons_of_new hskip.2 hnew, depthFirst, if_neg hactive',
        if_neg (by simp [hskip.1, hskip.2]), hinner, hok]
      -- The vertex is left before its siblings are visited.
      apply ih _ hactive
      intro w hw
      rcases List.mem_cons.1 hw with rfl | hw
      · exact ⟨List.mem_cons_self, hactive'⟩
      · exact ⟨List.mem_cons_of_mem _ (subset_of_depthFirst hok (hlisted w hw).1), (hlisted w hw).2⟩

end Search

/-! ## The walk with a stack -/

/-- How far the walk has come with a vertex. -/
inductive Visit where
  | new
  | active
  | done
  deriving DecidableEq, Repr

/-- The marks of the vertices, the vertices entered and not left, the last one first and each with the
number of its next successor, and the vertices from which the walk still has to begin. -/
structure Walk where
  visits : Nat → Visit
  stack : List (Nat × Nat)
  roots : List Nat

namespace Walk

/-- What a step leads to: another state, or the end, with a vertex to which the walk came back. -/
inductive Outcome where
  | running (w : Walk)
  | finished
  | failed (v : Nat)

/-- One step: to the next successor of the last vertex, back from it, or to the next root. -/
def step (next : Nat → List Nat) : Walk → Outcome
  | ⟨_, [], []⟩ => .finished
  | ⟨visits, [], root :: roots⟩ =>
      if visits root = .new then .running ⟨Function.update visits root .active, [(root, 0)], roots⟩
      else .running ⟨visits, [], roots⟩
  | ⟨visits, (v, i) :: stack, roots⟩ =>
      match (next v)[i]? with
      | none => .running ⟨Function.update visits v .done, stack, roots⟩
      | some w =>
          match visits w with
          | .active => .failed w
          | .new =>
              .running ⟨Function.update visits w .active, (w, 0) :: (v, i + 1) :: stack, roots⟩
          | .done => .running ⟨visits, (v, i + 1) :: stack, roots⟩

/-- The walk ends, with the vertex to which it came back if there is one. -/
inductive Ends (next : Nat → List Nat) : Walk → Option Nat → Prop
  | finished {w : Walk} (h : w.step next = .finished) : Ends next w none
  | failed {w : Walk} {v : Nat} (h : w.step next = .failed v) : Ends next w (some v)
  | running {w w' : Walk} {o : Option Nat} (h : w.step next = .running w') (hrest : Ends next w' o) :
      Ends next w o

/-- Before the first step. -/
def start (n : Nat) : Walk := ⟨fun _ => .new, [], List.range n⟩

variable {n : Nat} {next : Nat → List Nat}

theorem Ends.unique {w : Walk} {o o' : Option Nat} (h : Ends next w o) (h' : Ends next w o') :
    o = o' := by
  induction h with
  | finished hstep =>
      cases h' with
      | finished _ => rfl
      | failed hstep' => exact absurd (hstep.symm.trans hstep') (by simp)
      | running hstep' _ => exact absurd (hstep.symm.trans hstep') (by simp)
  | failed hstep =>
      cases h' with
      | finished hstep' => exact absurd (hstep.symm.trans hstep') (by simp)
      | failed hstep' => exact congrArg some (Outcome.failed.inj (hstep.symm.trans hstep'))
      | running hstep' _ => exact absurd (hstep.symm.trans hstep') (by simp)
  | running hstep _ ih =>
      cases h' with
      | finished hstep' => exact absurd (hstep.symm.trans hstep') (by simp)
      | failed hstep' => exact absurd (hstep.symm.trans hstep') (by simp)
      | running hstep' hrest =>
          obtain rfl := Outcome.running.inj (hstep.symm.trans hstep')
          exact ih hrest

/-- The marks where the search has entered some vertices and left others. -/
def marks (active done : List Nat) (v : Nat) : Visit :=
  if v ∈ active then .active else if v ∈ done then .done else .new

theorem marks_enter (active done : List Nat) (v : Nat) :
    Function.update (marks active done) v .active = marks (v :: active) done := by
  funext w
  unfold marks
  by_cases hw : w = v
  · simp [hw]
  · simp [hw]

theorem marks_leave {active : List Nat} {v : Nat} (hv : v ∉ active) (done : List Nat) :
    Function.update (marks (v :: active) done) v .done = marks active (v :: done) := by
  funext w
  unfold marks
  by_cases hw : w = v
  · simp [hw, hv]
  · simp [hw]

/-- A successor that is new goes onto the stack. -/
theorem step_enter {active done : List Nat} {v i x : Nat} (hx : (next v)[i]? = some x)
    (hactive : x ∉ active) (hdone : x ∉ done) (stack : List (Nat × Nat)) (roots : List Nat) :
    step next ⟨marks active done, (v, i) :: stack, roots⟩ =
      .running ⟨marks (x :: active) done, (x, 0) :: (v, i + 1) :: stack, roots⟩ := by
  simp [step, hx, marks, hactive, hdone, ← marks_enter]

/-- The next successor is the first one of those that are left. -/
theorem getElem?_of_cons_eq_drop {v i x : Nat} {xs : List Nat} (h : x :: xs = (next v).drop i) :
    (next v)[i]? = some x ∧ xs = (next v).drop (i + 1) := by
  constructor
  · rw [← Nat.add_zero i, ← List.getElem?_drop, ← h]
    rfl
  · rw [← List.tail_drop, ← h]
    rfl

/-- The walk does with the further successors of the last vertex what the search does with them: it ends
where the search stops, and otherwise goes on from leaving the vertex. -/
theorem ends_of_depthFirst (hlt : ∀ v, ∀ w ∈ next v, w < n) (active done : List Nat) {vs : List Nat}
    {v i : Nat} (hvs : vs = (next v).drop i) (stack : List (Nat × Nat)) (roots : List Nat) :
    (∀ w, depthFirst n next active done vs = .error w →
      Ends next ⟨marks active done, (v, i) :: stack, roots⟩ (some w)) ∧
    ∀ done' o, depthFirst n next active done vs = .ok done' →
      Ends next ⟨Function.update (marks active done') v .done, stack, roots⟩ o →
        Ends next ⟨marks active done, (v, i) :: stack, roots⟩ o := by
  -- On the list of successors, with any stack below: the search of a vertex inside another one is the
  -- walk with this one on the stack.
  fun_induction depthFirst n next active done vs generalizing v i stack with
  | case1 active done =>
      have hnone : (next v)[i]? = none := by
        rw [← Nat.add_zero i, ← List.getElem?_drop, ← hvs]
        rfl
      refine ⟨fun w h => absurd h (by simp), fun done' o h hends => ?_⟩
      obtain rfl := Except.ok.inj h
      exact .running (by simp [step, hnone]) hends
  | case2 active done x xs hmem =>
      obtain ⟨hx, -⟩ := getElem?_of_cons_eq_drop hvs
      refine ⟨fun w h => ?_, fun done' o h _ => absurd h (by simp)⟩
      obtain rfl := Except.error.inj h
      exact .failed (by simp [step, hx, marks, hmem])
  | case3 active done x xs hactive hskip ih =>
      obtain ⟨hx, hxs⟩ := getElem?_of_cons_eq_drop hvs
      -- All successors are vertices, so the search skips only those that it has left.
      have hdone : x ∈ done :=
        hskip.resolve_right (Nat.not_le.2 (hlt v x (List.mem_of_getElem? hx)))
      have hstep : step next ⟨marks active done, (v, i) :: stack, roots⟩ =
          .running ⟨marks active done, (v, i + 1) :: stack, roots⟩ := by
        simp [step, hx, marks, hactive, hdone]
      obtain ⟨herror, hok⟩ := ih hxs stack
      exact ⟨fun w h => .running hstep (herror w h),
        fun done' o h hends => .running hstep (hok done' o h hends)⟩
  | case4 active done x xs hactive hskip w herror ih =>
      obtain ⟨hx, hxs⟩ := getElem?_of_cons_eq_drop hvs
      rw [not_or] at hskip
      have hstep := step_enter hx hactive hskip.1 stack roots
      refine ⟨fun w' h => ?_, fun done' o h _ => absurd h (by simp)⟩
      obtain rfl := Except.error.inj h
      exact .running hstep ((ih List.drop_zero.symm _).1 w herror)
  | case5 active done x xs hactive hskip done₁ hinner ihnext ih =>
      obtain ⟨hx, hxs⟩ := getElem?_of_cons_eq_drop hvs
      rw [not_or] at hskip
      have hstep := step_enter hx hactive hskip.1 stack roots
      -- The vertex is entered, and left when its own successors have been visited.
      have hleft : ∀ o, Ends next ⟨marks active (x :: done₁), (v, i + 1) :: stack, roots⟩ o →
          Ends next ⟨marks active done, (v, i) :: stack, roots⟩ o := by
        intro o hends
        rw [← marks_leave hactive] at hends
        exact .running hstep ((ihnext List.drop_zero.symm _).2 done₁ o hinner hends)
      obtain ⟨herror, hok⟩ := ih hxs stack
      exact ⟨fun w h => hleft _ (herror w h), fun done' o h hends => hleft _ (hok done' o h hends)⟩

/-- The walk does with the roots what the search does with a list of vertices. -/
theorem ends_of_roots (hlt : ∀ v, ∀ w ∈ next v, w < n) (done : List Nat) {roots : List Nat}
    (hroots : ∀ v ∈ roots, v < n) :
    (∀ w, depthFirst n next [] done roots = .error w →
      Ends next ⟨marks [] done, [], roots⟩ (some w)) ∧
    ∀ done', depthFirst n next [] done roots = .ok done' →
      Ends next ⟨marks [] done, [], roots⟩ none := by
  induction roots generalizing done with
  | nil =>
      refine ⟨fun w h => ?_, fun done' _ => .finished rfl⟩
      rw [depthFirst] at h
      exact absurd h (by simp)
  | cons root roots ih =>
      obtain ⟨hroot, hroots⟩ := List.forall_mem_cons.1 hroots
      rw [depthFirst, if_neg List.not_mem_nil]
      by_cases hdone : root ∈ done
      · -- An earlier root has led here: both go on with the next one.
        have hstep : step next ⟨marks [] done, [], root :: roots⟩ =
            .running ⟨marks [] done, [], roots⟩ := by
          simp [step, marks, hdone]
        obtain ⟨herror, hok⟩ := ih done hroots
        rw [if_pos (Or.inl hdone)]
        exact ⟨fun w h => .running hstep (herror w h), fun done' h => .running hstep (hok done' h)⟩
      · -- The root goes onto the empty stack, and the stack is empty again when it is done.
        have hstep : step next ⟨marks [] done, [], root :: roots⟩ =
            .running ⟨marks [root] done, [(root, 0)], roots⟩ := by
          simp [step, marks, hdone, ← marks_enter]
        obtain ⟨herror, hok⟩ := ends_of_depthFirst hlt [root] done
          (List.drop_zero (l := next root)).symm [] roots
        rw [if_neg (by simp [hdone, hroot])]
        cases hinner : depthFirst n next [root] done (next root) with
        | error w =>
            refine ⟨fun w' h => ?_, fun done' h => absurd h (by simp)⟩
            obtain rfl := Except.error.inj h
            exact .running hstep (herror w hinner)
        | ok done₁ =>
            have hleft : ∀ o, Ends next ⟨marks [] (root :: done₁), [], roots⟩ o →
                Ends next ⟨marks [] done, [], root :: roots⟩ o := by
              intro o hends
              rw [← marks_leave List.not_mem_nil] at hends
              exact .running hstep (hok done₁ o hinner hends)
            obtain ⟨herror', hok'⟩ := ih (root :: done₁) hroots
            exact ⟨fun w h => hleft _ (herror' w h), fun done' h => hleft _ (hok' done' h)⟩

/-- The walk over the successors, each listed once, ends with what the search finds. -/
theorem ends_iff {o : Option Nat} :
    Ends (fun v => Reach.fresh n [] (next v)) (start n) o ↔
      o = match depthFirst n next [] [] (List.range n) with
        | .error v => some v
        | .ok _ => none := by
  have hlt : ∀ v, ∀ w ∈ Reach.fresh n [] (next v), w < n := by
    intro v w hw
    exact (Reach.mem_fresh_iff.1 hw).2.1
  have hsearch : depthFirst n (fun v => Reach.fresh n [] (next v)) [] [] (List.range n) =
      depthFirst n next [] [] (List.range n) := by
    have hrange : Reach.fresh n [] (List.range n) = List.range n :=
      fresh_eq_self List.nodup_range fun v hv => ⟨List.mem_range.1 hv, List.not_mem_nil⟩
    conv_lhs => rw [← hrange]
    apply depthFirst_fresh
    · exact fun v hv => absurd hv List.not_mem_nil
    · exact fun v hv => absurd hv List.not_mem_nil
  obtain ⟨herror, hok⟩ := ends_of_roots hlt [] fun v hv => List.mem_range.1 hv
  rw [hsearch] at herror hok
  -- The walk ends in one way only.
  have hiff : ∀ {o'}, Ends (fun v => Reach.fresh n [] (next v)) (start n) o' →
      (Ends (fun v => Reach.fresh n [] (next v)) (start n) o ↔ o = o') := by
    intro o' hends
    constructor
    · intro h
      exact h.unique hends
    · rintro rfl
      exact hends
  cases hresult : depthFirst n next [] [] (List.range n) with
  | error w => exact hiff (herror w hresult)
  | ok done => exact hiff (hok done hresult)

end Walk

/-! ## Paths along first non-terminals, and derivations -/

section LeftCorners

variable {n : Nat} {first : FirstTable n} {i : Nat}

/-- What comes first in two rows comes first in the first one, or in the second one if the first one can
be empty. -/
theorem mem_leftCorners_append {u v : List Symbol} :
    i ∈ leftCorners first (u ++ v) ↔
      i ∈ leftCorners first u ∨ (first.ofSymbols u).empty = true ∧ i ∈ leftCorners first v := by
  induction u with
  | nil => simp [leftCorners, FirstTable.ofSymbols, FirstSet.onlyEmpty]
  | cons s u ih =>
      cases s with
      | terminal t =>
          simp [leftCorners, FirstTable.ofSymbols, FirstTable.ofSymbol, FirstSet.empty_followedBy,
            FirstSet.single]
      | nonTerminal j =>
          rw [List.cons_append, leftCorners, leftCorners, FirstTable.ofSymbols,
            FirstSet.empty_followedBy]
          cases hj : first.nullable j with
          | false =>
              have hempty : (first.ofSymbol (.nonTerminal j)).empty = false := hj
              simp [hempty]
          | true =>
              have hempty : (first.ofSymbol (.nonTerminal j)).empty = true := hj
              simp [hempty, ih, or_assoc]

theorem mem_leftCorners_cons (j : Nat) (v : List Symbol) :
    i ∈ leftCorners first (.nonTerminal j :: v) ↔
      i = j ∨ first.nullable j = true ∧ i ∈ leftCorners first v := by
  rw [leftCorners, List.mem_cons]
  cases first.nullable j <;> simp

/-- A non-terminal that comes first stands after a part that can be empty. -/
theorem exists_append_of_mem_leftCorners {u : List Symbol} (h : i ∈ leftCorners first u) :
    ∃ x y, u = x ++ .nonTerminal i :: y ∧ (first.ofSymbols x).empty = true := by
  induction u with
  | nil => exact absurd h List.not_mem_nil
  | cons s u ih =>
      cases s with
      | terminal t => exact absurd h List.not_mem_nil
      | nonTerminal j =>
          rcases (mem_leftCorners_cons j u).1 h with rfl | ⟨hj, h⟩
          · exact ⟨[], u, rfl, rfl⟩
          · obtain ⟨x, y, rfl, hx⟩ := ih h
            refine ⟨.nonTerminal j :: x, y, rfl, ?_⟩
            rw [FirstTable.ofSymbols, FirstSet.empty_followedBy, hx, Bool.and_true]
            exact hj

end LeftCorners

namespace Grammar

variable {g : Grammar}

/-- There is an edge from a non-terminal to one that comes first in one of its productions. -/
theorem edge_of_production (hg : g.SymbolsExist) {nt p i : Nat} {production : Production}
    (hp : g.production? nt p = some production)
    (hi : i ∈ leftCorners g.firstTable production.symbols) :
    Reach.Edge g.size (g.leftCornersOf g.firstTable) nt i := by
  have hmem : i ∈ g.leftCornersOf g.firstTable nt :=
    List.mem_flatMap.2 ⟨production, List.mem_of_getElem? hp, hi⟩
  exact ⟨hmem, hg.lt_of_mem_leftCornersOf hmem⟩

/-- An edge is a derivation: what stands before the non-terminal derives nothing. -/
theorem SymbolsExist.derives_of_edge (hg : g.SymbolsExist) {nt i : Nat}
    (h : Reach.Edge g.size (g.leftCornersOf g.firstTable) nt i) :
    ∃ rest, g.DerivesProperly [.nonTerminal nt] (.nonTerminal i :: rest) := by
  obtain ⟨production, hmem, hi⟩ := List.mem_flatMap.1 h.1
  obtain ⟨p, hp⟩ := List.mem_iff_getElem?.1 hmem
  obtain ⟨x, y, hsymbols, hempty⟩ := exists_append_of_mem_leftCorners hi
  have hexist := hg.of_production hp
  rw [hsymbols, List.forall_mem_append] at hexist
  have hx : g.DerivesForm x [] := (g.least_firstTable.isFirstOf hg hexist.1).empty.1 hempty
  have hstep := produces_production hp
  rw [hsymbols] at hstep
  exact ⟨y, .head' hstep (DerivesForm.append_nil hx .refl)⟩

/-- A path is a derivation by one replacement or more. -/
theorem SymbolsExist.derives_of_path (hg : g.SymbolsExist) {nt i : Nat}
    (h : Relation.TransGen (Reach.Edge g.size (g.leftCornersOf g.firstTable)) nt i) :
    ∃ rest, g.DerivesProperly [.nonTerminal nt] (.nonTerminal i :: rest) := by
  induction h with
  | single hedge => exact hg.derives_of_edge hedge
  | tail _ hedge ih =>
      obtain ⟨rest, hrest⟩ := ih
      obtain ⟨rest', hrest'⟩ := hg.derives_of_edge hedge
      have hinside : g.DerivesForm (.nonTerminal _ :: rest) (.nonTerminal _ :: rest' ++ rest) :=
        DerivesForm.append hrest'.to_reflTransGen (.refl (a := rest))
      exact ⟨rest' ++ rest, hrest.trans_left hinside⟩

/-- If a form derives one that begins with a non-terminal, there is a path to it from a non-terminal that
comes first in the form. -/
theorem SymbolsExist.exists_path_of_derives (hg : g.SymbolsExist) {u : List Symbol} {i : Nat}
    {rest : List Symbol} (h : g.DerivesForm u (.nonTerminal i :: rest)) :
    ∃ j ∈ leftCorners g.firstTable u, Reach.Path g.size (g.leftCornersOf g.firstTable) j i := by
  -- By the first replacement: a non-terminal that comes first after it did so before it, or stands in
  -- the production.
  induction h using Relation.ReflTransGen.head_induction_on with
  | refl => exact ⟨i, (mem_leftCorners_cons i rest).2 (Or.inl rfl), .refl⟩
  | head hstep _ ih =>
      obtain ⟨j, hj, hpath⟩ := ih
      cases hstep with
      | @replace before after nt p production hp =>
          simp only [mem_leftCorners_append, mem_leftCorners_cons] at hj ⊢
          rcases hj with hj | ⟨hbefore, hj | ⟨hsymbols, hj⟩⟩
          · exact ⟨j, Or.inl hj, hpath⟩
          · exact ⟨nt, Or.inr ⟨hbefore, Or.inl rfl⟩, .head (edge_of_production hg hp hj) hpath⟩
          · have hnull : g.firstTable.nullable nt = true :=
              (FirstSet.includes_iff.1 (g.least_firstTable.closed nt p production hp)).1 hsymbols
            exact ⟨j, Or.inr ⟨hbefore, Or.inr ⟨hnull, hj⟩⟩, hpath⟩

/-- There is a path from a non-terminal to another one exactly if it derives a form that begins with this
one. -/
theorem SymbolsExist.path_iff_derives (hg : g.SymbolsExist) {nt i : Nat} :
    Relation.TransGen (Reach.Edge g.size (g.leftCornersOf g.firstTable)) nt i ↔
      ∃ rest, g.DerivesProperly [.nonTerminal nt] (.nonTerminal i :: rest) := by
  constructor
  · exact hg.derives_of_path
  · rintro ⟨rest, h⟩
    obtain ⟨u, hstep, hrest⟩ := Relation.TransGen.head'_iff.1 h
    obtain ⟨p, production, hp, rfl⟩ := exists_production_of_produces hstep
    obtain ⟨j, hj, hpath⟩ := hg.exists_path_of_derives hrest
    exact .head' (edge_of_production hg hp hj) hpath

/-! ## The check -/

/-- The check for left recursion is exact, for every grammar whose symbols exist. The grammar passes
exactly if no non-terminal derives, by one replacement or more, a form that begins with itself; the error
names a non-terminal that does; and the walk over the non-terminals that come first, with a stack of its
own, ends with what the search finds. -/
theorem checkLeftRecursion_exact (hg : g.SymbolsExist) :
    (g.checkLeftRecursion g.firstTable = .ok () ↔
      ∀ nt rest, ¬ g.DerivesProperly [.nonTerminal nt] (.nonTerminal nt :: rest)) ∧
      (∀ e, g.checkLeftRecursion g.firstTable = .error e →
        ∃ nt rest, nt < g.size ∧ e = .leftRecursion (g.nameOf nt) ∧
          g.DerivesProperly [.nonTerminal nt] (.nonTerminal nt :: rest)) ∧
      ∀ o, Walk.Ends (fun v => Reach.fresh g.size [] (g.leftCornersOf g.firstTable v))
        (Walk.start g.size) o ↔ o = g.leftRecursive? g.firstTable := by
  have hlt : ∀ v, ∀ w ∈ g.leftCornersOf g.firstTable v, w < g.size :=
    fun v w hw => hg.lt_of_mem_leftCornersOf hw
  refine ⟨?_, ?_, fun o => Walk.ends_iff⟩
  · -- The search finds no cycle exactly if there is none, and cycles are left recursions.
    rw [checkLeftRecursion_eq_ok_iff hlt]
    constructor
    · intro h nt rest hderives
      have hpath := hg.path_iff_derives.2 ⟨rest, hderives⟩
      obtain ⟨i, -, hedge⟩ := Relation.TransGen.tail'_iff.1 hpath
      exact h nt hedge.2 hpath
    · intro h nt _ hpath
      obtain ⟨rest, hderives⟩ := hg.path_iff_derives.1 hpath
      exact h nt rest hderives
  · intro e he
    unfold checkLeftRecursion leftRecursive? at he
    cases hsearch : depthFirst g.size (g.leftCornersOf g.firstTable) [] [] (List.range g.size) with
    | ok done => exact absurd he (by simp [hsearch])
    | error nt =>
        simp only [hsearch, Except.error.injEq] at he
        have hpath := path_self_of_depthFirst hlt (fun a ha => absurd ha List.not_mem_nil) hsearch
        obtain ⟨i, -, hedge⟩ := Relation.TransGen.tail'_iff.1 hpath
        obtain ⟨rest, hderives⟩ := hg.path_iff_derives.1 hpath
        exact ⟨nt, rest, hedge.2, he.symm, hderives⟩

/-- A terminal comes before the non-terminal recurs. -/
def guardedGrammar : Grammar :=
  { nonTerminals :=
      [⟨"Items", [⟨[.terminal 0, .nonTerminal 0], .listHead, .default⟩,
        ⟨[], .emptyList, .lowest⟩]⟩]
    arena := ⟨[.literal "x"]⟩
    start := 0 }

theorem checkLeftRecursion_exact_circularGrammar :
    circularGrammar.SymbolsExist ∧
      Walk.Ends (fun v => Reach.fresh circularGrammar.size []
          (circularGrammar.leftCornersOf circularGrammar.firstTable v))
        (Walk.start circularGrammar.size) (some 0) ∧
      (∃ nt rest, circularGrammar.DerivesProperly [.nonTerminal nt] (.nonTerminal nt :: rest)) ∧
      guardedGrammar.SymbolsExist ∧
      ∀ nt rest, ¬ guardedGrammar.DerivesProperly [.nonTerminal nt] (.nonTerminal nt :: rest) := by
  have hg : circularGrammar.SymbolsExist := by
    decide
  have hg' : guardedGrammar.SymbolsExist := by
    decide
  have hrefused : circularGrammar.leftRecursive? circularGrammar.firstTable = some 0 := by
    cbv
  have haccepted : guardedGrammar.leftRecursive? guardedGrammar.firstTable = none := by
    cbv
  obtain ⟨-, herror, hwalk⟩ := checkLeftRecursion_exact hg
  refine ⟨hg, (hwalk _).2 hrefused.symm, ?_, hg', ?_⟩
  · obtain ⟨nt, rest, -, -, hderives⟩ := herror (.leftRecursion (circularGrammar.nameOf 0)) (by
      rw [checkLeftRecursion, hrefused])
    exact ⟨nt, rest, hderives⟩
  · apply (checkLeftRecursion_exact hg').1.1
    rw [checkLeftRecursion, haccepted]

end Grammar

end SmallLang
