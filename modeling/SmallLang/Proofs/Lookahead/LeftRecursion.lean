import Mathlib.Data.Finset.Card
import Mathlib.Logic.Relation
import SmallLang.Lookahead.LeftRecursion
import SmallLang.Proofs.Lookahead.First
import SmallLang.Proofs.Reach

/-!
# What the search for left recursion finds

The depth-first search ends without an error exactly if there is nothing to find. It leaves a vertex
after all vertices that can be reached from it, so when it ends well, the vertices in the order in
which it left them show that no path leads back to where it began (`not_path_self_of_depthFirst`).
If some rank falls along every edge, then it ends well (`depthFirst_eq_ok_of_rank`), and such a rank
there is where no path leads back (`exists_rank`).
-/

set_option autoImplicit false

namespace SmallLang

variable {n : Nat} {next : Nat → List Nat}

/-! ## The search ends well where a rank falls -/

/-- No vertex to visit has been entered and not left, if vertices that were entered have a higher
rank. -/
theorem depthFirst_eq_ok_of_rank {rank : Nat → Nat} (hrank : ∀ v, ∀ w ∈ next v, rank w < rank v)
    (active done vs : List Nat) (hactive : ∀ a ∈ active, ∀ v ∈ vs, rank v < rank a) :
    ∃ done', depthFirst n next active done vs = .ok done' := by
  fun_induction depthFirst n next active done vs with
  | case1 active done => exact ⟨done, rfl⟩
  | case2 active done v vs hmem =>
      exact absurd (hactive v hmem v List.mem_cons_self) (Nat.lt_irrefl _)
  | case3 active done v vs _ _ ih =>
      exact ih fun a ha w hw => hactive a ha w (List.mem_cons_of_mem _ hw)
  | case4 active done v vs _ _ w herror ih =>
      obtain ⟨done', hok⟩ := ih fun a ha w hw => by
        rcases List.mem_cons.1 ha with rfl | ha
        · exact hrank a w hw
        · exact Nat.lt_trans (hrank v w hw) (hactive a ha v List.mem_cons_self)
      rw [herror] at hok
      exact absurd hok (by simp)
  | case5 active done v vs _ _ done' _ _ ih =>
      exact ih fun a ha w hw => hactive a ha w (List.mem_cons_of_mem _ hw)

/-! ## What it means that the search ended well -/

/-- Each vertex of the list comes before all vertices that an edge leads to, and occurs once. -/
inductive LeftInOrder (n : Nat) (next : Nat → List Nat) : List Nat → Prop
  | nil : LeftInOrder n next []
  | cons {v : Nat} {done : List Nat} (hv : v ∉ done) (hnext : ∀ w ∈ next v, w < n → w ∈ done)
      (hdone : LeftInOrder n next done) : LeftInOrder n next (v :: done)

theorem leftInOrder_of_depthFirst {active done vs done' : List Nat}
    (h : depthFirst n next active done vs = .ok done') (hdone : LeftInOrder n next done) :
    LeftInOrder n next done' ∧ done ⊆ done' ∧ (∀ v ∈ vs, v < n → v ∈ done') ∧
      ∀ v ∈ done', v ∈ done ∨ v ∉ active := by
  fun_induction depthFirst n next active done vs generalizing done' with
  | case1 active done =>
      obtain rfl := Except.ok.inj h
      exact ⟨hdone, List.Subset.refl _, fun v hv => absurd hv List.not_mem_nil,
        fun v hv => Or.inl hv⟩
  | case2 active done v vs hmem => exact absurd h (by simp)
  | case3 active done v vs _ hskip ih =>
      obtain ⟨horder, hsubset, hall, hnew⟩ := ih h hdone
      refine ⟨horder, hsubset, fun w hw hlt => ?_, hnew⟩
      rcases List.mem_cons.1 hw with rfl | hw
      · exact hsubset (hskip.resolve_right (Nat.not_le.2 hlt))
      · exact hall w hw hlt
  | case4 active done v vs _ _ w herror ih => exact absurd h (by simp)
  | case5 active done v vs hactive hskip done₁ hok ihnext ih =>
      obtain ⟨horder₁, hsubset₁, hall₁, hnew₁⟩ := ihnext hok hdone
      -- The vertex itself was not left while its successors were visited.
      have hv : v ∉ done₁ := by
        intro hmem
        rcases hnew₁ v hmem with hmem | hmem
        · exact hskip (Or.inl hmem)
        · exact hmem List.mem_cons_self
      obtain ⟨horder, hsubset, hall, hnew⟩ := ih h (.cons hv hall₁ horder₁)
      refine ⟨horder, fun w hw => hsubset (List.mem_cons_of_mem _ (hsubset₁ hw)), ?_, ?_⟩
      · intro w hw hlt
        rcases List.mem_cons.1 hw with rfl | hw
        · exact hsubset List.mem_cons_self
        · exact hall w hw hlt
      · intro w hw
        rcases hnew w hw with hw | hw
        · rcases List.mem_cons.1 hw with rfl | hw
          · exact Or.inr hactive
          · rcases hnew₁ w hw with hw | hw
            · exact Or.inl hw
            · exact Or.inr fun hmem => hw (List.mem_cons_of_mem _ hmem)
        · exact Or.inr hw

/-- A path of edges stays among the vertices after the one it begins at. -/
theorem LeftInOrder.mem_of_path {v w : Nat} {done : List Nat} (h : LeftInOrder n next (v :: done))
    (hpath : Relation.TransGen (Reach.Edge n next) v w) : w ∈ done := by
  have hedge : ∀ {x y : Nat} {done : List Nat}, LeftInOrder n next done → x ∈ done →
      Reach.Edge n next x y → y ∈ done := by
    intro x y done horder hx hxy
    induction horder with
    | nil => exact absurd hx List.not_mem_nil
    | cons _ hnext _ ih =>
        rcases List.mem_cons.1 hx with rfl | hx
        · exact List.mem_cons_of_mem _ (hnext y hxy.1 hxy.2)
        · exact List.mem_cons_of_mem _ (ih hx)
  cases h with
  | cons hv hnext horder =>
      induction hpath with
      | single hvw => exact hnext _ hvw.1 hvw.2
      | tail _ hxy ih => exact hedge horder ih hxy

/-- Where the search ends well, no path leads from a vertex back to it. -/
theorem not_path_self_of_depthFirst {active vs done' : List Nat}
    (h : depthFirst n next active [] vs = .ok done') {v : Nat} (hv : v ∈ vs) (hlt : v < n) :
    ¬ Relation.TransGen (Reach.Edge n next) v v := by
  obtain ⟨horder, -, hall, -⟩ := leftInOrder_of_depthFirst h .nil
  have hmem := hall v hv hlt
  intro hpath
  clear h hall
  induction horder with
  | nil => exact absurd hmem List.not_mem_nil
  | @cons w done hw hnext horder ih =>
      rcases List.mem_cons.1 hmem with rfl | hmem
      · exact hw (LeftInOrder.mem_of_path (.cons hw hnext horder) hpath)
      · exact ih hmem

/-- Where no path leads from a vertex back to it, the number of vertices that paths lead to falls
along every edge. -/
theorem exists_rank (h : ∀ v < n, ¬ Relation.TransGen (Reach.Edge n next) v v) :
    ∃ rank : Nat → Nat, ∀ v, ∀ w ∈ next v, w < n → rank w < rank v := by
  classical
  refine ⟨fun v => ((Finset.range n).filter (Relation.TransGen (Reach.Edge n next) v)).card, ?_⟩
  intro v w hw hlt
  have hedge : Reach.Edge n next v w := ⟨hw, hlt⟩
  refine Finset.card_lt_card (Finset.ssubset_iff_of_subset ?_ |>.2 ⟨w, ?_, ?_⟩)
  · intro x hx
    obtain ⟨hxn, hpath⟩ := Finset.mem_filter.1 hx
    exact Finset.mem_filter.2 ⟨hxn, .head hedge hpath⟩
  · exact Finset.mem_filter.2 ⟨Finset.mem_range.2 hedge.2, .single hedge⟩
  · intro hmem
    exact h w hedge.2 (Finset.mem_filter.1 hmem).2

/-! ## Grammars -/

namespace Grammar

variable {g : Grammar} {first : FirstTable g.arena.size}

/-- A grammar in which a rank falls from each non-terminal to those that can come first in its
productions is not refused. -/
theorem checkLeftRecursion_eq_ok_of_rank (rank : Nat → Nat)
    (hrank : ∀ v, ∀ w ∈ g.leftCornersOf first v, rank w < rank v) :
    g.checkLeftRecursion first = .ok () := by
  obtain ⟨done, hdone⟩ := depthFirst_eq_ok_of_rank (n := g.size) hrank [] [] (List.range g.size)
    fun a ha => absurd ha List.not_mem_nil
  rw [checkLeftRecursion, leftRecursive?, hdone]

/-- A grammar that is not refused has no non-terminal that can come first in what it derives. -/
theorem not_path_self_of_checkLeftRecursion (h : g.checkLeftRecursion first = .ok ()) {v : Nat}
    (hv : v < g.size) : ¬ Relation.TransGen (Reach.Edge g.size (g.leftCornersOf first)) v v := by
  rw [checkLeftRecursion, leftRecursive?] at h
  cases hsearch : depthFirst g.size (g.leftCornersOf first) [] [] (List.range g.size) with
  | error w => exact absurd h (by simp [hsearch])
  | ok done => exact not_path_self_of_depthFirst hsearch (List.mem_range.2 hv) hv

/-- A grammar is refused exactly if some non-terminal can come first in what it derives. -/
theorem checkLeftRecursion_eq_ok_iff (hlt : ∀ v, ∀ w ∈ g.leftCornersOf first v, w < g.size) :
    g.checkLeftRecursion first = .ok () ↔
      ∀ v < g.size, ¬ Relation.TransGen (Reach.Edge g.size (g.leftCornersOf first)) v v := by
  constructor
  · intro h v hv
    exact not_path_self_of_checkLeftRecursion h hv
  · intro h
    obtain ⟨rank, hrank⟩ := exists_rank h
    exact checkLeftRecursion_eq_ok_of_rank rank fun v w hw => hrank v w hw (hlt v w hw)

/-- What can come first in a production exists. -/
theorem SymbolsExist.lt_of_mem_leftCornersOf (hg : g.SymbolsExist) {n : Nat} {first : FirstTable n}
    {v w : Nat} (hw : w ∈ g.leftCornersOf first v) : w < g.size := by
  obtain ⟨p, hp, hw⟩ := List.mem_flatMap.1 hw
  obtain ⟨i, hi⟩ := List.mem_iff_getElem?.1 hp
  have hall : ∀ s ∈ p.symbols, g.HasSymbol s := hg.of_production hi
  generalize p.symbols = ss at hw hall
  induction ss with
  | nil => exact absurd hw List.not_mem_nil
  | cons s ss ih =>
      cases s with
      | terminal i => exact absurd hw List.not_mem_nil
      | nonTerminal i =>
          rcases List.mem_cons.1 hw with rfl | hw
          · exact hall _ List.mem_cons_self
          · split at hw
            · exact ih hw fun s hs => hall s (List.mem_cons_of_mem _ hs)
            · exact absurd hw List.not_mem_nil

/-- In a grammar that is not refused a rank falls from each non-terminal to those that can come first
in its productions. -/
theorem exists_rank_of_checkLeftRecursion (h : g.checkLeftRecursion first = .ok ()) :
    ∃ rank : Nat → Nat, ∀ v, ∀ w ∈ g.leftCornersOf first v, w < g.size → rank w < rank v :=
  exists_rank fun _ hv => not_path_self_of_checkLeftRecursion h hv

end Grammar

end SmallLang
