import SmallLang.Lookahead.Follow
import SmallLang.Proofs.Lookahead.First
import SmallLang.Proofs.Reach

/-!
# What FOLLOW sets hold

Inside a production that can be reached from the start, the FOLLOW set of a non-terminal covers the
tokens after it: those of the rest of the production, and then those that the set of the head covers
(`Grammar.covers_of_mem_symbols`). The end of the input is in the set of the start. The sets hold
nothing beyond any sets that are closed under these rules (`Grammar.FollowClosed.within_followTable`).
-/

set_option autoImplicit false

namespace SmallLang

namespace FollowSet

variable {n : Nat}

/-- Some tokens can come where the set is the FOLLOW set: their first terminal is in it, or there are
none and the end of the input is in it. -/
def Covers (a : FollowSet n) : List Token → Prop
  | [] => a.atEnd = true
  | t :: _ => t.terminal < n ∧ a.terminals.contains t.terminal = true

theorem Covers.union_left {a : FollowSet n} {ts : List Token} (h : a.Covers ts) (b : FollowSet n) :
    (a.union b).Covers ts := by
  cases ts with
  | nil =>
      show (a.atEnd || b.atEnd) = true
      rw [show a.atEnd = true from h, Bool.true_or]
  | cons t ts => exact ⟨h.1, by simp [union, IndexSet.contains_union, h.2]⟩

theorem Covers.union_right {b : FollowSet n} {ts : List Token} (h : b.Covers ts)
    (a : FollowSet n) : (a.union b).Covers ts := by
  cases ts with
  | nil =>
      show (a.atEnd || b.atEnd) = true
      rw [show b.atEnd = true from h, Bool.or_true]
  | cons t ts => exact ⟨h.1, by simp [union, IndexSet.contains_union, h.2]⟩

/-- The set has whatever one of the sets that were added to it has. -/
theorem mem_foldl_union {α : Type} (sets : α → FollowSet n) {xs : List α} {x : α} (hx : x ∈ xs)
    (a : FollowSet n) :
    ((sets x).atEnd = true → (xs.foldl (fun a x => a.union (sets x)) a).atEnd = true) ∧
      ∀ t, (sets x).terminals.contains t = true →
        (xs.foldl (fun a x => a.union (sets x)) a).terminals.contains t = true := by
  -- The two parts of a set are added to in the way of FIRST sets.
  have hfirst : ∀ (xs : List α) (a : FollowSet n),
      (⟨(xs.foldl (fun a x => a.union (sets x)) a).atEnd,
        (xs.foldl (fun a x => a.union (sets x)) a).terminals⟩ : FirstSet n) =
      xs.foldl (fun b x => b.union ⟨(sets x).atEnd, (sets x).terminals⟩) ⟨a.atEnd, a.terminals⟩ := by
    intro xs
    induction xs with
    | nil => exact fun _ => rfl
    | cons y ys ih => exact fun a => ih (a.union (sets y))
  have hincludes := FirstSet.includes_foldl_union
    (fun x => (⟨(sets x).atEnd, (sets x).terminals⟩ : FirstSet n)) hx ⟨a.atEnd, a.terminals⟩
  rw [← hfirst] at hincludes
  exact FirstSet.includes_iff.1 hincludes

end FollowSet

/-- After the target come tokens that can begin the rest, and then tokens that can follow the head. -/
theorem Occurrence.covers_follow {n : Nat} {o : Occurrence n} {table : FollowTable n}
    {ts us : List Token} (hrest : o.rest.Starts ts) (hhead : (table.get o.head).Covers us) :
    (o.follow table).Covers (ts ++ us) := by
  cases ts with
  | nil =>
      have hempty : o.rest.empty = true := hrest
      unfold Occurrence.follow
      rw [if_pos hempty]
      exact hhead.union_right _
  | cons t ts =>
      have hcovers : FollowSet.Covers (⟨false, o.rest.terminals⟩ : FollowSet n) (t :: ts ++ us) :=
        hrest
      unfold Occurrence.follow
      split
      · exact hcovers.union_left _
      · exact hcovers

namespace Grammar

variable {g : Grammar} {first : FirstTable g.arena.size}

/-! ## What can be reached -/

theorem mem_mentioned_iff {nt i : Nat} :
    i ∈ g.mentioned nt ↔ ∃ p ∈ g.productionsOf nt, .nonTerminal i ∈ p.symbols := by
  unfold mentioned
  simp only [List.mem_flatMap, List.mem_filterMap]
  constructor
  · rintro ⟨p, hp, s, hs, hi⟩
    cases s with
    | nonTerminal j => exact ⟨p, hp, Option.some.inj hi ▸ hs⟩
    | terminal j => simp at hi
  · rintro ⟨p, hp, hs⟩
    exact ⟨p, hp, _, hs, rfl⟩

theorem start_mem_reachable (h : g.start < g.size) : g.start ∈ g.reachable := by
  rw [reachable, if_pos h, Reach.mem_reachable_iff]

/-- The non-terminals of a production that can be reached can be reached. -/
theorem mem_reachable_of_symbol {nt i : Nat} (hnt : nt ∈ g.reachable) {p : Production}
    (hp : p ∈ g.productionsOf nt) (hi : .nonTerminal i ∈ p.symbols) (hlt : i < g.size) :
    i ∈ g.reachable := by
  unfold reachable at hnt ⊢
  by_cases hstart : g.start < g.size
  · rw [if_pos hstart, Reach.mem_reachable_iff] at hnt ⊢
    exact hnt.tail ⟨mem_mentioned_iff.2 ⟨p, hp, hi⟩, hlt⟩
  · simp [hstart] at hnt

/-! ## Occurrences -/

theorem mem_occurrencesIn_iff {n : Nat} {first : FirstTable n} {head : Nat} {ss : List Symbol}
    {o : Occurrence n} :
    o ∈ occurrencesIn first head ss ↔
      ∃ before after, ss = before ++ .nonTerminal o.target :: after ∧
        o = ⟨o.target, head, first.ofSymbols after⟩ := by
  induction ss with
  | nil => simp [occurrencesIn]
  | cons s ss ih =>
      cases s with
      | nonTerminal i =>
          rw [occurrencesIn, List.mem_cons, ih]
          constructor
          · rintro (rfl | ⟨before, after, rfl, ho⟩)
            · exact ⟨[], ss, rfl, rfl⟩
            · exact ⟨.nonTerminal i :: before, after, rfl, ho⟩
          · rintro ⟨before, after, hss, ho⟩
            cases before with
            | nil =>
                simp only [List.nil_append, List.cons.injEq, Symbol.nonTerminal.injEq] at hss
                rw [ho, ← hss.1, ← hss.2]
                exact Or.inl rfl
            | cons b before =>
                simp only [List.cons_append, List.cons.injEq] at hss
                exact Or.inr ⟨before, after, hss.2, ho⟩
      | terminal i =>
          rw [occurrencesIn, ih]
          constructor
          · rintro ⟨before, after, rfl, ho⟩
            exact ⟨.terminal i :: before, after, rfl, ho⟩
          · rintro ⟨before, after, hss, ho⟩
            cases before with
            | nil => simp at hss
            | cons b before =>
                simp only [List.cons_append, List.cons.injEq] at hss
                exact ⟨before, after, hss.2, ho⟩

theorem mem_occurrences_iff {o : Occurrence g.arena.size} :
    o ∈ g.occurrences first ↔
      ∃ head ∈ g.reachable, ∃ p ∈ g.productionsOf head, ∃ before after,
        p.symbols = before ++ .nonTerminal o.target :: after ∧
          o = ⟨o.target, head, first.ofSymbols after⟩ := by
  unfold occurrences
  simp only [List.mem_flatMap, mem_occurrencesIn_iff]

/-! ## What comes after a non-terminal -/

theorem length_followTable (first : FirstTable g.arena.size) :
    (g.followTable first).length = g.size := by
  have h : (g.followTable first).length = g.size :=
    saturate_induction (P := fun t : FollowTable g.arena.size => t.length = g.size)
      (fun t ht => by rw [followStep, length_growAll, ht]) (by simp [followStart])
  exact h

theorem getElem?_followTable {nt : Nat} (h : nt < g.size) :
    (g.followTable first)[nt]? = some ((g.followTable first).get nt) := by
  have hlt : nt < (g.followTable first).length := by rw [length_followTable]; exact h
  simp [FollowTable.get, List.getElem?_eq_getElem hlt]

/-- What an occurrence says about its target is in the set of the target. -/
theorem mem_followTable_of_occurrence {o : Occurrence g.arena.size} (ho : o ∈ g.occurrences first)
    (hlt : o.target < g.size) :
    ((o.follow (g.followTable first)).atEnd = true →
        ((g.followTable first).get o.target).atEnd = true) ∧
      ∀ t, (o.follow (g.followTable first)).terminals.contains t = true →
        ((g.followTable first).get o.target).terminals.contains t = true := by
  have hfixed := congrArg (fun t : FollowTable g.arena.size => t[o.target]?)
    (g.followStep_followTable first)
  simp only [followStep, getElem?_growAll, getElem?_followTable hlt, Option.map_some,
    Option.some.injEq] at hfixed
  have hmem : o ∈ (g.occurrences first).filter (·.target == o.target) :=
    List.mem_filter.2 ⟨ho, beq_self_eq_true o.target⟩
  obtain ⟨hend, hnext⟩ := FollowSet.mem_foldl_union
    (fun o : Occurrence g.arena.size => o.follow (g.followTable first)) hmem .none
  rw [← hfixed]
  refine ⟨fun he => ?_, fun t ht => ?_⟩
  · rw [FollowSet.union, hend he, Bool.or_true]
  · rw [FollowSet.union, IndexSet.contains_union, hnext t ht, Bool.or_true]

theorem covers_of_occurrence {o : Occurrence g.arena.size} (ho : o ∈ g.occurrences first)
    (hlt : o.target < g.size) {ts : List Token}
    (h : (o.follow (g.followTable first)).Covers ts) :
    ((g.followTable first).get o.target).Covers ts := by
  obtain ⟨hend, hnext⟩ := mem_followTable_of_occurrence ho hlt
  cases ts with
  | nil => exact hend h
  | cons t ts => exact ⟨h.1, hnext _ h.2⟩

/-- After a non-terminal of a production come tokens that can begin the rest of the production, and
then tokens that can follow its head. -/
theorem covers_of_mem_symbols {head nt : Nat} (hhead : head ∈ g.reachable) {p : Production}
    (hp : p ∈ g.productionsOf head) {before after : List Symbol}
    (hsymbols : p.symbols = before ++ .nonTerminal nt :: after) (hlt : nt < g.size)
    {ts us : List Token} (hafter : (first.ofSymbols after).Starts ts)
    (hfollow : ((g.followTable first).get head).Covers us) :
    ((g.followTable first).get nt).Covers (ts ++ us) := by
  have ho : (⟨nt, head, first.ofSymbols after⟩ : Occurrence g.arena.size) ∈ g.occurrences first :=
    mem_occurrences_iff.2 ⟨head, hhead, p, hp, before, after, hsymbols, rfl⟩
  exact covers_of_occurrence ho hlt (Occurrence.covers_follow hafter hfollow)

theorem followTable_induction {P : FollowTable g.arena.size → Prop} (hstart : P g.followStart)
    (hstep : ∀ t, P t → P (followStep (g.occurrences first) t)) : P (g.followTable first) :=
  saturate_induction hstep hstart

/-- The end of the input can follow the start. -/
theorem covers_start_nil (h : g.start < g.size) :
    ((g.followTable first).get g.start).Covers [] := by
  refine followTable_induction
    (P := fun t : FollowTable g.arena.size => (t.get g.start).Covers []) ?_ ?_
  · simp [FollowTable.get, followStart, h, FollowSet.Covers]
  · intro t ht
    unfold FollowTable.get followStep at *
    rw [getElem?_growAll]
    cases hstart : t[g.start]? with
    | none =>
        rw [hstart] at ht
        simp [FollowSet.Covers, FollowSet.none] at ht
    | some a =>
        rw [hstart] at ht
        exact FollowSet.Covers.union_left ht _

/-! ## Sets closed under the rules -/

/-- Predicates for the end of the input and for next terminals that every production that can be
reached keeps to, by the given FIRST sets. -/
structure FollowClosed (g : Grammar) (first : FirstTable g.arena.size) (atEnd : Nat → Prop)
    (next : Nat → Nat → Prop) : Prop where
  start : atEnd g.start
  rest : ∀ head ∈ g.reachable, ∀ p ∈ g.productionsOf head, ∀ before nt after,
    p.symbols = before ++ .nonTerminal nt :: after →
      ∀ t, (first.ofSymbols after).terminals.contains t = true → next nt t
  last : ∀ head ∈ g.reachable, ∀ p ∈ g.productionsOf head, ∀ before nt after,
    p.symbols = before ++ .nonTerminal nt :: after → (first.ofSymbols after).empty = true →
      (atEnd head → atEnd nt) ∧ ∀ t, next head t → next nt t

/-- The set of a non-terminal keeps to the predicates. -/
def FollowWithin {n : Nat} (a : FollowSet n) (atEnd : Prop) (next : Nat → Prop) : Prop :=
  (a.atEnd = true → atEnd) ∧ ∀ t, a.terminals.contains t = true → next t

theorem followWithin_none {n : Nat} (e : Prop) (f : Nat → Prop) :
    FollowWithin (FollowSet.none : FollowSet n) e f :=
  ⟨fun h => by simp [FollowSet.none] at h, fun t h => by simp [FollowSet.none] at h⟩

theorem FollowWithin.union {n : Nat} {e : Prop} {f : Nat → Prop} {a b : FollowSet n}
    (ha : FollowWithin a e f) (hb : FollowWithin b e f) : FollowWithin (a.union b) e f := by
  refine ⟨fun he => ?_, fun t ht => ?_⟩
  · simp only [FollowSet.union, Bool.or_eq_true] at he
    exact he.elim ha.1 hb.1
  · simp only [FollowSet.union, IndexSet.contains_union, Bool.or_eq_true] at ht
    exact ht.elim (ha.2 t) (hb.2 t)

theorem followWithin_foldl_union {α : Type} {n : Nat} {e : Prop} {f : Nat → Prop}
    (sets : α → FollowSet n) {xs : List α} (h : ∀ x ∈ xs, FollowWithin (sets x) e f)
    {a : FollowSet n} (ha : FollowWithin a e f) :
    FollowWithin (xs.foldl (fun a x => a.union (sets x)) a) e f := by
  induction xs generalizing a with
  | nil => exact ha
  | cons x xs ih =>
      exact ih (fun y hy => h y (List.mem_cons_of_mem _ hy)) (ha.union (h x List.mem_cons_self))

variable {atEnd : Nat → Prop} {next : Nat → Nat → Prop}

theorem FollowClosed.within_occurrence (hclosed : g.FollowClosed first atEnd next)
    {table : FollowTable g.arena.size}
    (h : ∀ nt, FollowWithin (table.get nt) (atEnd nt) (next nt)) {o : Occurrence g.arena.size}
    (ho : o ∈ g.occurrences first) :
    FollowWithin (o.follow table) (atEnd o.target) (next o.target) := by
  obtain ⟨head, hhead, p, hp, before, after, hsymbols, ho⟩ := mem_occurrences_iff.1 ho
  have hrest : FollowWithin (⟨false, o.rest.terminals⟩ : FollowSet g.arena.size)
      (atEnd o.target) (next o.target) := by
    refine ⟨fun he => absurd he (by simp), fun t ht => ?_⟩
    rw [ho] at ht
    exact hclosed.rest head hhead p hp before _ after hsymbols t ht
  unfold Occurrence.follow
  split
  · rename_i hempty
    rw [ho] at hempty
    obtain ⟨hend, hnext⟩ := hclosed.last head hhead p hp before _ after hsymbols hempty
    have hheadWithin := h head
    refine hrest.union ?_
    rw [ho]
    exact ⟨fun he => hend (hheadWithin.1 he), fun t ht => hnext t (hheadWithin.2 t ht)⟩
  · exact hrest

theorem FollowClosed.within_followStart (hclosed : g.FollowClosed first atEnd next) (nt : Nat) :
    FollowWithin (g.followStart.get nt) (atEnd nt) (next nt) := by
  unfold FollowTable.get followStart
  rw [List.getElem?_map]
  cases hnt : (List.range g.size)[nt]? with
  | none => exact followWithin_none _ _
  | some i =>
      obtain ⟨hlt, hi⟩ := List.getElem?_eq_some_iff.1 hnt
      rw [List.getElem_range] at hi
      refine ⟨fun he => ?_, fun t ht => by simp at ht⟩
      simp only [Option.map_some, Option.getD_some, beq_iff_eq] at he
      rw [hi, he]
      exact hclosed.start

/-- FOLLOW sets hold nothing beyond predicates that are closed under the productions. -/
theorem FollowClosed.within_followTable (hclosed : g.FollowClosed first atEnd next) (nt : Nat) :
    FollowWithin ((g.followTable first).get nt) (atEnd nt) (next nt) := by
  refine followTable_induction (P := fun t : FollowTable g.arena.size =>
    ∀ nt, FollowWithin (t.get nt) (atEnd nt) (next nt)) hclosed.within_followStart ?_ nt
  intro t ht nt
  unfold FollowTable.get followStep
  rw [getElem?_growAll]
  cases hnt : t[nt]? with
  | none => exact followWithin_none _ _
  | some a =>
      have ha : FollowWithin a (atEnd nt) (next nt) := by
        have := ht nt
        rwa [FollowTable.get, hnt] at this
      refine ha.union (followWithin_foldl_union _ (fun o ho => ?_) (followWithin_none _ _))
      obtain ⟨ho, htarget⟩ := List.mem_filter.1 ho
      rw [← eq_of_beq htarget]
      exact hclosed.within_occurrence ht ho

end Grammar

end SmallLang
