import SmallLang.Proofs.Lookahead.FirstExact
import SmallLang.Proofs.Lookahead.Follow

/-!
# FOLLOW sets are exact

A terminal is in the FOLLOW set of a non-terminal exactly if it comes right after the non-terminal in a
form that the start derives, and the end of the input is exactly if the non-terminal ends such a form
(`Grammar.IsFollowOf`). Whatever is closed under the rules of FOLLOW sets holds of all derived forms
(`Grammar.FollowClosed.of_occurs`), by induction over the derivation: a symbol of a form was there
before the last replacement or belongs to the production. And what holds of derived forms is closed
(`Grammar.WellFormed.followClosed_occurs`), since only productions that can be reached count.

There are two ways to the table. One adds to all sets at once what the occurrences of their
non-terminals say (`Grammar.followTable`). The other collects with a stack what can be reached, and goes
over the occurrences and adds to the table in place, in whatever order the terminals of a set are listed
(`Grammar.followSweep`). The sweeps end, and with the same table (`Grammar.followTable_exact`).
-/

set_option autoImplicit false

namespace SmallLang

/-! ## What can be reached, collected with a stack -/

namespace Reach

variable {n : Nat} {next : Nat → List Nat}

/-- Continues a search that takes the vertex met last: `met` are all vertices met so far, and `stack`
those whose successors were not looked at yet. -/
def collect (n : Nat) (next : Nat → List Nat) (met : List Nat) : List Nat → List Nat
  | [] => met
  | v :: stack =>
      let new := fresh n met (next v)
      collect n next (met ++ new) (new.reverse ++ stack)
termination_by stack => (unmet n met, stack.length)
decreasing_by
  by_cases h : fresh n met (next v) = []
  · rw [h]
    simp only [List.append_nil, List.reverse_nil, List.nil_append, List.length_cons]
    exact Prod.Lex.right _ (Nat.lt_succ_self _)
  · exact Prod.Lex.left _ _ (unmet_append_lt h)

theorem Progress.congr {v : Nat} {met queue stack : List Nat} (h : Progress n next v met queue)
    (hmem : ∀ w, w ∈ stack ↔ w ∈ queue) : Progress n next v met stack :=
  ⟨h.nodup, h.start, h.sound, fun w hw => h.queued w ((hmem w).1 hw),
    fun w hw hstack => h.closed w hw fun hqueue => hstack ((hmem w).2 hqueue)⟩

theorem Progress.collect {v : Nat} {met stack : List Nat} (h : Progress n next v met stack) :
    Progress n next v (collect n next met stack) [] := by
  fun_induction Reach.collect n next met stack with
  | case1 met => exact h
  | case2 met w stack new ih =>
      -- It does not matter where the new vertices are put.
      apply ih
      apply h.step.congr
      intro x
      rw [List.mem_append, List.mem_reverse, List.mem_append, or_comm]

/-- The order of the search makes no difference to what it meets. -/
theorem mem_collect_iff {v w : Nat} : w ∈ collect n next [v] [v] ↔ w ∈ reachable n next v := by
  have hstart : Progress n next v [v] [v] := by
    refine ⟨List.nodup_singleton v, List.mem_cons_self, ?_, fun w hw => hw, ?_⟩
    · intro w hw
      rw [List.mem_singleton.1 hw]
    · intro w hw hstack
      exact absurd hw hstack
  have hdone := hstart.collect
  rw [mem_reachable_iff]
  constructor
  · exact hdone.sound w
  · intro hpath
    induction hpath with
    | refl => exact hdone.start
    | tail _ hedge ih => exact hdone.closed _ ih List.not_mem_nil _ hedge

end Reach

/-! ## Sets -/

namespace FollowSet

variable {n : Nat} {a b : FollowSet n}

theorem ext_contains (hend : a.atEnd = b.atEnd)
    (h : ∀ t, a.terminals.contains t = b.terminals.contains t) : a = b := by
  obtain ⟨e, ts⟩ := a
  obtain ⟨e', ts'⟩ := b
  obtain rfl : e = e' := hend
  obtain rfl : ts = ts' := IndexSet.ext_contains h
  rfl

/-- Puts a terminal into the set. -/
def addTerminal (t : Nat) : Change (FollowSet n) := fun a =>
  ((a.terminals.add t).1, { a with terminals := (a.terminals.add t).2 })

/-- Puts the end of the input into the set. -/
def addAtEnd : Change (FollowSet n) := fun a => (!a.atEnd, { a with atEnd := true })

theorem truthful_addTerminal {t : Nat} (ht : t < n) :
    Change.Truthful room (addTerminal t : Change (FollowSet n)) := by
  have h := IndexSet.truthful_add ht
  refine ⟨fun a ha => ?_, fun a ha => ?_⟩
  · show FollowSet.mk a.atEnd (a.terminals.add t).2 = a
    rw [h.unchanged a.terminals ha]
  · exact Nat.add_lt_add_left (h.room_lt a.terminals ha) _

theorem truthful_addAtEnd : Change.Truthful room (addAtEnd : Change (FollowSet n)) := by
  refine ⟨fun a ha => ?_, fun a ha => ?_⟩
  · obtain ⟨e, ts⟩ := a
    have he : e = true := (Bool.not_eq_false' _).mp ha
    rw [he]
    rfl
  · have he : a.atEnd = false := (Bool.not_eq_true' _).mp ha
    show 0 + a.terminals.room < (if a.atEnd = true then 0 else 1) + a.terminals.room
    rw [he]
    exact Nat.add_lt_add_right Nat.zero_lt_one _

end FollowSet

namespace Grammar

variable {g : Grammar}

/-! ## Occurrences in derived forms -/

/-- The start derives a form in which the non-terminal stands between these symbols. -/
def Occurs (g : Grammar) (before : List Symbol) (nt : Nat) (after : List Symbol) : Prop :=
  g.DerivesForm [.nonTerminal g.start] (before ++ .nonTerminal nt :: after)

theorem occurs_start (g : Grammar) : g.Occurs [] g.start [] := .refl

theorem Occurs.of_production {before after x y : List Symbol} {head nt p : Nat}
    {production : Production} (h : g.Occurs before head after)
    (hp : g.production? head p = some production)
    (hsymbols : production.symbols = x ++ .nonTerminal nt :: y) :
    g.Occurs (before ++ x) nt (y ++ after) := by
  have hstep := Produces.replace before after hp
  rw [hsymbols] at hstep
  unfold Occurs
  simpa only [List.append_assoc, List.cons_append] using h.tail hstep

theorem Occurs.derives_after {before u v after : List Symbol} {nt : Nat}
    (h : g.Occurs before nt (u ++ after)) (huv : g.DerivesForm u v) :
    g.Occurs before nt (v ++ after) := by
  have hrest := huv.surround (before ++ [.nonTerminal nt]) after
  simp only [List.append_assoc, List.cons_append, List.nil_append] at hrest
  exact h.trans hrest

/-- What can be reached occurs in a form that the start derives. -/
theorem exists_occurs_of_mem_reachable {nt : Nat} (h : nt ∈ g.reachable) :
    ∃ before after, g.Occurs before nt after := by
  unfold reachable at h
  split at h
  · rw [Reach.mem_reachable_iff] at h
    induction h with
    | refl => exact ⟨[], [], g.occurs_start⟩
    | tail _ hedge ih =>
        obtain ⟨before, after, hoccurs⟩ := ih
        obtain ⟨production, hmem, hsymbol⟩ := mem_mentioned_iff.1 hedge.1
        obtain ⟨p, hp⟩ := List.mem_iff_getElem?.1 hmem
        obtain ⟨x, y, hsymbols⟩ := List.append_of_mem hsymbol
        exact ⟨_, _, hoccurs.of_production hp hsymbols⟩
  · exact absurd h List.not_mem_nil

/-- The symbols around a symbol of a production exist, and so the FIRST set of what comes after it is
exact. -/
theorem WellFormed.isFirstOf_after (hg : g.WellFormed) {head p : Nat} {production : Production}
    (hp : g.production? head p = some production) {before after : List Symbol} {s : Symbol}
    (hsymbols : production.symbols = before ++ s :: after) :
    g.HasSymbol s ∧ g.IsFirstOf (g.firstTable.ofSymbols after) after := by
  have hexist := hg.symbolsExist.of_production hp
  rw [hsymbols, List.forall_mem_append, List.forall_mem_cons] at hexist
  obtain ⟨-, hs, hafter⟩ := hexist
  exact ⟨hs, g.least_firstTable.isFirstOf hg.symbolsExist hafter⟩

/-! ## Closed predicates hold of derived forms -/

variable {atEnd : Nat → Prop} {next : Nat → Nat → Prop}

/-- Closed predicates hold of each non-terminal of a derived form: of the terminals that can come first
in what stands after it, and of the end if all of this can be empty. -/
theorem FollowClosed.of_occurs (h : g.FollowClosed g.firstTable atEnd next) (hg : g.WellFormed)
    {before after : List Symbol} {nt : Nat} (hoccurs : g.Occurs before nt after) :
    nt ∈ g.reachable ∧
      (∀ t, (g.firstTable.ofSymbols after).terminals.contains t = true → next nt t) ∧
      ((g.firstTable.ofSymbols after).empty = true → atEnd nt) := by
  unfold Occurs at hoccurs
  generalize hform : before ++ Symbol.nonTerminal nt :: after = form at hoccurs
  induction hoccurs generalizing before nt after with
  | refl =>
      obtain ⟨rfl, hsingle⟩ : before = [] ∧ Symbol.nonTerminal nt :: after = [.nonTerminal g.start] := by
        cases before with
        | nil => exact ⟨rfl, hform⟩
        | cons s before => simp at hform
      obtain ⟨hnt, rfl⟩ := List.cons.inj hsingle
      rw [Symbol.nonTerminal.inj hnt]
      refine ⟨start_mem_reachable hg.1, fun t ht => ?_, fun _ => h.start⟩
      rw [FirstTable.ofSymbols, FirstSet.onlyEmpty, IndexSet.contains_empty] at ht
      exact absurd ht Bool.false_ne_true
  | tail _ hstep ih =>
      subst hform
      -- The symbol was there before the last replacement, or the replacement has brought it.
      cases hstep.origin with
      | keptBefore after' hu hstep' =>
          obtain ⟨hreach, hnext, hend⟩ := ih hu.symm
          have hclosed := g.least_firstTable.closed
          obtain ⟨hempty, hfirst⟩ := FirstSet.includes_iff.1 (hclosed.includes_of_produces hstep')
          exact ⟨hreach, fun t ht => hnext t (hfirst t ht), fun he => hend (hempty he)⟩
      | keptAfter before' hu _ => exact ih hu.symm
      | @produced left right x y head p production hp hsymbols hu hbefore hafter =>
          obtain ⟨hreach, hnext, hend⟩ := ih hu.symm
          have hmem := List.mem_of_getElem? hp
          have hrest := h.rest head hreach production hmem x nt y hsymbols
          have hlast := h.last head hreach production hmem x nt y hsymbols
          rw [hafter, FirstTable.ofSymbols_append]
          refine ⟨?_, fun t ht => ?_, fun he => ?_⟩
          · apply mem_reachable_of_symbol hreach hmem
            · rw [hsymbols]
              exact List.mem_append_right _ List.mem_cons_self
            · exact (hg.isFirstOf_after hp hsymbols).1
          · rw [FirstSet.contains_followedBy, Bool.or_eq_true, Bool.and_eq_true] at ht
            rcases ht with ht | ⟨he, ht⟩
            · exact hrest t ht
            · exact (hlast he).2 t (hnext t ht)
          · rw [FirstSet.empty_followedBy, Bool.and_eq_true] at he
            exact (hlast he.1).1 (hend he.2)

/-! ## What holds of derived forms is closed -/

/-- What holds of derived forms keeps to the rules of FOLLOW sets. -/
theorem WellFormed.followClosed_occurs (hg : g.WellFormed) :
    g.FollowClosed g.firstTable (fun nt => ∃ before, g.Occurs before nt [])
      (fun nt t => ∃ before after, g.Occurs before nt (.terminal t :: after)) := by
  refine ⟨⟨[], g.occurs_start⟩, ?_, ?_⟩
  · intro head hreach production hmem before nt after hsymbols t ht
    obtain ⟨p, hp⟩ := List.mem_iff_getElem?.1 hmem
    obtain ⟨left, right, hoccurs⟩ := exists_occurs_of_mem_reachable hreach
    obtain ⟨rest, hrest⟩ := ((hg.isFirstOf_after hp hsymbols).2.terminal t).1 ht
    exact ⟨_, _, (hoccurs.of_production hp hsymbols).derives_after hrest⟩
  · intro head _ production hmem before nt after hsymbols he
    obtain ⟨p, hp⟩ := List.mem_iff_getElem?.1 hmem
    have hempty := (hg.isFirstOf_after hp hsymbols).2.empty.1 he
    refine ⟨?_, fun t => ?_⟩
    · rintro ⟨left, hoccurs⟩
      exact ⟨_, (hoccurs.of_production hp hsymbols).derives_after hempty⟩
    · rintro ⟨left, right, hoccurs⟩
      exact ⟨_, _, (hoccurs.of_production hp hsymbols).derives_after hempty⟩

/-! ## Exactness of the least table -/

/-- The set says exactly which terminals come right after the non-terminal in the forms that the start
derives, and whether it ends one of them. Its list has no other terminals. -/
structure IsFollowOf (g : Grammar) (a : FollowSet g.arena.size) (nt : Nat) : Prop where
  terminal : ∀ t, a.terminals.contains t = true ↔
    ∃ before after, g.DerivesForm [.nonTerminal g.start]
      (before ++ .nonTerminal nt :: .terminal t :: after)
  atEnd : a.atEnd = true ↔
    ∃ before, g.DerivesForm [.nonTerminal g.start] (before ++ [.nonTerminal nt])
  listed : ∀ t, t ∈ a.terminals.toList ↔ a.terminals.contains t = true

/-- The table is closed under the rules of FOLLOW sets, and holds nothing beyond predicates that are. -/
structure LeastFollow (g : Grammar) (table : FollowTable g.arena.size) : Prop where
  closed : g.FollowClosed g.firstTable (fun nt => (table.get nt).atEnd = true)
    (fun nt t => (table.get nt).terminals.contains t = true)
  within : ∀ atEnd next, g.FollowClosed g.firstTable atEnd next →
    ∀ nt, FollowWithin (table.get nt) (atEnd nt) (next nt)

variable {table table' : FollowTable g.arena.size}

theorem LeastFollow.isFollowOf (h : g.LeastFollow table) (hg : g.WellFormed) (nt : Nat) :
    g.IsFollowOf (table.get nt) nt := by
  obtain ⟨hend, hnext⟩ := h.within _ _ hg.followClosed_occurs nt
  -- The grammar is one whose symbols exist, so a list that is cut off at the arena loses nothing.
  have hexists : ∀ {before after t}, g.Occurs before nt (.terminal t :: after) →
      t < g.arena.size := by
    intro before after t hoccurs
    apply hg.symbolsExist.of_derivesForm hoccurs _ (.terminal t)
    · simp
    · intro s hs
      rw [List.mem_singleton.1 hs]
      exact hg.1
  have hterminal : ∀ t, (table.get nt).terminals.contains t = true ↔
      ∃ before after, g.Occurs before nt (.terminal t :: after) := by
    intro t
    refine ⟨hnext t, ?_⟩
    rintro ⟨before, after, hoccurs⟩
    obtain ⟨-, hfirst, -⟩ := h.closed.of_occurs hg hoccurs
    exact hfirst t (FirstTable.contains_ofSymbols_terminal (hexists hoccurs) after)
  refine ⟨hterminal, ⟨hend, ?_⟩, fun t => ?_⟩
  · rintro ⟨before, hoccurs⟩
    obtain ⟨-, -, hempty⟩ := h.closed.of_occurs hg hoccurs
    exact hempty rfl
  · rw [IndexSet.mem_toList_iff, and_iff_right_iff_imp]
    intro ht
    obtain ⟨before, after, hoccurs⟩ := (hterminal t).1 ht
    exact hexists hoccurs

/-- Each of two least tables holds nothing beyond the other one. -/
theorem LeastFollow.unique (h : g.LeastFollow table) (h' : g.LeastFollow table')
    (hlength : table.length = table'.length) : table = table' := by
  have hget : ∀ nt, table.get nt = table'.get nt := by
    intro nt
    obtain ⟨hend, hnext⟩ := h.within _ _ h'.closed nt
    obtain ⟨hend', hnext'⟩ := h'.within _ _ h.closed nt
    apply FollowSet.ext_contains
    · exact Bool.eq_iff_iff.2 ⟨hend, hend'⟩
    · exact fun t => Bool.eq_iff_iff.2 ⟨hnext t, hnext' t⟩
  exact ext_getD hlength hget

/-- Adding to all sets at once leads to the least table. -/
theorem WellFormed.leastFollow_followTable (hg : g.WellFormed) :
    g.LeastFollow (g.followTable g.firstTable) := by
  -- Each place of a non-terminal in a reachable production is one of the recorded occurrences.
  have hoccurrence : ∀ head ∈ g.reachable, ∀ production ∈ g.productionsOf head,
      ∀ before nt after, production.symbols = before ++ .nonTerminal nt :: after →
        (⟨nt, head, g.firstTable.ofSymbols after⟩ : Occurrence g.arena.size) ∈
          g.occurrences g.firstTable ∧ nt < g.size := by
    intro head hreach production hmem before nt after hsymbols
    obtain ⟨p, hp⟩ := List.mem_iff_getElem?.1 hmem
    refine ⟨mem_occurrences_iff.2 ⟨head, hreach, production, hmem, before, after, hsymbols, rfl⟩, ?_⟩
    exact (hg.isFirstOf_after hp hsymbols).1
  refine ⟨⟨covers_start_nil hg.1, ?_, ?_⟩, fun atEnd next h => h.within_followTable⟩
  · intro head hreach production hmem before nt after hsymbols t ht
    obtain ⟨ho, hlt⟩ := hoccurrence head hreach production hmem before nt after hsymbols
    apply (mem_followTable_of_occurrence ho hlt).2
    unfold Occurrence.follow
    split
    · rw [FollowSet.union, IndexSet.contains_union, ht, Bool.true_or]
    · exact ht
  · intro head hreach production hmem before nt after hsymbols he
    obtain ⟨ho, hlt⟩ := hoccurrence head hreach production hmem before nt after hsymbols
    obtain ⟨hend, hnext⟩ := mem_followTable_of_occurrence ho hlt
    unfold Occurrence.follow at hend hnext
    rw [if_pos he] at hend hnext
    refine ⟨fun hhead => ?_, fun t ht => ?_⟩
    · apply hend
      rw [FollowSet.union, hhead, Bool.or_true]
    · apply hnext
      rw [FollowSet.union, IndexSet.contains_union, ht, Bool.or_true]

end Grammar

/-! ## The table completed in place -/

namespace FollowTable

variable {n : Nat}

/-- Adds terminals to the set of a non-terminal, one after the other. -/
def addTerminals (nt : Nat) (ts : List Nat) : Change (FollowTable n) :=
  Change.inOrder (ts.map fun t => Change.atEntry nt (FollowSet.addTerminal t))

/-- Adds what follows another non-terminal, the end first and then the terminals in the given order. -/
def addFollow (order : IndexSet n → List Nat) (nt head : Nat) : Change (FollowTable n) :=
  Change.reading fun table =>
    Change.andThen
      (if (table.get head).atEnd then Change.atEntry nt FollowSet.addAtEnd else Change.skip)
      (addTerminals nt (order (table.get head).terminals))

/-- Adds what an occurrence says about its target. Nothing is added to the set of the head itself for
standing at the end. -/
def addOccurrence (order : IndexSet n → List Nat) (o : Occurrence n) : Change (FollowTable n) :=
  (addTerminals o.target o.rest.terminals.toList).andThen
    (if o.rest.empty ∧ o.head ≠ o.target then addFollow order o.target o.head else Change.skip)

variable {order : IndexSet n → List Nat} {nt head : Nat} {ts : List Nat} {o : Occurrence n}

theorem truthful_of_mem_addTerminals (h : ∀ t ∈ ts, t < n) {f : Change (FollowTable n)}
    (hf : f ∈ ts.map fun t => Change.atEntry nt (FollowSet.addTerminal t)) :
    Change.Truthful (totalRoom FollowSet.room) f := by
  obtain ⟨t, ht, rfl⟩ := List.mem_map.1 hf
  exact (FollowSet.truthful_addTerminal (h t ht)).atEntry nt

theorem truthful_addTerminals (h : ∀ t ∈ ts, t < n) :
    Change.Truthful (totalRoom FollowSet.room) (addTerminals nt ts : Change (FollowTable n)) :=
  Change.truthful_inOrder fun _ hf => truthful_of_mem_addTerminals h hf

theorem truthful_addAtEnd (nt : Nat) (c : Prop) [Decidable c] :
    Change.Truthful (totalRoom FollowSet.room)
      (if c then Change.atEntry nt FollowSet.addAtEnd else Change.skip : Change (FollowTable n)) := by
  split
  · exact FollowSet.truthful_addAtEnd.atEntry nt
  · exact Change.truthful_skip

theorem truthful_addFollow (horder : ∀ s, (order s).Perm s.toList) :
    Change.Truthful (totalRoom FollowSet.room) (addFollow order nt head) := by
  apply Change.truthful_reading
  intro table
  apply Change.Truthful.andThen
  · exact truthful_addAtEnd nt _
  · apply truthful_addTerminals
    intro t ht
    exact (IndexSet.mem_toList_iff.1 ((horder _).mem_iff.1 ht)).1

theorem truthful_addOccurrence (horder : ∀ s, (order s).Perm s.toList) :
    Change.Truthful (totalRoom FollowSet.room) (addOccurrence order o) := by
  apply Change.Truthful.andThen
  · apply truthful_addTerminals
    exact fun t ht => (IndexSet.mem_toList_iff.1 ht).1
  · split
    · exact truthful_addFollow horder
    · exact Change.truthful_skip

/-! ### Where nothing is left to add -/

variable {table : FollowTable n}

theorem contains_of_idle_addTerminals (hnt : nt < table.length) (hts : ∀ t ∈ ts, t < n)
    (h : (addTerminals nt ts).Idle table) {t : Nat} (ht : t ∈ ts) :
    (table.get nt).terminals.contains t = true := by
  have hidle := (Change.Truthful.idle_inOrder_iff fun _ hf =>
    truthful_of_mem_addTerminals hts hf).1 h _ (List.mem_map_of_mem ht)
  have hnew : (!(table.get nt).terminals.contains t) = false :=
    congrArg Prod.fst (Change.idle_of_idle_atEntry hidle hnt .none)
  exact (Bool.not_eq_false' _).mp hnew

/-- Where an occurrence has nothing to add, the set of its target has the terminals of the rest, and
what follows the head if the rest can be empty. -/
theorem mem_of_idle_addOccurrence (horder : ∀ s, (order s).Perm s.toList)
    (htarget : o.target < table.length) (h : (addOccurrence order o).Idle table) :
    (∀ t ∈ o.rest.terminals.toList, (table.get o.target).terminals.contains t = true) ∧
      (o.rest.empty = true →
        ((table.get o.head).atEnd = true → (table.get o.target).atEnd = true) ∧
        ∀ t ∈ (table.get o.head).terminals.toList,
          (table.get o.target).terminals.contains t = true) := by
  have hrest : ∀ t ∈ o.rest.terminals.toList, t < n := fun t ht => (IndexSet.mem_toList_iff.1 ht).1
  obtain ⟨hfirst, hlast⟩ := (truthful_addTerminals hrest).idle_andThen_iff.1 h
  refine ⟨fun t ht => contains_of_idle_addTerminals htarget hrest hfirst ht, fun he => ?_⟩
  by_cases hself : o.head = o.target
  · -- The set itself has what it has.
    rw [hself]
    exact ⟨id, fun t ht => (IndexSet.mem_toList_iff.1 ht).2⟩
  · rw [if_pos ⟨he, hself⟩] at hlast
    -- The set of the head is that of the table: the changes before have made no difference.
    obtain ⟨hend, hterminals⟩ := (truthful_addAtEnd o.target _).idle_andThen_iff.1 hlast
    refine ⟨fun hhead => ?_, fun t ht => ?_⟩
    · rw [if_pos hhead] at hend
      have hnew : (!(table.get o.target).atEnd) = false :=
        congrArg Prod.fst (Change.idle_of_idle_atEntry hend htarget .none)
      exact (Bool.not_eq_false' _).mp hnew
    · apply contains_of_idle_addTerminals htarget _ hterminals ((horder _).mem_iff.2 ht)
      intro t ht
      exact (IndexSet.mem_toList_iff.1 ((horder _).mem_iff.1 ht)).1

/-! ### What an occurrence keeps -/

/-- All sets keep to the predicates. -/
def Within (atEnd : Nat → Prop) (next : Nat → Nat → Prop) (table : FollowTable n) : Prop :=
  ∀ nt, Grammar.FollowWithin (table.get nt) (atEnd nt) (next nt)

variable {atEnd : Nat → Prop} {next : Nat → Nat → Prop}

theorem keeps_within_atEntry {f : Change (FollowSet n)}
    (hf : Change.Keeps (fun a => Grammar.FollowWithin a (atEnd nt) (next nt)) f) :
    Change.Keeps (Within atEnd next) (Change.atEntry nt f : Change (FollowTable n)) :=
  Change.keeps_entries_atEntry (Q := fun nt a => Grammar.FollowWithin a (atEnd nt) (next nt)) hf

theorem keeps_within_addTerminals (h : ∀ t ∈ ts, next nt t) :
    Change.Keeps (Within atEnd next) (addTerminals nt ts : Change (FollowTable n)) := by
  apply Change.keeps_inOrder
  intro f hf
  obtain ⟨t, ht, rfl⟩ := List.mem_map.1 hf
  apply keeps_within_atEntry
  intro a ha
  refine ⟨ha.1, fun t' ht' => ?_⟩
  have ht' : (a.terminals.insert t).contains t' = true := ht'
  rw [IndexSet.contains_insert, Bool.or_eq_true, Bool.and_eq_true] at ht'
  rcases ht' with ht' | ⟨-, heq⟩
  · exact ha.2 t' ht'
  · rw [← of_decide_eq_true heq]
    exact h t ht

/-- An occurrence keeps the table within predicates that are closed under it. -/
theorem keeps_within_addOccurrence (horder : ∀ s, (order s).Perm s.toList)
    (hrest : ∀ t, o.rest.terminals.contains t = true → next o.target t)
    (hlast : o.rest.empty = true →
      (atEnd o.head → atEnd o.target) ∧ ∀ t, next o.head t → next o.target t) :
    Change.Keeps (Within atEnd next) (addOccurrence order o) := by
  apply Change.Keeps.andThen
  · -- What the rest of the production begins with.
    apply keeps_within_addTerminals
    intro t ht
    exact hrest t (IndexSet.mem_toList_iff.1 ht).2
  · -- What follows the head, where the rest can be empty. The set of the head is read when its turn
    -- comes, after the first change.
    split
    · rename_i hempty
      obtain ⟨hend, hnext⟩ := hlast hempty.1
      apply Change.keeps_reading
      intro table htable
      apply Change.Keeps.andThen
      · split
        · rename_i hhead
          apply keeps_within_atEntry
          intro a ha
          exact ⟨fun _ => hend ((htable o.head).1 hhead), ha.2⟩
        · exact Change.keeps_skip
      · apply keeps_within_addTerminals
        intro t ht
        have hcontains := (IndexSet.mem_toList_iff.1 ((horder _).mem_iff.1 ht)).2
        exact hnext t ((htable o.head).2 t hcontains)
    · exact Change.keeps_skip

/-- An occurrence keeps what adding a terminal and adding the end keep. -/
theorem keeps_addOccurrence {P : FollowTable n → Prop}
    (hterminal : ∀ nt t, Change.Keeps P (Change.atEntry nt (FollowSet.addTerminal t)))
    (hend : ∀ nt, Change.Keeps P (Change.atEntry nt FollowSet.addAtEnd)) :
    Change.Keeps P (addOccurrence order o) := by
  have hterminals : ∀ nt ts, Change.Keeps P (addTerminals nt ts) := by
    intro nt ts
    apply Change.keeps_inOrder
    intro f hf
    obtain ⟨t, -, rfl⟩ := List.mem_map.1 hf
    exact hterminal nt t
  apply Change.Keeps.andThen
  · exact hterminals _ _
  · split
    · apply Change.keeps_reading
      intro table _
      apply Change.Keeps.andThen
      · split
        · exact hend _
        · exact Change.keeps_skip
      · exact hterminals _ _
    · exact Change.keeps_skip

end FollowTable

namespace Grammar

variable {g : Grammar}

/-- The non-terminals in the productions, one production after the other, where the head was collected
from the start. -/
def sweptOccurrences (g : Grammar) (first : FirstTable g.arena.size) :
    List (Occurrence g.arena.size) :=
  g.numberedProductions.flatMap fun (head, _, production) =>
    if head ∈ Reach.collect g.size g.mentioned [g.start] [g.start] then
      occurrencesIn first head production.symbols
    else []

/-- Adds what the occurrences say, one after the other. The order in which the terminals of a set are
listed may be another one each time. -/
def followSweep (g : Grammar) (order : Nat → IndexSet g.arena.size → List Nat) :
    Change (FollowTable g.arena.size) :=
  Change.inOrder ((g.sweptOccurrences g.firstTable).zipIdx.map fun (o, i) =>
    FollowTable.addOccurrence (order i) o)

/-- Only the order of the occurrences is another one. -/
theorem mem_sweptOccurrences_iff {first : FirstTable g.arena.size} (hstart : g.start < g.size)
    {o : Occurrence g.arena.size} :
    o ∈ g.sweptOccurrences first ↔ o ∈ g.occurrences first := by
  have hcollect : ∀ head, head ∈ Reach.collect g.size g.mentioned [g.start] [g.start] ↔
      head ∈ g.reachable := by
    intro head
    rw [Reach.mem_collect_iff, reachable, if_pos hstart]
  unfold sweptOccurrences occurrences
  simp only [List.mem_flatMap, Prod.exists, mem_numberedProductions_iff]
  constructor
  · rintro ⟨head, p, production, hp, ho⟩
    split at ho
    · rename_i hhead
      exact ⟨head, (hcollect head).1 hhead, production, List.mem_of_getElem? hp, ho⟩
    · exact absurd ho List.not_mem_nil
  · rintro ⟨head, hhead, production, hmem, ho⟩
    obtain ⟨p, hp⟩ := List.mem_iff_getElem?.1 hmem
    refine ⟨head, p, production, hp, ?_⟩
    rwa [if_pos ((hcollect head).2 hhead)]

section Sweep

variable {order : Nat → IndexSet g.arena.size → List Nat}

/-- Each change of a sweep belongs to an occurrence. -/
theorem exists_of_mem_followSweep (hstart : g.start < g.size)
    {f : Change (FollowTable g.arena.size)}
    (hf : f ∈ (g.sweptOccurrences g.firstTable).zipIdx.map fun (o, i) =>
      FollowTable.addOccurrence (order i) o) :
    ∃ o ∈ g.occurrences g.firstTable, ∃ i, f = FollowTable.addOccurrence (order i) o := by
  obtain ⟨⟨o, i⟩, hmem, rfl⟩ := List.mem_map.1 hf
  exact ⟨o, (mem_sweptOccurrences_iff hstart).1 (List.fst_mem_of_mem_zipIdx hmem), i, rfl⟩

theorem truthful_of_mem_followSweep (hstart : g.start < g.size)
    (horder : ∀ i s, (order i s).Perm s.toList) {f : Change (FollowTable g.arena.size)}
    (hf : f ∈ (g.sweptOccurrences g.firstTable).zipIdx.map fun (o, i) =>
      FollowTable.addOccurrence (order i) o) : Change.Truthful (totalRoom FollowSet.room) f := by
  obtain ⟨o, -, i, rfl⟩ := exists_of_mem_followSweep hstart hf
  exact FollowTable.truthful_addOccurrence (horder i)

theorem truthful_followSweep (hstart : g.start < g.size)
    (horder : ∀ i s, (order i s).Perm s.toList) :
    Change.Truthful (totalRoom FollowSet.room) (g.followSweep order) :=
  Change.truthful_inOrder fun _ hf => truthful_of_mem_followSweep hstart horder hf

theorem keeps_followSweep {P : FollowTable g.arena.size → Prop} (hstart : g.start < g.size)
    (hterminal : ∀ nt t, Change.Keeps P (Change.atEntry nt (FollowSet.addTerminal t)))
    (hend : ∀ nt, Change.Keeps P (Change.atEntry nt FollowSet.addAtEnd)) :
    Change.Keeps P (g.followSweep order) := by
  apply Change.keeps_inOrder
  intro f hf
  obtain ⟨o, -, i, rfl⟩ := exists_of_mem_followSweep hstart hf
  exact FollowTable.keeps_addOccurrence hterminal hend

theorem keeps_length_followSweep (hstart : g.start < g.size) :
    Change.Keeps (fun table => table.length = g.size) (g.followSweep order) :=
  keeps_followSweep hstart (fun nt _ => Change.keeps_length_atEntry _ nt _)
    fun nt => Change.keeps_length_atEntry _ nt _

/-- The end of the input goes on following the start. -/
theorem keeps_atEnd_followSweep (hstart : g.start < g.size) :
    Change.Keeps (fun table => ∀ nt, nt = g.start → (table.get nt).atEnd = true)
      (g.followSweep order) := by
  have hentry : ∀ {nt : Nat} {f : Change (FollowSet g.arena.size)},
      Change.Keeps (fun a => nt = g.start → a.atEnd = true) f →
        Change.Keeps (fun table => ∀ nt, nt = g.start → (FollowTable.get table nt).atEnd = true)
          (Change.atEntry nt f) :=
    Change.keeps_entries_atEntry (Q := fun nt a => nt = g.start → FollowSet.atEnd a = true)
  apply keeps_followSweep hstart (fun nt t => hentry ?_) fun nt => hentry ?_
  · exact fun _ ha => ha
  · exact fun _ _ _ => rfl

/-- The sweeps keep within predicates that are closed under the rules of FOLLOW sets. -/
theorem FollowClosed.keeps_within_followSweep {atEnd : Nat → Prop} {next : Nat → Nat → Prop}
    (h : g.FollowClosed g.firstTable atEnd next) (hstart : g.start < g.size)
    (horder : ∀ i s, (order i s).Perm s.toList) :
    Change.Keeps (FollowTable.Within atEnd next) (g.followSweep order) := by
  apply Change.keeps_inOrder
  intro f hf
  obtain ⟨o, ho, i, rfl⟩ := exists_of_mem_followSweep hstart hf
  obtain ⟨head, hreach, production, hmem, before, after, hsymbols, heq⟩ := mem_occurrences_iff.1 ho
  apply FollowTable.keeps_within_addOccurrence (horder i)
  · rw [heq]
    exact h.rest head hreach production hmem before o.target after hsymbols
  · rw [heq]
    exact h.last head hreach production hmem before o.target after hsymbols

/-- Where a sweep makes no difference, no occurrence has anything to add. -/
theorem WellFormed.exists_idle_addOccurrence (hg : g.WellFormed)
    (horder : ∀ i s, (order i s).Perm s.toList) {table : FollowTable g.arena.size}
    (hidle : (g.followSweep order).Idle table) {head nt p : Nat} {production : Production}
    {before after : List Symbol} (hreach : head ∈ g.reachable)
    (hp : g.production? head p = some production)
    (hsymbols : production.symbols = before ++ .nonTerminal nt :: after) :
    ∃ i, (FollowTable.addOccurrence (order i)
      ⟨nt, head, g.firstTable.ofSymbols after⟩).Idle table := by
  have ho : (⟨nt, head, g.firstTable.ofSymbols after⟩ : Occurrence g.arena.size) ∈
      g.sweptOccurrences g.firstTable := by
    apply (mem_sweptOccurrences_iff hg.1).2
    apply mem_occurrences_iff.2
    exact ⟨head, hreach, production, List.mem_of_getElem? hp, before, after, hsymbols, rfl⟩
  -- The number of the occurrence is that of the order in which it lists terminals.
  obtain ⟨i, hi⟩ := List.mem_iff_getElem?.1 ho
  refine ⟨i, ?_⟩
  apply (Change.Truthful.idle_inOrder_iff fun _ hf =>
    truthful_of_mem_followSweep hg.1 horder hf).1 hidle
  exact List.mem_map.2 ⟨(_, i), List.mem_zipIdx_iff_getElem?.2 hi, rfl⟩

/-- No terminal follows that does not exist. -/
theorem WellFormed.followClosed_lt (hg : g.WellFormed) :
    g.FollowClosed g.firstTable (fun _ => True) (fun _ t => t < g.arena.size) := by
  refine ⟨trivial, ?_, fun _ _ _ _ _ _ _ _ _ => ⟨id, fun _ => id⟩⟩
  intro head _ production hmem before nt after hsymbols t ht
  obtain ⟨p, hp⟩ := List.mem_iff_getElem?.1 hmem
  have hlisted := ((hg.isFirstOf_after hp hsymbols).2.listed t).2 ht
  exact (IndexSet.mem_toList_iff.1 hlisted).1

end Sweep

section Rounds

variable {order : Nat → Nat → IndexSet g.arena.size → List Nat}

/-- Where the sweeps end, there is the least table. -/
theorem WellFormed.leastFollow_of_settles (hg : g.WellFormed)
    (horder : ∀ k i s, (order k i s).Perm s.toList) {table : FollowTable g.arena.size}
    (h : Change.Settles (fun k => g.followSweep (order k)) 0 g.followStart table) :
    g.LeastFollow table ∧ table.length = g.size := by
  have hstart := hg.1
  have hlength : table.length = g.size := by
    apply h.keeps fun _ => keeps_length_followSweep hstart
    simp [followStart]
  have hwithin : ∀ {atEnd : Nat → Prop} {next : Nat → Nat → Prop},
      g.FollowClosed g.firstTable atEnd next → FollowTable.Within atEnd next table := by
    intro atEnd next hclosed
    apply h.keeps fun k => hclosed.keeps_within_followSweep hstart (horder k)
    exact hclosed.within_followStart
  -- The last sweep, and the order of its own.
  obtain ⟨k, hsweep⟩ := h.exists_idle fun k => truthful_followSweep hstart (horder k)
  refine ⟨⟨⟨?_, ?_, ?_⟩, fun atEnd next hclosed => hwithin hclosed⟩, hlength⟩
  · apply h.keeps (fun _ => keeps_atEnd_followSweep hstart) _ g.start rfl
    rintro nt rfl
    simp [FollowTable.get, followStart, hstart]
  · intro head hreach production hmem before nt after hsymbols t ht
    obtain ⟨p, hp⟩ := List.mem_iff_getElem?.1 hmem
    obtain ⟨i, hadded⟩ := hg.exists_idle_addOccurrence (horder k) hsweep hreach hp hsymbols
    have hlt : nt < table.length := hlength ▸ (hg.isFirstOf_after hp hsymbols).1
    have hrest := (FollowTable.mem_of_idle_addOccurrence (horder k i) hlt hadded).1
    exact hrest t (((hg.isFirstOf_after hp hsymbols).2.listed t).2 ht)
  · intro head hreach production hmem before nt after hsymbols he
    obtain ⟨p, hp⟩ := List.mem_iff_getElem?.1 hmem
    obtain ⟨i, hadded⟩ := hg.exists_idle_addOccurrence (horder k) hsweep hreach hp hsymbols
    have hlt : nt < table.length := hlength ▸ (hg.isFirstOf_after hp hsymbols).1
    obtain ⟨hend, hnext⟩ := (FollowTable.mem_of_idle_addOccurrence (horder k i) hlt hadded).2 he
    -- The set of the head has no terminals beyond the arena, so all of them are listed.
    refine ⟨hend, fun t ht => hnext t ?_⟩
    exact IndexSet.mem_toList_iff.2 ⟨(hwithin hg.followClosed_lt head).2 t ht, ht⟩

/-- The sweeps end, and only with the table to which adding to all sets at once leads, however the
terminals of a set are listed. -/
theorem WellFormed.settles_followSweep_iff (hg : g.WellFormed)
    (horder : ∀ k i s, (order k i s).Perm s.toList) {table : FollowTable g.arena.size} :
    Change.Settles (fun k => g.followSweep (order k)) 0 g.followStart table ↔
      table = g.followTable g.firstTable := by
  obtain ⟨table', hsettles⟩ := Change.exists_settles
    (fun k => truthful_followSweep hg.1 (horder k)) 0 g.followStart
  obtain ⟨hleast, hlength⟩ := hg.leastFollow_of_settles horder hsettles
  have heq : table' = g.followTable g.firstTable :=
    hleast.unique hg.leastFollow_followTable (by rw [hlength, length_followTable])
  rw [hsettles.eq_iff, heq]

end Rounds

/-- What can be reached from the start is what occurs in the forms that it derives. -/
theorem WellFormed.mem_reachable_iff (hg : g.WellFormed) {nt : Nat} :
    nt ∈ g.reachable ↔ ∃ before after,
      g.DerivesForm [.nonTerminal g.start] (before ++ .nonTerminal nt :: after) := by
  constructor
  · exact exists_occurs_of_mem_reachable
  · rintro ⟨before, after, hoccurs⟩
    exact (hg.followClosed_occurs.of_occurs hg hoccurs).1

/-- FOLLOW sets are exact, for every grammar whose start and symbols exist: the sweeps over the
productions end with the table, in whatever order the terminals of a set are listed each time; the set
of each non-terminal tells exactly which terminals come right after it in the forms that the start
derives and whether it ends one of them; and the set of a non-terminal that cannot be reached, which
occurs in none of these forms, is empty. -/
theorem followTable_exact (hg : g.WellFormed) :
    (∀ order : Nat → Nat → IndexSet g.arena.size → List Nat,
      (∀ k i s, (order k i s).Perm s.toList) → ∀ table,
        Change.Settles (fun k => g.followSweep (order k)) 0 g.followStart table ↔
          table = g.followTable g.firstTable) ∧
      (∀ nt, g.IsFollowOf ((g.followTable g.firstTable).get nt) nt) ∧
      (∀ nt, nt ∈ g.reachable ↔ ∃ before after,
        g.DerivesForm [.nonTerminal g.start] (before ++ .nonTerminal nt :: after)) ∧
      ∀ nt, nt ∉ g.reachable → (g.followTable g.firstTable).get nt = .none := by
  have hexact := hg.leastFollow_followTable.isFollowOf hg
  refine ⟨fun order horder table => ?_, hexact, fun nt => ?_, fun nt hnt => ?_⟩
  · exact hg.settles_followSweep_iff horder
  · exact hg.mem_reachable_iff
  · -- What is in the set would be an occurrence.
    apply FollowSet.ext_contains
    · apply Bool.eq_false_iff.2
      intro hend
      obtain ⟨before, hoccurs⟩ := (hexact nt).atEnd.1 hend
      exact hnt (hg.mem_reachable_iff.2 ⟨before, [], hoccurs⟩)
    · intro t
      rw [show (FollowSet.none : FollowSet g.arena.size).terminals = IndexSet.empty from rfl,
        IndexSet.contains_empty]
      apply Bool.eq_false_iff.2
      intro ht
      obtain ⟨before, after, hoccurs⟩ := ((hexact nt).terminal t).1 ht
      exact hnt (hg.mem_reachable_iff.2 ⟨before, _, hoccurs⟩)

theorem followTable_exact_circularGrammar :
    circularGrammar.WellFormed ∧
      Change.Settles (fun _ => circularGrammar.followSweep fun _ s => s.toList.reverse) 0
        circularGrammar.followStart (circularGrammar.followTable circularGrammar.firstTable) ∧
      (∃ before after, circularGrammar.DerivesForm [.nonTerminal 0]
        (before ++ .nonTerminal 1 :: .terminal 0 :: after)) ∧
      (∃ before, circularGrammar.DerivesForm [.nonTerminal 0] (before ++ [.nonTerminal 1])) ∧
      (¬ ∃ before after, circularGrammar.DerivesForm [.nonTerminal 0]
        (before ++ .nonTerminal 1 :: .terminal 1 :: after)) ∧
      (circularGrammar.followTable circularGrammar.firstTable).get 2 = .none := by
  have hg : circularGrammar.WellFormed := by
    decide
  have hreachable : circularGrammar.reachable = [0, 1] := by
    cbv
  obtain ⟨hsettles, hexact, -, hapart⟩ := followTable_exact hg
  refine ⟨hg, ?_, ((hexact 1).terminal 0).1 ?_, (hexact 1).atEnd.1 ?_, ?_, hapart 2 ?_⟩
  · apply (hsettles (fun _ _ s => s.toList.reverse) _ _).2 rfl
    exact fun _ _ s => s.toList.reverse_perm
  · cbv
  · cbv
  · have hother : ((circularGrammar.followTable circularGrammar.firstTable).get
        1).terminals.contains 1 = false := by
      cbv
    intro hoccurs
    rw [((hexact 1).terminal 1).2 hoccurs] at hother
    exact absurd hother.symm Bool.false_ne_true
  · rw [hreachable]
    decide

end Grammar

end SmallLang
