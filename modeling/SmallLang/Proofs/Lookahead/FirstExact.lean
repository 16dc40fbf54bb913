import SmallLang.Proofs.Lookahead.Form
import SmallLang.Proofs.Lookahead.InPlace

/-!
# FIRST sets are exact

A terminal is in the FIRST set of a row of symbols exactly if the row derives a form that begins with it,
and the set tells that the empty text is derived exactly if the row derives the empty form
(`Grammar.IsFirstOf`). This holds of every table that is closed under the productions and holds nothing
beyond predicates that are (`Grammar.Least`, `Grammar.Least.isFirstOf`): a replacement inside a form
never adds to the FIRST set of the form, and what a closed table takes from a production is derived.

There are two ways to the table. One adds to all sets at once what their productions have
(`Grammar.firstTable`). The other goes over the productions and adds to the table in place, symbol by
symbol, as long as a sweep makes a difference (`Grammar.firstSweep`). The sweeps end, and with the same
table (`Grammar.firstTable_exact`).
-/

set_option autoImplicit false

namespace SmallLang

/-! ## Sets -/

namespace IndexSet

variable {size : Nat}

theorem mem_toList_iff {s : IndexSet size} {i : Nat} :
    i ∈ s.toList ↔ i < size ∧ s.contains i = true := by
  rw [toList, List.mem_filter, List.mem_range]

theorem contains_insert (s : IndexSet size) (i j : Nat) :
    (s.insert i).contains j = (s.contains j || decide (i < wordBits size) && decide (i = j)) := by
  simp [contains, insert, BitVec.getLsbD_twoPow]

theorem insert_of_contains {s : IndexSet size} {i : Nat} (h : s.contains i = true) :
    s.insert i = s := by
  apply ext_contains
  intro j
  rw [contains_insert]
  by_cases hij : i = j
  · rw [← hij, h, Bool.true_or]
  · rw [decide_eq_false hij, Bool.and_false, Bool.or_false]

theorem insert_eq_union (s : IndexSet size) (i : Nat) : s.insert i = s.union (empty.insert i) := by
  simp [insert, union, empty]

theorem room_insert_lt {s : IndexSet size} {i : Nat} (hi : i < size) (h : s.contains i = false) :
    (s.insert i).room < s.room := by
  rw [insert_eq_union]
  apply room_union_lt
  intro heq
  rw [← insert_eq_union] at heq
  have hcontains := contains_insert s i i
  rw [heq, h, decide_eq_true (lt_wordBits hi), decide_eq_true rfl] at hcontains
  exact absurd hcontains Bool.false_ne_true

theorem truthful_add {i : Nat} (hi : i < size) :
    Change.Truthful room fun s : IndexSet size => s.add i := by
  refine ⟨fun s hs => ?_, fun s hs => ?_⟩
  · exact insert_of_contains ((Bool.not_eq_false' _).mp hs)
  · exact room_insert_lt hi ((Bool.not_eq_true' _).mp hs)

theorem truthful_addAll (t : IndexSet size) :
    Change.Truthful room fun s : IndexSet size => s.addAll t := by
  refine ⟨fun s hs => ?_, fun s hs => ?_⟩
  · exact bne_eq_false_iff_eq.1 hs
  · exact room_union_lt (bne_iff_ne.1 hs)

end IndexSet

namespace FirstSet

variable {n : Nat} {a b c : FirstSet n}

theorem empty_followedBy (a b : FirstSet n) :
    (a.followedBy b).empty = (a.empty && b.empty) := by
  unfold followedBy
  cases he : a.empty <;> simp [he]

theorem contains_followedBy (a b : FirstSet n) (t : Nat) :
    (a.followedBy b).terminals.contains t =
      (a.terminals.contains t || a.empty && b.terminals.contains t) := by
  unfold followedBy
  cases a.empty <;> simp [IndexSet.contains_union]

theorem followedBy_assoc (a b c : FirstSet n) :
    (a.followedBy b).followedBy c = a.followedBy (b.followedBy c) := by
  apply ext_contains
  · simp only [empty_followedBy, Bool.and_assoc]
  · intro t
    simp only [contains_followedBy, empty_followedBy]
    cases a.empty <;> simp [Bool.or_assoc]

theorem onlyEmpty_followedBy (a : FirstSet n) : onlyEmpty.followedBy a = a := by
  apply ext_contains
  · rw [empty_followedBy, onlyEmpty, Bool.true_and]
  · intro t
    rw [contains_followedBy, onlyEmpty, IndexSet.contains_empty, Bool.false_or, Bool.true_and]

theorem followedBy_onlyEmpty (a : FirstSet n) : a.followedBy onlyEmpty = a := by
  apply ext_contains
  · rw [empty_followedBy, onlyEmpty, Bool.and_true]
  · intro t
    rw [contains_followedBy, onlyEmpty, IndexSet.contains_empty, Bool.and_false, Bool.or_false]

theorem Includes.followedBy {a' b' : FirstSet n} (ha : a.Includes a') (hb : b.Includes b') :
    (a.followedBy b).Includes (a'.followedBy b') := by
  obtain ⟨hea, hta⟩ := includes_iff.1 ha
  obtain ⟨heb, htb⟩ := includes_iff.1 hb
  refine includes_iff.2 ⟨fun he => ?_, fun t ht => ?_⟩
  · rw [empty_followedBy, Bool.and_eq_true] at he ⊢
    exact ⟨hea he.1, heb he.2⟩
  · rw [contains_followedBy, Bool.or_eq_true, Bool.and_eq_true] at ht ⊢
    exact ht.imp (hta t) fun h => ⟨hea h.1, htb t h.2⟩

/-- Puts a terminal into the set. -/
def addTerminal (t : Nat) : Change (FirstSet n) := fun a =>
  ((a.terminals.add t).1, { a with terminals := (a.terminals.add t).2 })

/-- Puts all terminals of a set of terminals into the set. -/
def addTerminals (ts : IndexSet n) : Change (FirstSet n) := fun a =>
  ((a.terminals.addAll ts).1, { a with terminals := (a.terminals.addAll ts).2 })

/-- Puts the empty text into the set. -/
def addEmpty : Change (FirstSet n) := fun a => (!a.empty, { a with empty := true })

/-- A change to the terminals of a set tells the truth if it does so as a change to the terminals. -/
theorem truthful_terminals {f : Change (IndexSet n)} (h : Change.Truthful IndexSet.room f) :
    Change.Truthful room fun a : FirstSet n =>
      ((f a.terminals).1, { a with terminals := (f a.terminals).2 }) := by
  refine ⟨fun a ha => ?_, fun a ha => ?_⟩
  · show FirstSet.mk a.empty (f a.terminals).2 = a
    rw [h.unchanged a.terminals ha]
  · exact Nat.add_lt_add_left (h.room_lt a.terminals ha) _

theorem truthful_addTerminal {t : Nat} (ht : t < n) :
    Change.Truthful room (addTerminal t : Change (FirstSet n)) :=
  truthful_terminals (IndexSet.truthful_add ht)

theorem truthful_addTerminals (ts : IndexSet n) :
    Change.Truthful room (addTerminals ts : Change (FirstSet n)) :=
  truthful_terminals (IndexSet.truthful_addAll ts)

theorem truthful_addEmpty : Change.Truthful room (addEmpty : Change (FirstSet n)) := by
  refine ⟨fun a ha => ?_, fun a ha => ?_⟩
  · obtain ⟨e, ts⟩ := a
    have he : e = true := (Bool.not_eq_false' _).mp ha
    rw [he]
    rfl
  · have he : a.empty = false := (Bool.not_eq_true' _).mp ha
    show 0 + a.terminals.room < (if a.empty = true then 0 else 1) + a.terminals.room
    rw [he]
    exact Nat.add_lt_add_right Nat.zero_lt_one _

end FirstSet

/-! ## Forms -/

namespace FirstTable

variable {n : Nat} (table : FirstTable n)

theorem ofSymbols_append (u v : List Symbol) :
    table.ofSymbols (u ++ v) = (table.ofSymbols u).followedBy (table.ofSymbols v) := by
  induction u with
  | nil => exact (FirstSet.onlyEmpty_followedBy _).symm
  | cons s u ih =>
      show (table.ofSymbol s).followedBy (table.ofSymbols (u ++ v)) = _
      rw [ih, ofSymbols, FirstSet.followedBy_assoc]

theorem ofSymbols_singleton (s : Symbol) : table.ofSymbols [s] = table.ofSymbol s :=
  FirstSet.followedBy_onlyEmpty _

/-- The set of each non-terminal includes what its productions have by the table. -/
def Closed (g : Grammar) (table : FirstTable n) : Prop :=
  ∀ nt p production, g.production? nt p = some production →
    (table.get nt).Includes (table.ofSymbols production.symbols)

variable {table}

/-- A replacement inside a form takes nothing new to the front. -/
theorem Closed.includes_of_produces {g : Grammar} (h : table.Closed g) {u v : List Symbol}
    (huv : g.Produces u v) : (table.ofSymbols u).Includes (table.ofSymbols v) := by
  cases huv with
  | replace before after hp =>
      rw [ofSymbols_append, ofSymbols_append, ofSymbols, ofSymbols_append]
      apply FirstSet.Includes.followedBy (FirstSet.includes_refl _)
      apply FirstSet.Includes.followedBy _ (FirstSet.includes_refl _)
      exact h _ _ _ hp

theorem Closed.includes_of_derivesForm {g : Grammar} (h : table.Closed g) {u v : List Symbol}
    (huv : g.DerivesForm u v) : (table.ofSymbols u).Includes (table.ofSymbols v) := by
  induction huv with
  | refl => exact FirstSet.includes_refl _
  | tail _ hstep ih => exact ih.trans (h.includes_of_produces hstep)

theorem contains_ofSymbols_terminal {t : Nat} (ht : t < n) (rest : List Symbol) :
    (table.ofSymbols (.terminal t :: rest)).terminals.contains t = true := by
  have hlt := IndexSet.lt_wordBits ht
  show ((FirstSet.single t).followedBy _).terminals.contains t = true
  rw [FirstSet.contains_followedBy, FirstSet.single, IndexSet.contains_insert_empty,
    decide_eq_true hlt, decide_eq_true rfl, Bool.and_self, Bool.true_or]

end FirstTable

namespace Grammar

variable {g : Grammar}

/-- The set says exactly with which terminals the forms begin that the row derives, and whether the
empty form is one of them. Its list has no other terminals. -/
structure IsFirstOf (g : Grammar) (a : FirstSet g.arena.size) (ss : List Symbol) : Prop where
  terminal : ∀ t, a.terminals.contains t = true ↔ ∃ rest, g.DerivesForm ss (.terminal t :: rest)
  empty : a.empty = true ↔ g.DerivesForm ss []
  listed : ∀ t, t ∈ a.terminals.toList ↔ a.terminals.contains t = true

theorem IsFirstOf.unique {a b : FirstSet g.arena.size} {ss : List Symbol} (ha : g.IsFirstOf a ss)
    (hb : g.IsFirstOf b ss) : a = b := by
  apply FirstSet.ext_contains
  · rw [Bool.eq_iff_iff, ha.empty, hb.empty]
  · intro t
    rw [Bool.eq_iff_iff, ha.terminal, hb.terminal]

/-- The table is closed under the productions, and holds nothing beyond predicates that are. -/
structure Least (g : Grammar) (table : FirstTable g.arena.size) : Prop where
  closed : table.Closed g
  within : ∀ empty first, g.FirstClosed empty first →
    ∀ nt, Within (table.get nt) (empty nt) (first nt)

/-! ## What is derived is closed -/

theorem derivesForm_of_nullRow {ss : List Symbol}
    (h : NullRow (fun nt => g.DerivesForm [.nonTerminal nt] []) ss) : g.DerivesForm ss [] := by
  induction ss with
  | nil => exact .refl
  | cons s ss ih =>
      obtain ⟨i, rfl, hi⟩ := h s List.mem_cons_self
      exact DerivesForm.append_nil hi (ih fun s hs => h s (List.mem_cons_of_mem _ hs))

theorem exists_derivesForm_of_firstInRow {ss : List Symbol} {t : Nat}
    (h : FirstInRow (fun nt => g.DerivesForm [.nonTerminal nt] [])
      (fun nt t => ∃ rest, g.DerivesForm [.nonTerminal nt] (.terminal t :: rest)) ss t) :
    ∃ rest, g.DerivesForm ss (.terminal t :: rest) := by
  induction ss with
  | nil => exact absurd h id
  | cons s ss ih =>
      cases s with
      | terminal i =>
          obtain rfl : t = i := h
          exact ⟨ss, .refl⟩
      | nonTerminal i =>
          rcases h with ⟨rest, hrest⟩ | ⟨hempty, hfirst⟩
          · exact ⟨rest ++ ss, DerivesForm.append hrest .refl⟩
          · obtain ⟨rest, hrest⟩ := ih hfirst
            exact ⟨rest, DerivesForm.append_nil hempty hrest⟩

/-- What the non-terminals derive keeps to the productions. -/
theorem firstClosed_derivesForm (g : Grammar) :
    g.FirstClosed (fun nt => g.DerivesForm [.nonTerminal nt] [])
      (fun nt t => ∃ rest, g.DerivesForm [.nonTerminal nt] (.terminal t :: rest)) := by
  refine ⟨fun nt p production hp hnull => ?_, fun nt p production t hp hfirst => ?_⟩
  · exact .head (produces_production hp) (derivesForm_of_nullRow hnull)
  · obtain ⟨rest, hrest⟩ := exists_derivesForm_of_firstInRow hfirst
    exact ⟨rest, .head (produces_production hp) hrest⟩

/-! ## Exactness of the least table -/

variable {table : FirstTable g.arena.size}

/-- The set of a form is exact if all terminals in what it derives exist. -/
theorem Least.isFirstOf_of_terminals (h : g.Least table) {ss : List Symbol}
    (hss : ∀ t rest, g.DerivesForm ss (.terminal t :: rest) → t < g.arena.size) :
    g.IsFirstOf (table.ofSymbols ss) ss := by
  obtain ⟨hempty, hfirst⟩ :=
    within_ofSymbols (h.within _ _ g.firstClosed_derivesForm) ss
  have hterminal : ∀ t, (table.ofSymbols ss).terminals.contains t = true ↔
      ∃ rest, g.DerivesForm ss (.terminal t :: rest) := by
    intro t
    refine ⟨fun ht => exists_derivesForm_of_firstInRow (hfirst t ht), ?_⟩
    rintro ⟨rest, hrest⟩
    have hincludes := h.closed.includes_of_derivesForm hrest
    apply (FirstSet.includes_iff.1 hincludes).2
    exact FirstTable.contains_ofSymbols_terminal (hss t rest hrest) rest
  refine ⟨hterminal, ⟨fun he => derivesForm_of_nullRow (hempty he), fun hnil => ?_⟩, fun t => ?_⟩
  · have hincludes := h.closed.includes_of_derivesForm hnil
    exact (FirstSet.includes_iff.1 hincludes).1 rfl
  · rw [IndexSet.mem_toList_iff, and_iff_right_iff_imp]
    intro ht
    obtain ⟨rest, hrest⟩ := (hterminal t).1 ht
    exact hss t rest hrest

/-- The set of a row of symbols that exist is exact. -/
theorem Least.isFirstOf (h : g.Least table) (hg : g.SymbolsExist) {ss : List Symbol}
    (hss : ∀ s ∈ ss, g.HasSymbol s) : g.IsFirstOf (table.ofSymbols ss) ss := by
  apply h.isFirstOf_of_terminals
  intro t rest hrest
  exact hg.of_derivesForm hrest hss (.terminal t) List.mem_cons_self

/-- The set of a non-terminal is exact. -/
theorem Least.isFirstOf_get (h : g.Least table) (hg : g.SymbolsExist) (nt : Nat) :
    g.IsFirstOf (table.get nt) [.nonTerminal nt] := by
  have hset : table.ofSymbols [.nonTerminal nt] = table.get nt := table.ofSymbols_singleton _
  rw [← hset]
  apply h.isFirstOf_of_terminals
  intro t rest hrest
  rcases hg.of_derivesForm_nonTerminal hrest with heq | hall
  · exact absurd heq (by simp)
  · exact hall (.terminal t) List.mem_cons_self

/-- There is only one least table. -/
theorem Least.unique {table' : FirstTable g.arena.size} (hg : g.SymbolsExist) (h : g.Least table)
    (h' : g.Least table') (hlength : table.length = table'.length) : table = table' := by
  apply ext_getD hlength
  intro nt
  exact (h.isFirstOf_get hg nt).unique (h'.isFirstOf_get hg nt)

/-- Adding to all sets at once leads to the least table. -/
theorem least_firstTable (g : Grammar) : g.Least g.firstTable := by
  refine ⟨fun nt p production hp => ?_, fun empty first h => h.within_firstTable⟩
  have hnt := lt_size_of_production? hp
  have hproduction : (g.firstOfProductions g.firstTable nt).Includes
      (g.firstTable.ofSymbols production.symbols) :=
    FirstSet.includes_foldl_union (fun p : Production => g.firstTable.ofSymbols p.symbols)
      (List.mem_of_getElem? hp) _
  exact FirstSet.Includes.trans (includes_firstOfProductions hnt) hproduction

end Grammar

/-! ## The table completed in place -/

namespace FirstTable

variable {n : Nat}

/-- Adds the terminals of one set to another one. No set is added to itself. -/
def addSet (nt i : Nat) : Change (FirstTable n) :=
  if i = nt then Change.skip
  else Change.reading fun table => Change.atEntry nt (FirstSet.addTerminals (table.get i).terminals)

/-- Adds to the set of a non-terminal what a row of symbols has by the table, symbol by symbol up to the
first one that cannot be empty. -/
def addRow (nt : Nat) : List Symbol → Change (FirstTable n)
  | [] => Change.atEntry nt FirstSet.addEmpty
  | .terminal t :: _ => Change.atEntry nt (FirstSet.addTerminal t)
  | .nonTerminal i :: rest =>
      (addSet nt i).andThen
        (Change.reading fun table => if table.nullable i then addRow nt rest else Change.skip)

theorem truthful_addSet (nt i : Nat) :
    Change.Truthful (totalRoom FirstSet.room) (addSet nt i : Change (FirstTable n)) := by
  unfold addSet
  split
  · exact Change.truthful_skip
  · apply Change.truthful_reading
    intro table
    exact (FirstSet.truthful_addTerminals _).atEntry nt

/-- The changes of a row tell the truth if the terminals of the row exist. -/
theorem truthful_addRow {nt : Nat} {ss : List Symbol} (hss : ∀ t, .terminal t ∈ ss → t < n) :
    Change.Truthful (totalRoom FirstSet.room) (addRow nt ss : Change (FirstTable n)) := by
  induction ss with
  | nil => exact FirstSet.truthful_addEmpty.atEntry nt
  | cons s ss ih =>
      have ih := ih fun t ht => hss t (List.mem_cons_of_mem _ ht)
      cases s with
      | terminal t => exact (FirstSet.truthful_addTerminal (hss t List.mem_cons_self)).atEntry nt
      | nonTerminal i =>
          apply (truthful_addSet nt i).andThen
          apply Change.truthful_reading
          intro table
          split
          · exact ih
          · exact Change.truthful_skip

/-! ### Where nothing is left to add -/

theorem contains_of_idle_addSet {nt i : Nat} {table : FirstTable n} (hnt : nt < table.length)
    (h : (addSet nt i).Idle table) {t : Nat} (ht : (table.get i).terminals.contains t = true) :
    (table.get nt).terminals.contains t = true := by
  unfold addSet at h
  split at h
  · -- The set itself has what it has.
    rename_i heq
    rwa [← heq]
  · have hunion := congrArg (fun r => r.2.terminals)
      (Change.idle_of_idle_atEntry h hnt .none)
    have hunion : (table.get nt).terminals.union (table.get i).terminals =
      (table.get nt).terminals := hunion
    rw [← hunion, IndexSet.contains_union, ht, Bool.or_true]

/-- Where a row has nothing to add, the set includes what the row has. -/
theorem includes_of_idle_addRow {nt : Nat} {ss : List Symbol} {table : FirstTable n}
    (hnt : nt < table.length) (h : (addRow nt ss).Idle table) :
    (table.get nt).Includes (table.ofSymbols ss) := by
  induction ss with
  | nil =>
      have hempty : (!(table.get nt).empty) = false :=
        congrArg Prod.fst (Change.idle_of_idle_atEntry h hnt .none)
      refine FirstSet.includes_iff.2 ⟨fun _ => (Bool.not_eq_false' _).mp hempty, fun t ht => ?_⟩
      rw [ofSymbols, FirstSet.onlyEmpty, IndexSet.contains_empty] at ht
      exact absurd ht Bool.false_ne_true
  | cons s ss ih =>
      cases s with
      | terminal t =>
          have hnew : (!(table.get nt).terminals.contains t) = false :=
            congrArg Prod.fst (Change.idle_of_idle_atEntry h hnt .none)
          refine FirstSet.includes_iff.2 ⟨fun he => absurd he Bool.false_ne_true, fun t' ht' => ?_⟩
          have heq : t = t' := by
            rw [ofSymbols, FirstSet.contains_followedBy, ofSymbol, FirstSet.single,
              IndexSet.contains_insert_empty, Bool.false_and, Bool.or_false] at ht'
            exact of_decide_eq_true (Bool.and_eq_true_iff.1 ht').2
          rw [← heq]
          exact (Bool.not_eq_false' _).mp hnew
      | nonTerminal i =>
          obtain ⟨hfirst, hnext⟩ := (truthful_addSet nt i).idle_andThen_iff.1 h
          -- The rest of the row counts only if the symbol can be empty.
          have hrest : (table.get i).empty = true →
              (table.get nt).Includes (table.ofSymbols ss) := by
            intro hempty
            have hnext : (if (table.get i).empty then addRow nt ss else Change.skip).Idle table :=
              hnext
            rw [if_pos hempty] at hnext
            exact ih hnext
          rw [ofSymbols, ofSymbol]
          refine FirstSet.includes_iff.2 ⟨fun he => ?_, fun t ht => ?_⟩
          · rw [FirstSet.empty_followedBy, Bool.and_eq_true] at he
            exact (FirstSet.includes_iff.1 (hrest he.1)).1 he.2
          · rw [FirstSet.contains_followedBy, Bool.or_eq_true, Bool.and_eq_true] at ht
            rcases ht with ht | ⟨he, ht⟩
            · exact contains_of_idle_addSet hnt hfirst ht
            · exact (FirstSet.includes_iff.1 (hrest he)).2 t ht

/-! ### What a row keeps -/

/-- All sets keep to the predicates. -/
def Within (empty : Nat → Prop) (first : Nat → Nat → Prop) (table : FirstTable n) : Prop :=
  ∀ nt, Grammar.Within (table.get nt) (empty nt) (first nt)

variable {empty : Nat → Prop} {first : Nat → Nat → Prop}

theorem keeps_within_atEntry {nt : Nat} {f : Change (FirstSet n)}
    (hf : Change.Keeps (fun a => Grammar.Within a (empty nt) (first nt)) f) :
    Change.Keeps (Within empty first) (Change.atEntry nt f : Change (FirstTable n)) :=
  Change.keeps_entries_atEntry (Q := fun nt a => Grammar.Within a (empty nt) (first nt)) hf

theorem keeps_within_addTerminals {e : Prop} {f : Nat → Prop} {ts : IndexSet n}
    (h : ∀ t, ts.contains t = true → f t) :
    Change.Keeps (fun a => Grammar.Within a e f) (FirstSet.addTerminals ts) := by
  intro a ha
  refine ⟨ha.1, fun t ht => ?_⟩
  have ht : (a.terminals.union ts).contains t = true := ht
  rw [IndexSet.contains_union, Bool.or_eq_true] at ht
  exact ht.elim (ha.2 t) (h t)

theorem keeps_within_addTerminal {e : Prop} {f : Nat → Prop} {t : Nat} (h : f t) :
    Change.Keeps (fun a : FirstSet n => Grammar.Within a e f) (FirstSet.addTerminal t) := by
  intro a ha
  refine ⟨ha.1, fun t' ht' => ?_⟩
  have ht' : (a.terminals.insert t).contains t' = true := ht'
  rw [IndexSet.contains_insert, Bool.or_eq_true, Bool.and_eq_true] at ht'
  rcases ht' with ht' | ⟨-, heq⟩
  · exact ha.2 t' ht'
  · rwa [← of_decide_eq_true heq]

/-- A row of a production keeps the table within predicates that are closed under the production. -/
theorem keeps_within_addRow {nt : Nat} {ss : List Symbol}
    (hnull : Grammar.NullRow empty ss → empty nt)
    (hfirst : ∀ t, Grammar.FirstInRow empty first ss t → first nt t) :
    Change.Keeps (Within empty first) (addRow nt ss : Change (FirstTable n)) := by
  induction ss with
  | nil =>
      apply keeps_within_atEntry
      intro a ha
      exact ⟨fun _ => hnull fun s hs => absurd hs List.not_mem_nil, ha.2⟩
  | cons s ss ih =>
      cases s with
      | terminal t =>
          apply keeps_within_atEntry
          exact keeps_within_addTerminal (hfirst t rfl)
      | nonTerminal i =>
          -- First the set of the symbol is added, then the rest of the row if the symbol can be empty.
          apply Change.Keeps.andThen
          · unfold addSet
            split
            · exact Change.keeps_skip
            · apply Change.keeps_reading
              intro table htable
              apply keeps_within_atEntry
              apply keeps_within_addTerminals
              intro t ht
              exact hfirst t (Or.inl ((htable i).2 t ht))
          · apply Change.keeps_reading
            intro table htable
            split
            · -- The symbol can be empty, so the rest of the row is that of the production.
              rename_i hempty
              have hi : empty i := (htable i).1 hempty
              apply ih
              · intro hrest
                apply hnull
                intro s hs
                rcases List.mem_cons.1 hs with rfl | hs
                · exact ⟨i, rfl, hi⟩
                · exact hrest s hs
              · intro t ht
                exact hfirst t (Or.inr ⟨hi, ht⟩)
            · exact Change.keeps_skip

theorem keeps_length_addRow (m nt : Nat) (ss : List Symbol) :
    Change.Keeps (fun table => table.length = m) (addRow nt ss : Change (FirstTable n)) := by
  induction ss with
  | nil => exact Change.keeps_length_atEntry m nt _
  | cons s ss ih =>
      cases s with
      | terminal t => exact Change.keeps_length_atEntry m nt _
      | nonTerminal i =>
          apply Change.Keeps.andThen
          · unfold addSet
            split
            · exact Change.keeps_skip
            · apply Change.keeps_reading
              intro table _
              exact Change.keeps_length_atEntry m nt _
          · apply Change.keeps_reading
            intro table _
            split
            · exact ih
            · exact Change.keeps_skip

end FirstTable

namespace Grammar

variable {g : Grammar}

theorem mem_numberedProductions_iff {nt p : Nat} {production : Production} :
    (nt, p, production) ∈ g.numberedProductions ↔ g.production? nt p = some production := by
  unfold numberedProductions production? productionsOf
  simp only [List.mem_flatMap, List.mem_map, Prod.exists, List.mem_zipIdx_iff_getElem?]
  constructor
  · rintro ⟨n, i, hn, production', p', hp, heq⟩
    obtain ⟨rfl, rfl, rfl⟩ := by simpa using heq
    rw [hn]
    exact hp
  · intro h
    cases hn : g.nonTerminals[nt]? with
    | none => simp [hn] at h
    | some n =>
        rw [hn] at h
        exact ⟨n, nt, hn, production, p, h, rfl⟩

/-- Adds what each production has by the table, one production after the other. -/
def firstSweep (g : Grammar) : Change (FirstTable g.arena.size) :=
  Change.inOrder (g.numberedProductions.map fun (nt, _, production) =>
    FirstTable.addRow nt production.symbols)

/-- The table without anything in its sets. -/
def firstStart (g : Grammar) : FirstTable g.arena.size := List.replicate g.size .none

/-- Each change of a sweep belongs to a production. -/
theorem exists_of_mem_firstSweep {f : Change (FirstTable g.arena.size)}
    (hf : f ∈ g.numberedProductions.map fun (nt, _, production) =>
      FirstTable.addRow nt production.symbols) :
    ∃ nt p production, g.production? nt p = some production ∧
      f = FirstTable.addRow nt production.symbols := by
  obtain ⟨⟨nt, p, production⟩, hmem, rfl⟩ := List.mem_map.1 hf
  exact ⟨nt, p, production, mem_numberedProductions_iff.1 hmem, rfl⟩

theorem SymbolsExist.truthful_row (hg : g.SymbolsExist) {f : Change (FirstTable g.arena.size)}
    (hf : f ∈ g.numberedProductions.map fun (nt, _, production) =>
      FirstTable.addRow nt production.symbols) : Change.Truthful (totalRoom FirstSet.room) f := by
  obtain ⟨nt, p, production, hp, rfl⟩ := exists_of_mem_firstSweep hf
  apply FirstTable.truthful_addRow
  intro t ht
  exact hg.of_production hp (.terminal t) ht

theorem SymbolsExist.truthful_firstSweep (hg : g.SymbolsExist) :
    Change.Truthful (totalRoom FirstSet.room) g.firstSweep :=
  Change.truthful_inOrder fun _ hf => hg.truthful_row hf

theorem get_firstStart (g : Grammar) (nt : Nat) : g.firstStart.get nt = .none := by
  unfold FirstTable.get firstStart
  rw [List.getElem?_replicate]
  split <;> rfl

/-- The sweeps keep within predicates that are closed under the productions. -/
theorem FirstClosed.keeps_within_firstSweep {empty : Nat → Prop} {first : Nat → Nat → Prop}
    (h : g.FirstClosed empty first) :
    Change.Keeps (FirstTable.Within empty first) g.firstSweep := by
  apply Change.keeps_inOrder
  intro f hf
  obtain ⟨nt, p, production, hp, rfl⟩ := exists_of_mem_firstSweep hf
  apply FirstTable.keeps_within_addRow
  · exact h.nullable nt p production hp
  · exact fun t => h.terminal nt p production t hp

theorem keeps_length_firstSweep (g : Grammar) :
    Change.Keeps (fun table => table.length = g.size) g.firstSweep := by
  apply Change.keeps_inOrder
  intro f hf
  obtain ⟨nt, p, production, -, rfl⟩ := exists_of_mem_firstSweep hf
  exact FirstTable.keeps_length_addRow _ nt _

/-- Where the sweeps end, there is the least table. -/
theorem SymbolsExist.least_of_settles (hg : g.SymbolsExist) {table : FirstTable g.arena.size}
    (h : Change.Settles (fun _ => g.firstSweep) 0 g.firstStart table) :
    g.Least table ∧ table.length = g.size := by
  have hlength : table.length = g.size :=
    h.keeps (fun _ => g.keeps_length_firstSweep) List.length_replicate
  refine ⟨⟨fun nt p production hp => ?_, fun empty first hclosed => ?_⟩, hlength⟩
  · -- No production has anything to add any more.
    obtain ⟨-, hsweep⟩ := h.exists_idle fun _ => hg.truthful_firstSweep
    have hidle := (Change.Truthful.idle_inOrder_iff fun f hf => hg.truthful_row hf).1 hsweep
      (FirstTable.addRow nt production.symbols)
    apply FirstTable.includes_of_idle_addRow
    · rw [hlength]
      exact lt_size_of_production? hp
    · apply hidle
      exact List.mem_map.2 ⟨(nt, p, production), mem_numberedProductions_iff.2 hp, rfl⟩
  · apply h.keeps fun _ => hclosed.keeps_within_firstSweep
    intro nt
    rw [get_firstStart]
    exact within_none _ _

/-- The sweeps end, and only with the table to which adding to all sets at once leads. -/
theorem SymbolsExist.settles_firstSweep_iff (hg : g.SymbolsExist)
    {table : FirstTable g.arena.size} :
    Change.Settles (fun _ => g.firstSweep) 0 g.firstStart table ↔ table = g.firstTable := by
  obtain ⟨table', hsettles⟩ := Change.exists_settles (fun _ => hg.truthful_firstSweep) 0 g.firstStart
  obtain ⟨hleast, hlength⟩ := hg.least_of_settles hsettles
  have heq : table' = g.firstTable :=
    hleast.unique hg g.least_firstTable (by rw [hlength, length_firstTable])
  rw [hsettles.eq_iff, heq]

/-- FIRST sets are exact, for every grammar whose symbols exist: the sweeps over the productions end
with the table, the set of each non-terminal and of each row of symbols that exist tells exactly with
which terminals the derived forms begin and whether the empty form is one of them, and the set of a row
of one symbol is that of the symbol. -/
theorem firstTable_exact (hg : g.SymbolsExist) :
    (∀ table, Change.Settles (fun _ => g.firstSweep) 0 g.firstStart table ↔ table = g.firstTable) ∧
      (∀ nt, g.IsFirstOf (g.firstTable.get nt) [.nonTerminal nt]) ∧
      (∀ ss, (∀ s ∈ ss, g.HasSymbol s) → g.IsFirstOf (g.firstTable.ofSymbols ss) ss) ∧
      ∀ s, g.firstTable.ofSymbols [s] = g.firstTable.ofSymbol s := by
  refine ⟨fun table => ?_, fun nt => ?_, fun ss hss => ?_, fun s => ?_⟩
  · exact hg.settles_firstSweep_iff
  · exact g.least_firstTable.isFirstOf_get hg nt
  · exact g.least_firstTable.isFirstOf hg hss
  · exact g.firstTable.ofSymbols_singleton s

/-- Two non-terminals that can both be empty and come first in each other, and one apart from them. -/
def circularGrammar : Grammar :=
  { nonTerminals :=
      [⟨"Outer", [⟨[.nonTerminal 1, .nonTerminal 0, .terminal 0], .child 0, .default⟩,
        ⟨[.nonTerminal 1], .child 0, .default⟩]⟩,
      ⟨"Inner", [⟨[.nonTerminal 0, .nonTerminal 1], .child 0, .default⟩,
        ⟨[], .emptyList, .lowest⟩]⟩,
      ⟨"Apart", [⟨[.terminal 1, .nonTerminal 0], .child 1, .default⟩]⟩]
    arena := ⟨[.literal "x", .literal "y"]⟩
    start := 0 }

theorem firstTable_exact_circularGrammar :
    circularGrammar.SymbolsExist ∧ circularGrammar.DerivesForm [.nonTerminal 0] [] ∧
      (∃ rest, circularGrammar.DerivesForm [.nonTerminal 1] (.terminal 0 :: rest)) ∧
      (¬ ∃ rest, circularGrammar.DerivesForm [.nonTerminal 1] (.terminal 1 :: rest)) ∧
      circularGrammar.DerivesForm [.nonTerminal 0, .nonTerminal 1] [] := by
  have hg : circularGrammar.SymbolsExist := by
    decide
  obtain ⟨-, hget, hrow, -⟩ := firstTable_exact hg
  refine ⟨hg, (hget 0).empty.1 ?_, ((hget 1).terminal 0).1 ?_, ?_, ?_⟩
  · cbv
  · cbv
  · have hother : (circularGrammar.firstTable.get 1).terminals.contains 1 = false := by
      cbv
    rw [← (hget 1).terminal 1, hother]
    exact Bool.false_ne_true
  · exact (hrow [.nonTerminal 0, .nonTerminal 1] (by decide)).empty.1 (by cbv)

end Grammar

end SmallLang
