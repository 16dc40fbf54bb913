import SmallLang.Proofs.Inlining.Ladder
import SmallLang.Proofs.Renumbering.Lookahead

/-!
# What comes first with one more operator

An infix operator on a non-terminal `e` that cannot be empty changes no FIRST set: old non-terminals begin
with what they began with, and the atoms begin with what `e` did (`Grammar.Inlines.begins_inlineAt_iff`,
`Grammar.Inlines.begins_inlineAt_atom_iff`).
-/

set_option autoImplicit false

namespace SmallLang

open List (Forall₂)

namespace Grammar

/-- The FIRST set of the non-terminal has the empty text. -/
def Nullable (g : Grammar) (nt : Nat) : Prop := (g.firstTable.get nt).empty = true

instance (g : Grammar) (nt : Nat) : Decidable (g.Nullable nt) :=
  inferInstanceAs (Decidable (_ = true))

/-- The FIRST set of the non-terminal has the terminal. -/
def Begins (g : Grammar) (nt t : Nat) : Prop := (g.firstTable.get nt).terminals.contains t = true

/-! ## Rows that begin with more -/

section Rows

variable {empty empty' : Nat → Prop} {first first' : Nat → Nat → Prop}

/-- The second symbol begins with whatever the first one begins with. -/
inductive SymbolLe (empty empty' : Nat → Prop) (first first' : Nat → Nat → Prop) :
    Symbol → Symbol → Prop
  | terminal (i : Nat) : SymbolLe empty empty' first first' (.terminal i) (.terminal i)
  | nonTerminal {i j : Nat} (hempty : empty i → empty' j) (hfirst : ∀ t, first i t → first' j t) :
      SymbolLe empty empty' first first' (.nonTerminal i) (.nonTerminal j)

variable {ss ss' : List Symbol} (h : Forall₂ (SymbolLe empty empty' first first') ss ss')
include h

theorem NullRow.mono (hrow : NullRow empty ss) : NullRow empty' ss' := by
  induction h with
  | nil => exact fun s hs => absurd hs List.not_mem_nil
  | cons hs _ ih =>
      intro s hmem
      rcases List.mem_cons.1 hmem with rfl | hmem
      · obtain ⟨i, rfl, hi⟩ := hrow _ List.mem_cons_self
        cases hs with
        | nonTerminal hempty _ => exact ⟨_, rfl, hempty hi⟩
      · exact ih (fun s hs => hrow s (List.mem_cons_of_mem _ hs)) s hmem

theorem FirstInRow.mono {t : Nat} (hrow : FirstInRow empty first ss t) :
    FirstInRow empty' first' ss' t := by
  induction h with
  | nil => exact hrow
  | cons hs _ ih =>
      cases hs with
      | terminal i => exact hrow
      | nonTerminal hempty hfirst =>
          exact hrow.imp (hfirst t) fun ⟨hi, hrest⟩ => ⟨hempty hi, ih hrest⟩

end Rows

theorem forall₂_self {R : Symbol → Symbol → Prop} {ss : List Symbol} (h : ∀ s ∈ ss, R s s) :
    Forall₂ R ss ss :=
  List.forall₂_same.2 h

variable {g : Grammar} {e types size : Nat} {o : AddedInfix}

/-! ## Closures and atoms -/

theorem WellFormed.hasSymbol_of_mem (hg : g.WellFormed) {i : Nat} {p : Production}
    (hp : p ∈ g.productionsOf i) {s : Symbol} (hs : s ∈ p.symbols) : g.HasSymbol s := by
  obtain ⟨k, hk⟩ := mem_productionsOf_iff.1 hp
  exact hg.hasSymbol hk hs

/-- A non-terminal begins with whatever its alternatives begin with. -/
theorem WellFormed.begins_of_mem_unitClosure (hg : g.WellFormed) {m t : Nat}
    (hm : m ∈ g.unitClosure e) (ht : g.Begins m t) : g.Begins e t := by
  have hpath := mem_unitClosure_iff.1 hm
  clear hm
  induction hpath with
  | refl => exact ht
  | tail _ hstep ih =>
      obtain ⟨p, hp, htarget, -⟩ := hstep
      obtain ⟨i, hi⟩ := mem_productionsOf_iff.1 hp
      refine ih (hg.firstClosed_firstTable.terminal _ i p t hi ?_)
      rw [(Production.unitTarget?_eq_some_iff.1 htarget).1]
      exact Or.inl ht

theorem WellFormed.nullable_of_mem_unitClosure (hg : g.WellFormed) {m : Nat}
    (hm : m ∈ g.unitClosure e) (hnull : g.Nullable m) : g.Nullable e := by
  have hpath := mem_unitClosure_iff.1 hm
  clear hm
  induction hpath with
  | refl => exact hnull
  | tail _ hstep ih =>
      obtain ⟨p, hp, htarget, -⟩ := hstep
      obtain ⟨i, hi⟩ := mem_productionsOf_iff.1 hp
      refine ih (hg.firstClosed_firstTable.nullable _ i p hi fun s hs => ?_)
      rw [(Production.unitTarget?_eq_some_iff.1 htarget).1] at hs
      obtain rfl := List.mem_singleton.1 hs
      exact ⟨_, rfl, hnull⟩

/-- What can be empty after the step: what could be before, and the tail. -/
def InlinedNullable (g : Grammar) (nt : Nat) : Prop := nt < g.size ∧ g.Nullable nt ∨ nt = g.size + 1

/-- What comes first after the step: what came first before, where the operator's type and the atoms stand
for `e`, and the operator's literal. -/
def InlinedBegins (g : Grammar) (e nt t : Nat) : Prop :=
  nt < g.size ∧ g.Begins nt t ∨ (nt = g.size ∨ nt = g.size + 2) ∧ g.Begins e t ∨
    (nt = g.size + 1 ∨ nt = g.size + 3) ∧ t = g.arena.size

/-- An atom of a non-terminal that cannot be empty cannot be empty. -/
theorem WellFormed.not_nullRow_of_mem_atomsOf (hg : g.WellFormed) (hempty : ¬ g.Nullable e)
    {p : Production} (hp : p ∈ g.atomsOf e) : ¬ NullRow g.Nullable p.symbols := by
  obtain ⟨m, hm, hpm, -⟩ := mem_atomsOf_iff.1 hp
  obtain ⟨i, hi⟩ := mem_productionsOf_iff.1 hpm
  intro hrow
  exact hempty (hg.nullable_of_mem_unitClosure hm (hg.firstClosed_firstTable.nullable m i p hi hrow))

namespace Operatorless

variable (h : g.Operatorless types size e)
include h

/-- An atom and what the step makes of it are related symbol by symbol, where the operand is related to
itself and to the atoms. -/
theorem forall₂_atomProduction {R : Symbol → Symbol → Prop} (p : Production)
    (hself : ∀ s ∈ p.symbols, R s s) (hatom : R (.nonTerminal e) (.nonTerminal (g.size + 2))) :
    Forall₂ R p.symbols ((g.inlineLadder e o).atomProduction p).symbols := by
  rcases h.symbols_atomProduction (o := o) p with heq | ⟨before, x, hp, hx, heq⟩
  · rw [heq]
    exact forall₂_self hself
  · rw [heq, hp]
    have hbefore : ∀ s ∈ before, R s s := fun s hs => hself s (by rw [hp]; exact List.mem_append_left _ hs)
    have hlast : R (.nonTerminal e) (.nonTerminal e) :=
      hself _ (by rw [hp]; exact List.mem_append_right _ List.mem_cons_self)
    refine List.rel_append (forall₂_self hbefore) (.cons ?_ .nil)
    rcases hx with rfl | rfl
    · exact hlast
    · exact hatom

end Operatorless

/-- The second symbol is the first one, or the atoms where the first one is the operand. -/
def Turned (g : Grammar) (e : Nat) (s s' : Symbol) : Prop :=
  s' = s ∨ s = .nonTerminal e ∧ s' = .nonTerminal (g.size + 2)

/-! ## No set grows -/

/-- A non-terminal without operators that cannot be empty, and an operator that is added on it. -/
structure Inlines (types size : Nat) (g : Grammar) (e : Nat) (o : AddedInfix) : Prop extends
    Operatorless types size g e where
  wellFormed : g.WellFormed
  wellFormed_inlineAt : (g.inlineAt e o).WellFormed
  nonempty : ¬ g.Nullable e

namespace Inlines

variable (h : g.Inlines types size e o)
include h

/-- Old symbols keep to the sets from before. -/
theorem symbolLe_inlined {i : Nat} {p : Production} (hp : p ∈ g.productionsOf i) :
    ∀ s ∈ p.symbols, SymbolLe g.InlinedNullable g.Nullable (g.InlinedBegins e) g.Begins s s := by
  intro s hs
  have hsymbol := h.wellFormed.hasSymbol_of_mem hp hs
  cases s with
  | terminal t => exact .terminal t
  | nonTerminal j =>
      have hj : j < g.size := hsymbol
      refine .nonTerminal (fun hnull => (hnull.resolve_right (by omega)).2) fun t ht => ?_
      rcases ht with ht | ⟨hj', -⟩ | ⟨hj', -⟩
      · exact ht.2
      · omega
      · omega

omit h in
theorem not_inlinedNullable_atom (g : Grammar) : ¬ g.InlinedNullable (g.size + 2) := by
  simp [InlinedNullable]

omit h in
theorem inlinedBegins_atom_iff {t : Nat} : g.InlinedBegins e (g.size + 2) t ↔ g.Begins e t := by
  simp [InlinedBegins]

/-- So do the atoms, by what they were before. -/
theorem symbolsLe_inlined_atom {p : Production} (hp : p ∈ g.atomsOf e) :
    Forall₂ (SymbolLe g.InlinedNullable g.Nullable (g.InlinedBegins e) g.Begins)
      ((g.inlineLadder e o).atomProduction p).symbols p.symbols := by
  obtain ⟨m, -, hpm, -⟩ := mem_atomsOf_iff.1 hp
  refine (h.forall₂_atomProduction (o := o)
    (R := fun s s' => SymbolLe g.InlinedNullable g.Nullable (g.InlinedBegins e) g.Begins s' s) p
    (h.symbolLe_inlined hpm) (.nonTerminal (fun hnull => ?_) fun t ht => ?_)).flip
  · exact absurd hnull (not_inlinedNullable_atom g)
  · exact inlinedBegins_atom_iff.1 ht

theorem inlinedNullable_of_row {nt : Nat} {p : Production} (hp : g.Inlined e o nt p)
    (hrow : NullRow g.InlinedNullable p.symbols) : g.InlinedNullable nt := by
  cases hp with
  | old hi hie hp =>
      obtain ⟨k, hk⟩ := mem_productionsOf_iff.1 hp
      have hold := NullRow.mono (forall₂_self (h.symbolLe_inlined hp)) hrow
      exact Or.inl ⟨hi, h.wellFormed.firstClosed_firstTable.nullable nt k p hk hold⟩
  | self =>
      obtain ⟨j, hj, hnull⟩ := hrow _ List.mem_cons_self
      obtain rfl := Symbol.nonTerminal.inj hj
      exact absurd hnull (not_inlinedNullable_atom g)
  | type =>
      obtain ⟨j, hj, hnull⟩ := hrow _ List.mem_cons_self
      obtain rfl := Symbol.nonTerminal.inj hj
      exact absurd hnull (not_inlinedNullable_atom g)
  | operator hi =>
      obtain ⟨x, rest, hsymbols, -⟩ := h.symbols_tailProduction (o := o)
      rw [hsymbols] at hrow
      obtain ⟨j, hj, -⟩ := hrow _ List.mem_cons_self
      exact Symbol.noConfusion hj
  | ending => exact Or.inr rfl
  | @atom q hq =>
      have hold := NullRow.mono (h.symbolsLe_inlined_atom hq) hrow
      exact absurd hold (h.wellFormed.not_nullRow_of_mem_atomsOf h.nonempty hq)

theorem inlinedBegins_of_row {nt t : Nat} {p : Production} (hp : g.Inlined e o nt p)
    (hrow : FirstInRow g.InlinedNullable (g.InlinedBegins e) p.symbols t) : g.InlinedBegins e nt t := by
  -- Whatever begins with the atoms begins with what `e` did.
  have hatoms : ∀ {x}, FirstInRow g.InlinedNullable (g.InlinedBegins e)
      [.nonTerminal (g.size + 2), .nonTerminal x] t → g.Begins e t := fun hrow =>
    inlinedBegins_atom_iff.1 (hrow.resolve_right fun hnull => not_inlinedNullable_atom g hnull.1)
  cases hp with
  | old hi hie hp =>
      obtain ⟨k, hk⟩ := mem_productionsOf_iff.1 hp
      have hold := FirstInRow.mono (forall₂_self (h.symbolLe_inlined hp)) hrow
      exact Or.inl ⟨hi, h.wellFormed.firstClosed_firstTable.terminal nt k p t hk hold⟩
  | self => exact Or.inl ⟨h.lt, hatoms hrow⟩
  | type => exact Or.inr (Or.inl ⟨Or.inl rfl, hatoms hrow⟩)
  | operator hi =>
      obtain ⟨x, rest, hsymbols, -⟩ := h.symbols_tailProduction (o := o)
      rw [hsymbols] at hrow
      exact Or.inr (Or.inr ⟨hi, hrow⟩)
  | ending => exact hrow.elim
  | @atom q hq =>
      obtain ⟨m, hm, hqm, -⟩ := mem_atomsOf_iff.1 hq
      obtain ⟨k, hk⟩ := mem_productionsOf_iff.1 hqm
      have hold := FirstInRow.mono (h.symbolsLe_inlined_atom hq) hrow
      have ht := h.wellFormed.firstClosed_firstTable.terminal m k q t hk hold
      exact Or.inr (Or.inl ⟨Or.inr rfl, h.wellFormed.begins_of_mem_unitClosure hm ht⟩)

/-- The sets after the step keep to those from before. -/
theorem firstClosed_inlineAt :
    (g.inlineAt e o).FirstClosed g.InlinedNullable (g.InlinedBegins e) := by
  refine ⟨fun nt i p hp hrow => ?_, fun nt i p t hp hrow => ?_⟩
  · have hform := (h.mem_productionsOf_inlineAt_iff).1 (mem_productionsOf_iff.2 ⟨i, hp⟩)
    exact h.inlinedNullable_of_row hform hrow
  · have hform := (h.mem_productionsOf_inlineAt_iff).1 (mem_productionsOf_iff.2 ⟨i, hp⟩)
    exact h.inlinedBegins_of_row hform hrow

theorem inlinedNullable_of_nullable {nt : Nat} (hnull : (g.inlineAt e o).Nullable nt) :
    g.InlinedNullable nt :=
  ((h.firstClosed_inlineAt).within_firstTable nt).1 hnull

theorem inlinedBegins_of_begins {nt t : Nat} (ht : (g.inlineAt e o).Begins nt t) :
    g.InlinedBegins e nt t :=
  ((h.firstClosed_inlineAt).within_firstTable nt).2 t ht

/-! ## No set shrinks -/

/-- What begins an atom in the sets after the step begins the non-terminal of the atoms. -/
theorem begins_atom_of_row {m t : Nat} (hm : m ∈ g.unitClosure e) {p : Production}
    (hp : p ∈ g.productionsOf m)
    (hrow : FirstInRow (g.inlineAt e o).Nullable (fun nt t => (g.inlineAt e o).Begins nt t ∧
      (nt ∈ g.unitClosure e → (g.inlineAt e o).Begins (g.size + 2) t)) p.symbols t) :
    (g.inlineAt e o).Begins (g.size + 2) t := by
  obtain ⟨i, hi⟩ := mem_productionsOf_iff.1 hp
  rcases operator_or_atom_or_unit hm hi with hop | hatom | ⟨target, htarget, hunit⟩
  · rw [h.noOperator] at hop
    exact absurd hop List.not_mem_nil
  · obtain ⟨k, hk⟩ := mem_productionsOf_iff.1
      ((h.mem_productionsOf_inlineAt_iff (o := o)).2 (.atom hatom))
    refine h.wellFormed_inlineAt.firstClosed_firstTable.terminal _ k _ t hk (FirstInRow.mono ?_ hrow)
    refine h.forall₂_atomProduction p (fun s _ => ?_) (.nonTerminal (fun hnull => ?_) ?_)
    · cases s with
      | terminal t => exact .terminal t
      | nonTerminal j => exact .nonTerminal id fun t ht => ht.1
    · have hold := h.inlinedNullable_of_nullable hnull
      have heg := h.lt
      exact absurd (hold.resolve_right (by omega)).2 h.nonempty
    · exact fun t ht => ht.2 (self_mem_unitClosure g e)
  · rw [(Production.unitTarget?_eq_some_iff.1 hunit).1] at hrow
    exact (hrow.resolve_right fun hrest => hrest.2).2 htarget

/-- The sets from before keep to those after the step. -/
theorem firstClosed_of_inlineAt :
    g.FirstClosed (g.inlineAt e o).Nullable fun nt t => (g.inlineAt e o).Begins nt t ∧
      (nt ∈ g.unitClosure e → (g.inlineAt e o).Begins (g.size + 2) t) := by
  have hsame : ∀ {p : Production}, ∀ s ∈ p.symbols, SymbolLe (g.inlineAt e o).Nullable
      (g.inlineAt e o).Nullable (fun nt t => (g.inlineAt e o).Begins nt t ∧
        (nt ∈ g.unitClosure e → (g.inlineAt e o).Begins (g.size + 2) t))
      (g.inlineAt e o).Begins s s := by
    intro p s _
    cases s with
    | terminal t => exact .terminal t
    | nonTerminal j => exact .nonTerminal id fun t ht => ht.1
  refine ⟨fun nt i p hp hrow => ?_, fun nt i p t hp hrow => ⟨?_, fun hm => ?_⟩⟩
  · have hmem := mem_productionsOf_iff.2 ⟨i, hp⟩
    by_cases hnt : nt = e
    · subst hnt
      -- The row could be empty before, and `e` could not.
      have hold : NullRow g.Nullable p.symbols := fun s hs => by
        obtain ⟨j, rfl, hj⟩ := hrow s hs
        have hlt : j < g.size := h.wellFormed.hasSymbol hp hs
        have hnull := h.inlinedNullable_of_nullable hj
        exact ⟨j, rfl, (hnull.resolve_right (by omega)).2⟩
      exact absurd (h.wellFormed.firstClosed_firstTable.nullable nt i p hp hold) h.nonempty
    · obtain ⟨k, hk⟩ := mem_productionsOf_iff.1 ((h.mem_productionsOf_inlineAt_iff (o := o)).2
        (.old (lt_size_of_production? hp) hnt hmem))
      exact h.wellFormed_inlineAt.firstClosed_firstTable.nullable nt k p hk hrow
  · have hmem := mem_productionsOf_iff.2 ⟨i, hp⟩
    by_cases hnt : nt = e
    · subst hnt
      have hatom := h.begins_atom_of_row (self_mem_unitClosure g nt) hmem hrow
      obtain ⟨k, hk⟩ := mem_productionsOf_iff.1
        ((h.mem_productionsOf_inlineAt_iff (o := o)).2 .self)
      exact h.wellFormed_inlineAt.firstClosed_firstTable.terminal nt k _ t hk (Or.inl hatom)
    · obtain ⟨k, hk⟩ := mem_productionsOf_iff.1 ((h.mem_productionsOf_inlineAt_iff (o := o)).2
        (.old (lt_size_of_production? hp) hnt hmem))
      exact h.wellFormed_inlineAt.firstClosed_firstTable.terminal nt k p t hk (FirstInRow.mono (forall₂_self hsame) hrow)
  · exact h.begins_atom_of_row hm (mem_productionsOf_iff.2 ⟨i, hp⟩) hrow

/-! ## The sets are the same -/

theorem nullable_inlineAt_iff {nt : Nat} (hnt : nt < g.size) :
    (g.inlineAt e o).Nullable nt ↔ g.Nullable nt := by
  refine ⟨fun hnull => ?_, fun hnull => ?_⟩
  · exact ((h.inlinedNullable_of_nullable hnull).resolve_right (by omega)).2
  · exact ((h.firstClosed_of_inlineAt).within_firstTable nt).1 hnull

theorem begins_inlineAt_iff {nt t : Nat} (hnt : nt < g.size) :
    (g.inlineAt e o).Begins nt t ↔ g.Begins nt t := by
  refine ⟨fun ht => ?_, fun ht => ?_⟩
  · rcases h.inlinedBegins_of_begins ht with ht | ⟨heq, -⟩ | ⟨heq, -⟩
    · exact ht.2
    · omega
    · omega
  · exact (((h.firstClosed_of_inlineAt).within_firstTable nt).2 t ht).1

theorem begins_inlineAt_atom_iff {t : Nat} :
    (g.inlineAt e o).Begins (g.size + 2) t ↔ g.Begins e t := by
  refine ⟨fun ht => ?_, fun ht => ?_⟩
  · exact inlinedBegins_atom_iff.1 (h.inlinedBegins_of_begins ht)
  · exact (((h.firstClosed_of_inlineAt).within_firstTable e).2 t ht).2
      (self_mem_unitClosure g e)

theorem not_nullable_atom : ¬ (g.inlineAt e o).Nullable (g.size + 2) := fun hnull =>
  not_inlinedNullable_atom g (h.inlinedNullable_of_nullable hnull)

theorem nullable_tail : (g.inlineAt e o).Nullable (g.size + 1) := by
  obtain ⟨k, hk⟩ := mem_productionsOf_iff.1 ((h.mem_productionsOf_inlineAt_iff (o := o)).2 .ending)
  exact h.wellFormed_inlineAt.firstClosed_firstTable.nullable _ k _ hk fun s hs =>
    absurd hs List.not_mem_nil

/-! ## Rows -/

theorem hasSymbol_inlineAt {s : Symbol} (hs : g.HasSymbol s) : (g.inlineAt e o).HasSymbol s := by
  cases s with
  | nonTerminal i => exact Nat.lt_of_lt_of_le hs (by rw [h.size_inlineAt]; omega)
  | terminal i =>
      refine Nat.lt_of_lt_of_le hs ?_
      rw [Operatorless.arena_inlineAt, arena_size_addInfix]
      omega

/-- Symbols that differ in operands only, which the atoms stand for, begin with the same. -/
theorem symbolLe_of_turned {s s' : Symbol} (hs : g.HasSymbol s) (hturned : g.Turned e s s') :
    SymbolLe g.Nullable (g.inlineAt e o).Nullable g.Begins (g.inlineAt e o).Begins s s' ∧
      SymbolLe (g.inlineAt e o).Nullable g.Nullable (g.inlineAt e o).Begins g.Begins s' s := by
  rcases hturned with rfl | ⟨rfl, rfl⟩
  · cases s' with
    | terminal i => exact ⟨.terminal i, .terminal i⟩
    | nonTerminal i =>
        have hi : i < g.size := hs
        exact ⟨.nonTerminal (h.nullable_inlineAt_iff hi).2 fun t => (h.begins_inlineAt_iff hi).2,
          .nonTerminal (h.nullable_inlineAt_iff hi).1 fun t => (h.begins_inlineAt_iff hi).1⟩
  · exact ⟨.nonTerminal (fun hnull => absurd hnull h.nonempty) fun t => h.begins_inlineAt_atom_iff.2,
      .nonTerminal (fun hnull => absurd hnull h.not_nullable_atom) fun t =>
        h.begins_inlineAt_atom_iff.1⟩

section Rows

variable {ss ss' : List Symbol} (hss : ∀ s ∈ ss, g.HasSymbol s)
  (hturned : Forall₂ (g.Turned e) ss ss')
include hss hturned

theorem empty_ofSymbols_inlineAt :
    ((g.inlineAt e o).firstTable.ofSymbols ss').empty = (g.firstTable.ofSymbols ss).empty := by
  have hboth := (List.forall₂_and_left ss ss').2 ⟨hss, hturned⟩
  rw [Bool.eq_iff_iff, FirstTable.empty_ofSymbols_iff, FirstTable.empty_ofSymbols_iff]
  exact ⟨NullRow.mono (hboth.imp fun s s' hpair => (h.symbolLe_of_turned hpair.1 hpair.2).2).flip,
    NullRow.mono (hboth.imp fun s s' hpair => (h.symbolLe_of_turned hpair.1 hpair.2).1)⟩

/-- A row begins with what it began with, also where the atoms stand for an operand. -/
theorem contains_ofSymbols_inlineAt (t : Nat) :
    ((g.inlineAt e o).firstTable.ofSymbols ss').terminals.contains t =
      (g.firstTable.ofSymbols ss).terminals.contains t := by
  have hboth := (List.forall₂_and_left ss ss').2 ⟨hss, hturned⟩
  have hss' : ∀ i, .terminal i ∈ ss' → i < (g.inlineAt e o).arena.size := by
    intro i hi
    obtain ⟨s, hs, hsymbol, heq | ⟨-, heq⟩⟩ := exists_of_forall₂_right hboth hi
    · rw [← heq] at hsymbol
      exact h.hasSymbol_inlineAt hsymbol
    · exact Symbol.noConfusion heq
  rw [Bool.eq_iff_iff, FirstTable.contains_ofSymbols_iff hss',
    FirstTable.contains_ofSymbols_iff fun i hi => hss _ hi]
  exact ⟨FirstInRow.mono (hboth.imp fun s s' hpair => (h.symbolLe_of_turned hpair.1 hpair.2).2).flip,
    FirstInRow.mono (hboth.imp fun s s' hpair => (h.symbolLe_of_turned hpair.1 hpair.2).1)⟩

end Rows

end Inlines

end Grammar

end SmallLang
