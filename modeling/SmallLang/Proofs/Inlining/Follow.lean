import SmallLang.Proofs.Inlining.First
import SmallLang.Proofs.Lookahead.LeftRecursionExact

/-!
# What comes next with one more operator

After an infix operator was added on `e`, an old non-terminal is followed by what followed it before and at
most by the operator's literal (`Grammar.Inlines.next_of_next_inlineAt`), and by nothing less unless it is an
alternative of `e` (`Grammar.Inlines.next_inlineAt_iff`): that one may no longer be reached, since the atoms
hold its productions. No left recursion comes about (`Grammar.Inlines.checkLeftRecursion_inlineAt`).
-/

set_option autoImplicit false

namespace SmallLang

open List (Forall₂)
open Relation (ReflTransGen TransGen)

namespace Grammar

variable {g : Grammar} {e types size : Nat} {o : AddedInfix}

/-- The input can end after the non-terminal. -/
def CanEnd (g : Grammar) (nt : Nat) : Prop := ((g.followTable g.firstTable).get nt).atEnd = true

/-- The terminal can come after the non-terminal. -/
def Next (g : Grammar) (nt t : Nat) : Prop :=
  ((g.followTable g.firstTable).get nt).terminals.contains t = true

theorem WellFormed.followClosed (hg : g.WellFormed) : g.FollowClosed g.firstTable g.CanEnd g.Next :=
  hg.leastFollow_followTable.closed

/-! ## Alternatives -/

theorem WellFormed.mem_reachable_of_mentioned (hg : g.WellFormed) {a b : Nat} (ha : a ∈ g.reachable)
    {p : Production} (hp : p ∈ g.productionsOf a) (hb : .nonTerminal b ∈ p.symbols) :
    b ∈ g.reachable :=
  mem_reachable_of_symbol ha hp hb (hg.hasSymbol_of_mem hp hb)

section Place

variable {a j : Nat} {p : Production} {before after : List Symbol} (hp : p ∈ g.productionsOf a)
  (hsymbols : p.symbols = before ++ .nonTerminal j :: after)
include hp hsymbols

/-- The non-terminal at a place in a production is there, and so is all that comes after it. -/
theorem WellFormed.hasSymbol_of_place (hg : g.WellFormed) :
    j < g.size ∧ ∀ s ∈ after, g.HasSymbol s := by
  have hmem : ∀ s ∈ Symbol.nonTerminal j :: after, g.HasSymbol s := fun s hs =>
    hg.hasSymbol_of_mem hp (by rw [hsymbols]; exact List.mem_append_right _ hs)
  exact ⟨hmem _ List.mem_cons_self, fun s hs => hmem s (List.mem_cons_of_mem _ hs)⟩

theorem WellFormed.mem_reachable_of_place (hg : g.WellFormed) (ha : a ∈ g.reachable) :
    j ∈ g.reachable := by
  refine hg.mem_reachable_of_mentioned ha hp ?_
  rw [hsymbols]
  exact List.mem_append_right _ List.mem_cons_self

end Place

/-- What is reached is reached from what is reached before. -/
theorem WellFormed.reachable_induction (hg : g.WellFormed) {motive : Nat → Prop}
    (start : motive g.start)
    (step : ∀ a b, a ∈ g.reachable → motive a → ∀ p ∈ g.productionsOf a, .nonTerminal b ∈ p.symbols →
      motive b) {nt : Nat} (hnt : nt ∈ g.reachable) : motive nt := by
  have hpath := hnt
  rw [reachable, if_pos hg.1, Reach.mem_reachable_iff] at hpath
  have hboth : nt ∈ g.reachable ∧ motive nt := by
    clear hnt
    induction hpath with
    | refl => exact ⟨start_mem_reachable hg.1, start⟩
    | tail _ hstep ih =>
        obtain ⟨p, hp, hb⟩ := mem_mentioned_iff.1 hstep.1
        exact ⟨hg.mem_reachable_of_mentioned ih.1 hp hb, step _ _ ih.1 ih.2 p hp hb⟩
  exact hboth.2

/-- An alternative of a non-terminal that is reached is reached, and followed by what follows that one. -/
theorem WellFormed.follow_of_mem_unitClosure (hg : g.WellFormed) (he : e ∈ g.reachable) {m : Nat}
    (hm : m ∈ g.unitClosure e) :
    m ∈ g.reachable ∧ (g.CanEnd e → g.CanEnd m) ∧ ∀ t, g.Next e t → g.Next m t := by
  have hpath := mem_unitClosure_iff.1 hm
  clear hm
  induction hpath with
  | refl => exact ⟨he, id, fun t ht => ht⟩
  | @tail a b _ hstep ih =>
      obtain ⟨p, hp, hunit, -⟩ := hstep
      have hsymbols := (Production.unitTarget?_eq_some_iff.1 hunit).1
      obtain ⟨hend, hnext⟩ := hg.followClosed.last _ ih.1 p hp [] b [] hsymbols rfl
      refine ⟨hg.mem_reachable_of_mentioned ih.1 hp (by rw [hsymbols]; exact List.mem_cons_self), ?_, ?_⟩
      · exact fun h => hend (ih.2.1 h)
      · exact fun t h => hnext t (ih.2.2 t h)

/-- A place in the second of two related rows is one in the first. -/
theorem exists_of_forall₂_append {R : Symbol → Symbol → Prop} {ss before after : List Symbol}
    {s' : Symbol} (h : Forall₂ R ss (before ++ s' :: after)) :
    ∃ before₀ s after₀, ss = before₀ ++ s :: after₀ ∧ R s s' ∧ Forall₂ R after₀ after := by
  obtain ⟨s, after₀, hs, hafter, hdrop⟩ := List.forall₂_cons_right_iff.1 (List.forall₂_drop_append _ _ _ h)
  exact ⟨_, s, after₀, by rw [← hdrop, List.take_append_drop], hs, hafter⟩

/-- The old non-terminal that a number belongs to: what the operator adds belongs to its operands. -/
def inlineOrigin (g : Grammar) (e nt : Nat) : Nat := if nt < g.size then nt else e

theorem inlineOrigin_of_lt {nt : Nat} (h : nt < g.size) : g.inlineOrigin e nt = nt := if_pos h

theorem inlineOrigin_of_le {nt : Nat} (h : g.size ≤ nt) : g.inlineOrigin e nt = e :=
  if_neg (Nat.not_lt.2 h)

/-- Ranks after the step: the atoms come right below `e`. -/
def inlineRank (g : Grammar) (e : Nat) (rank : Nat → Nat) (nt : Nat) : Nat :=
  if nt = g.size + 2 then 2 * rank e else 2 * rank (g.inlineOrigin e nt) + 1

theorem inlineRank_atom (rank : Nat → Nat) : g.inlineRank e rank (g.size + 2) = 2 * rank e :=
  if_pos rfl

theorem inlineRank_of_ne (rank : Nat → Nat) {nt : Nat} (hne : nt ≠ g.size + 2) :
    g.inlineRank e rank nt = 2 * rank (g.inlineOrigin e nt) + 1 :=
  if_neg hne

theorem inlineRank_le (rank : Nat → Nat) (nt : Nat) :
    g.inlineRank e rank nt ≤ 2 * rank (g.inlineOrigin e nt) + 1 := by
  by_cases heq : nt = g.size + 2
  · subst heq
    rw [inlineRank_atom, inlineOrigin_of_le (Nat.le_add_right _ _)]
    omega
  · rw [inlineRank_of_ne rank heq]

/-- A place belongs to the operator: head and symbol stand for `e`, and only the literal comes after. -/
def OfOperator (g : Grammar) (e : Nat) (o : AddedInfix) (nt j : Nat) (after : List Symbol) : Prop :=
  g.inlineOrigin e nt = e ∧ g.inlineOrigin e j = e ∧ ∀ t,
    ((g.inlineAt e o).firstTable.ofSymbols after).terminals.contains t = true → t = g.arena.size

namespace Inlines

variable (h : g.Inlines types size e o)
include h

/-! ## Places in productions -/

/-- A place in an atom after the step belongs to one before. -/
theorem exists_of_symbols_atomProduction {m : Nat} {p : Production} (hp : p ∈ g.productionsOf m)
    {before after' : List Symbol} {j' : Nat}
    (hsymbols : ((g.inlineLadder e o).atomProduction p).symbols =
      before ++ .nonTerminal j' :: after') :
    ∃ before₀ after, p.symbols = before₀ ++ .nonTerminal (g.inlineOrigin e j') :: after ∧
      (∀ s ∈ after, g.HasSymbol s) ∧ Forall₂ (g.Turned e) after after' := by
  have hturned := h.forall₂_atomProduction (o := o) (R := g.Turned e) p (fun s _ => Or.inl rfl)
    (Or.inr ⟨rfl, rfl⟩)
  rw [hsymbols] at hturned
  obtain ⟨before₀, s, after, hp', hs, hafter⟩ := exists_of_forall₂_append hturned
  have hs' : s = .nonTerminal (g.inlineOrigin e j') := by
    rcases hs with heq | ⟨rfl, heq⟩
    · rw [← heq] at hp' ⊢
      rw [inlineOrigin_of_lt (h.wellFormed.hasSymbol_of_place hp hp').1]
    · rw [Symbol.nonTerminal.inj heq, inlineOrigin_of_le (Nat.le_add_right _ _)]
  rw [hs'] at hp'
  exact ⟨before₀, after, hp', (h.wellFormed.hasSymbol_of_place hp hp').2, hafter⟩

/-- A place in an atom before the step stays, or it is the last one and the atoms stand there now. -/
theorem symbols_atomProduction_of_place {p : Production} {before after : List Symbol} {j : Nat}
    (hsymbols : p.symbols = before ++ .nonTerminal j :: after) :
    (∃ after', ((g.inlineLadder e o).atomProduction p).symbols = before ++ .nonTerminal j :: after' ∧
        Forall₂ (g.Turned e) after after') ∨
      j = e ∧ after = [] ∧
        ((g.inlineLadder e o).atomProduction p).symbols = before ++ [.nonTerminal (g.size + 2)] := by
  have hself : ∀ ss : List Symbol, Forall₂ (g.Turned e) ss ss := fun ss =>
    forall₂_self fun s _ => Or.inl rfl
  rcases h.symbols_atomProduction (o := o) p with heq | ⟨front, x, hp, hx, heq⟩
  · exact Or.inl ⟨after, by rw [heq, hsymbols], hself after⟩
  rcases List.eq_nil_or_concat after with rfl | ⟨rest, s, rfl⟩
  · obtain ⟨rfl, hj⟩ := List.append_inj' (hp.symm.trans hsymbols) rfl
    obtain rfl : e = j := Symbol.nonTerminal.inj (List.cons.inj hj).1
    rcases hx with rfl | rfl
    · exact Or.inl ⟨[], heq, .nil⟩
    · exact Or.inr ⟨rfl, rfl, heq⟩
  · -- The last symbol comes after the place.
    have hsplit : front ++ [.nonTerminal e] = (before ++ .nonTerminal j :: rest) ++ [s] := by
      rw [← hp, hsymbols, List.concat_eq_append, List.append_assoc, List.cons_append]
    obtain ⟨rfl, hs⟩ := List.append_inj' hsplit rfl
    obtain rfl := (List.cons.inj hs).1
    refine Or.inl ⟨rest ++ [.nonTerminal x], by rw [heq, List.append_assoc, List.cons_append], ?_⟩
    rw [List.concat_eq_append]
    refine List.rel_append (hself rest) (.cons ?_ .nil)
    rcases hx with rfl | rfl
    · exact Or.inl rfl
    · exact Or.inr ⟨rfl, rfl⟩

/-- What comes after a place in the productions of the ladder can begin with the operator's literal only. -/
theorem eq_of_contains_after {after : List Symbol} (hafter : after = [] ∨
    after = [.nonTerminal (g.size + 1)] ∨ after = [.nonTerminal (g.size + 3)]) {t : Nat}
    (ht : ((g.inlineAt e o).firstTable.ofSymbols after).terminals.contains t = true) :
    t = g.arena.size := by
  have hbegins : ∀ {i}, (g.inlineAt e o).Begins i t → i = g.size + 1 ∨ i = g.size + 3 →
      t = g.arena.size := by
    intro i ht hi
    rcases h.inlinedBegins_of_begins ht with ⟨hlt, -⟩ | ⟨heq, -⟩ | ⟨-, heq⟩
    · omega
    · omega
    · exact heq
  rcases hafter with rfl | rfl | rfl
  · exact absurd ht (by simp [FirstTable.ofSymbols, FirstSet.onlyEmpty])
  · rw [FirstTable.ofSymbols_singleton] at ht
    exact hbegins ht (Or.inl rfl)
  · rw [FirstTable.ofSymbols_singleton] at ht
    exact hbegins ht (Or.inr rfl)

/-- In the productions of the ladder two non-terminals come one after the other. -/
theorem ofOperator_pair {nt j x y : Nat} (hnt : g.inlineOrigin e nt = e) (hx : g.size ≤ x)
    (hy : y = g.size + 1 ∨ y = g.size + 3) {before after : List Symbol}
    (heq : [.nonTerminal x, .nonTerminal y] = before ++ .nonTerminal j :: after) :
    g.OfOperator e o nt j after := by
  rcases before with - | ⟨s, - | ⟨s', before⟩⟩
  · obtain ⟨hj, rfl⟩ := List.cons.inj heq
    obtain rfl := Symbol.nonTerminal.inj hj
    refine ⟨hnt, inlineOrigin_of_le hx, fun t => h.eq_of_contains_after (Or.inr ?_)⟩
    rcases hy with rfl | rfl
    · exact Or.inl rfl
    · exact Or.inr rfl
  · obtain ⟨hj, rfl⟩ := List.cons.inj (List.cons.inj heq).2
    obtain rfl := Symbol.nonTerminal.inj hj
    exact ⟨hnt, inlineOrigin_of_le (by omega), fun t => h.eq_of_contains_after (Or.inl rfl)⟩
  · simp at heq

/-- In the productions of the tail the operand comes after the literal, and the tail may come last. -/
theorem ofOperator_tail {nt j : Nat} (hnt : nt = g.size + 1 ∨ nt = g.size + 3)
    {before after : List Symbol}
    (heq : ((g.inlineLadder e o).tailProduction (g.inlineUse e o)).symbols =
      before ++ .nonTerminal j :: after) :
    g.OfOperator e o nt j after := by
  obtain ⟨x, rest, hp, hx, hrest⟩ := h.symbols_tailProduction (o := o)
  have hx' : g.inlineOrigin e x = e := by
    rcases hx with rfl | rfl
    · exact inlineOrigin_of_lt h.lt
    · exact inlineOrigin_of_le (Nat.le_add_right _ _)
  rw [hp] at heq
  refine ⟨inlineOrigin_of_le (by omega), ?_⟩
  rcases before with - | ⟨s, - | ⟨s', before⟩⟩
  · exact absurd (List.cons.inj heq).1 (by simp)
  · obtain ⟨hj, rfl⟩ := List.cons.inj (List.cons.inj heq).2
    obtain rfl := Symbol.nonTerminal.inj hj
    exact ⟨hx', fun t => h.eq_of_contains_after (hrest.imp id Or.inl)⟩
  · have htail := (List.cons.inj (List.cons.inj heq).2).2
    rcases hrest with rfl | rfl
    · simp at htail
    · obtain ⟨rfl, htail'⟩ | ⟨b, hb, hj⟩ := List.cons_eq_append_iff.1 htail
      · obtain ⟨hj, rfl⟩ := List.cons.inj htail'
        obtain rfl := Symbol.nonTerminal.inj hj
        exact ⟨inlineOrigin_of_le (Nat.le_add_right _ _), fun t => h.eq_of_contains_after (Or.inl rfl)⟩
      · simp at hj

/-- A place after the step belongs to a place before it in a production of an alternative, or to the
operator. -/
theorem place_inlined {nt j : Nat} {p : Production} (hp : g.Inlined e o nt p)
    {before after : List Symbol} (hsymbols : p.symbols = before ++ .nonTerminal j :: after) :
    (∃ m ∈ g.unitClosure (g.inlineOrigin e nt), ∃ q ∈ g.productionsOf m, ∃ before₀ after₀,
        q.symbols = before₀ ++ .nonTerminal (g.inlineOrigin e j) :: after₀ ∧
          (∀ s ∈ after₀, g.HasSymbol s) ∧ Forall₂ (g.Turned e) after₀ after) ∨
      g.OfOperator e o nt j after := by
  cases hp with
  | old hi hie hp =>
      obtain ⟨hlt, hafter⟩ := h.wellFormed.hasSymbol_of_place hp hsymbols
      exact Or.inl ⟨nt, by rw [inlineOrigin_of_lt hi]; exact self_mem_unitClosure g nt, p, hp, before,
        after, by rw [hsymbols, inlineOrigin_of_lt hlt], hafter, forall₂_self fun s _ => Or.inl rfl⟩
  | self =>
      exact Or.inr (h.ofOperator_pair (inlineOrigin_of_lt h.lt) (Nat.le_add_right _ _) (Or.inl rfl)
        hsymbols)
  | type =>
      exact Or.inr (h.ofOperator_pair (inlineOrigin_of_le (Nat.le_refl _)) (Nat.le_add_right _ _)
        (Or.inr rfl) hsymbols)
  | operator hi => exact Or.inr (h.ofOperator_tail hi hsymbols)
  | ending => simp [Ladder.endProduction] at hsymbols
  | @atom q hq =>
      obtain ⟨m, hm, hqm, -⟩ := mem_atomsOf_iff.1 hq
      obtain ⟨before₀, after₀, hq', hafter, hturned⟩ := h.exists_of_symbols_atomProduction hqm hsymbols
      refine Or.inl ⟨m, ?_, q, hqm, before₀, after₀, hq', hafter, hturned⟩
      rwa [inlineOrigin_of_le (Nat.le_add_right _ _)]

/-! ## What follows is no more than before -/

/-- What is reached after the step belongs to what was reached before. -/
theorem mem_reachable_of_inlineAt {nt : Nat} (hnt : nt ∈ (g.inlineAt e o).reachable) :
    g.inlineOrigin e nt ∈ g.reachable := by
  have hg := h.wellFormed
  refine h.wellFormed_inlineAt.reachable_induction (motive := fun nt => g.inlineOrigin e nt ∈ g.reachable)
    ?_ (fun a b _ ha p hp hb => ?_) hnt
  · rw [Operatorless.start_inlineAt, inlineOrigin_of_lt hg.1]
    exact start_mem_reachable hg.1
  · obtain ⟨before, after, hsymbols⟩ := List.append_of_mem hb
    rcases h.place_inlined (h.mem_productionsOf_inlineAt_iff.1 hp) hsymbols with
      ⟨m, hm, q, hq, before₀, after₀, hq', -, -⟩ | ⟨hae, hbe, -⟩
    · exact hg.mem_reachable_of_place hq hq' (hg.follow_of_mem_unitClosure ha hm).1
    · rwa [hbe, ← hae]

/-- What follows before the step, and the literal, is enough after it. -/
theorem followClosed_inlineAt :
    (g.inlineAt e o).FollowClosed (g.inlineAt e o).firstTable (fun nt => g.CanEnd (g.inlineOrigin e nt))
      (fun nt t => t = g.arena.size ∨ g.Next (g.inlineOrigin e nt) t) := by
  have hg := h.wellFormed
  refine ⟨?_, fun head hhead p hp before nt after hsymbols t ht => ?_,
    fun head hhead p hp before nt after hsymbols hempty => ?_⟩
  · rw [Operatorless.start_inlineAt, inlineOrigin_of_lt hg.1]
    exact hg.followClosed.start
  · rcases h.place_inlined (h.mem_productionsOf_inlineAt_iff.1 hp) hsymbols with
      ⟨m, hm, q, hq, before₀, after₀, hq', hafter, hturned⟩ | ⟨-, -, hlit⟩
    · rw [h.contains_ofSymbols_inlineAt hafter hturned] at ht
      have hreach := (hg.follow_of_mem_unitClosure (h.mem_reachable_of_inlineAt hhead) hm).1
      exact Or.inr (hg.followClosed.rest m hreach q hq before₀ _ after₀ hq' t ht)
    · exact Or.inl (hlit t ht)
  · rcases h.place_inlined (h.mem_productionsOf_inlineAt_iff.1 hp) hsymbols with
      ⟨m, hm, q, hq, before₀, after₀, hq', hafter, hturned⟩ | ⟨hheade, hnte, -⟩
    · rw [h.empty_ofSymbols_inlineAt hafter hturned] at hempty
      obtain ⟨hreach, hend, hnext⟩ :=
        hg.follow_of_mem_unitClosure (h.mem_reachable_of_inlineAt hhead) hm
      obtain ⟨hend', hnext'⟩ := hg.followClosed.last m hreach q hq before₀ _ after₀ hq' hempty
      exact ⟨fun hc => hend' (hend hc), fun t => Or.imp_right fun ht => hnext' t (hnext t ht)⟩
    · rw [hheade, hnte]
      exact ⟨id, fun t => id⟩

theorem canEnd_of_canEnd_inlineAt {nt : Nat} (hend : (g.inlineAt e o).CanEnd nt) :
    g.CanEnd (g.inlineOrigin e nt) :=
  (h.followClosed_inlineAt.within_followTable nt).1 hend

theorem next_of_next_inlineAt {nt t : Nat} (ht : (g.inlineAt e o).Next nt t) :
    t = g.arena.size ∨ g.Next (g.inlineOrigin e nt) t :=
  (h.followClosed_inlineAt.within_followTable nt).2 t ht

/-! ## What follows is no less than before -/

/-- The atoms are reached where `e` is, and followed by what follows `e`. -/
theorem follow_atom (he : e ∈ (g.inlineAt e o).reachable) :
    g.size + 2 ∈ (g.inlineAt e o).reachable ∧
      ((g.inlineAt e o).CanEnd e → (g.inlineAt e o).CanEnd (g.size + 2)) ∧
        ∀ t, (g.inlineAt e o).Next e t → (g.inlineAt e o).Next (g.size + 2) t := by
  have hself := h.mem_productionsOf_inlineAt_iff.2 (Inlined.self (g := g) (e := e) (o := o))
  have hempty : ((g.inlineAt e o).firstTable.ofSymbols [.nonTerminal (g.size + 1)]).empty = true := by
    rw [FirstTable.ofSymbols_singleton]
    exact h.nullable_tail
  exact ⟨h.wellFormed_inlineAt.mem_reachable_of_mentioned he hself List.mem_cons_self,
    h.wellFormed_inlineAt.followClosed.last e he _ hself [] _ _ rfl hempty⟩

end Inlines

/-- A non-terminal that is reached after the step and stands for the old one: that one itself, or `e` for
its alternatives. -/
structure InlineFor (g : Grammar) (e : Nat) (o : AddedInfix) (nt x : Nat) : Prop where
  reachable : x ∈ (g.inlineAt e o).reachable
  eq_or : nt = x ∨ nt ∈ g.unitClosure e ∧ x = e

namespace Inlines

variable (h : g.Inlines types size e o)
include h

/-- A place before the step in a production of a non-terminal that one stands for is one after the step,
followed by what follows that one, or that one stands for the symbol there as well. -/
theorem place_of_inlineFor {a x j : Nat} (ha : g.InlineFor e o a x) {p : Production}
    (hp : p ∈ g.productionsOf a) {before after : List Symbol}
    (hsymbols : p.symbols = before ++ .nonTerminal j :: after) :
    (∃ head ∈ (g.inlineAt e o).reachable,
        ((g.inlineAt e o).CanEnd x → (g.inlineAt e o).CanEnd head) ∧
        (∀ t, (g.inlineAt e o).Next x t → (g.inlineAt e o).Next head t) ∧
        ∃ q ∈ (g.inlineAt e o).productionsOf head, ∃ after',
          q.symbols = before ++ .nonTerminal j :: after' ∧ Forall₂ (g.Turned e) after after') ∨
      g.InlineFor e o j x ∧ after = [] := by
  have hlt : a < g.size := by
    obtain ⟨i, hi⟩ := mem_productionsOf_iff.1 hp
    exact lt_size_of_production? hi
  by_cases hclosure : a ∈ g.unitClosure e ∧ x = e
  · -- The production is an atom now, or it goes to another alternative.
    obtain ⟨ha', rfl⟩ := hclosure
    obtain ⟨hatom, hend, hnext⟩ := h.follow_atom ha.reachable
    obtain ⟨i, hi⟩ := mem_productionsOf_iff.1 hp
    rcases operator_or_atom_or_unit ha' hi with hop | hpa | ⟨target, htarget, hunit⟩
    · rw [h.noOperator] at hop
      exact absurd hop List.not_mem_nil
    · rcases h.symbols_atomProduction_of_place (o := o) hsymbols with
        ⟨after', hq, hturned⟩ | ⟨rfl, hnil, -⟩
      · exact Or.inl ⟨_, hatom, hend, hnext, _, h.mem_productionsOf_inlineAt_iff.2 (.atom hpa), after',
          hq, hturned⟩
      · exact Or.inr ⟨⟨ha.reachable, Or.inl rfl⟩, hnil⟩
    · have hsymbols' := (Production.unitTarget?_eq_some_iff.1 hunit).1
      obtain ⟨rfl, hj⟩ | ⟨b, rfl, hj⟩ := List.append_eq_cons_iff.1 (hsymbols.symm.trans hsymbols')
      · obtain ⟨hj, hnil⟩ := List.cons.inj hj
        obtain rfl := Symbol.nonTerminal.inj hj
        exact Or.inr ⟨⟨ha.reachable, Or.inr ⟨htarget, rfl⟩⟩, hnil⟩
      · simp at hj
  · -- The productions of all others stay.
    obtain rfl : a = x := ha.eq_or.resolve_right hclosure
    have hne : a ≠ e := fun heq => hclosure ⟨heq ▸ self_mem_unitClosure g a, heq⟩
    exact Or.inl ⟨a, ha.reachable, id, fun t => id, p,
      h.mem_productionsOf_inlineAt_iff.2 (.old hlt hne hp), after, hsymbols,
      forall₂_self fun s _ => Or.inl rfl⟩

/-- What was reached before the step is stood for after it. -/
theorem exists_inlineFor {nt : Nat} (hnt : nt ∈ g.reachable) : ∃ x, g.InlineFor e o nt x := by
  refine h.wellFormed.reachable_induction (motive := fun nt => ∃ x, g.InlineFor e o nt x)
    ⟨g.start, ?_, Or.inl rfl⟩ (fun a b _ ha p hp hb => ?_) hnt
  · rw [← Operatorless.start_inlineAt (e := e) (o := o)]
    exact start_mem_reachable h.wellFormed_inlineAt.1
  · obtain ⟨x, hx⟩ := ha
    obtain ⟨before, after, hsymbols⟩ := List.append_of_mem hb
    rcases h.place_of_inlineFor hx hp hsymbols with ⟨head, hhead, -, -, q, hq, after', hq', -⟩ | hb
    · exact ⟨b, h.wellFormed_inlineAt.mem_reachable_of_place hq hq' hhead, Or.inl rfl⟩
    · exact ⟨x, hb.1⟩

/-- What follows one that stands for a non-terminal after the step is enough before it. -/
theorem followClosed_of_inlineAt :
    g.FollowClosed g.firstTable (fun nt => ∃ x, g.InlineFor e o nt x ∧ (g.inlineAt e o).CanEnd x)
      (fun nt t => ∃ x, g.InlineFor e o nt x ∧ (g.inlineAt e o).Next x t) := by
  have hg' := h.wellFormed_inlineAt
  refine ⟨⟨g.start, ⟨?_, Or.inl rfl⟩, ?_⟩, fun a ha p hp before j after hsymbols t ht => ?_,
    fun a ha p hp before j after hsymbols hempty => ?_⟩
  · rw [← Operatorless.start_inlineAt (e := e) (o := o)]
    exact start_mem_reachable hg'.1
  · rw [← Operatorless.start_inlineAt (e := e) (o := o)]
    exact hg'.followClosed.start
  · obtain ⟨x, hx⟩ := h.exists_inlineFor (o := o) ha
    rcases h.place_of_inlineFor hx hp hsymbols with
      ⟨head, hhead, -, -, q, hq, after', hq', hturned⟩ | ⟨-, rfl⟩
    · rw [← h.contains_ofSymbols_inlineAt (h.wellFormed.hasSymbol_of_place hp hsymbols).2 hturned] at ht
      exact ⟨j, ⟨hg'.mem_reachable_of_place hq hq' hhead, Or.inl rfl⟩, hg'.followClosed.rest head hhead q hq _ _ _ hq' t ht⟩
    · exact absurd ht (by simp [FirstTable.ofSymbols, FirstSet.onlyEmpty])
  · -- What follows one that stands for the head goes on to the place.
    have hlast : ∀ x, g.InlineFor e o a x →
        ∃ y, g.InlineFor e o j y ∧ ((g.inlineAt e o).CanEnd x → (g.inlineAt e o).CanEnd y) ∧
          ∀ t, (g.inlineAt e o).Next x t → (g.inlineAt e o).Next y t := by
      intro x hx
      rcases h.place_of_inlineFor hx hp hsymbols with
        ⟨head, hhead, hend, hnext, q, hq, after', hq', hturned⟩ | ⟨hj, -⟩
      · rw [← h.empty_ofSymbols_inlineAt (h.wellFormed.hasSymbol_of_place hp hsymbols).2 hturned] at hempty
        obtain ⟨hend', hnext'⟩ := hg'.followClosed.last head hhead q hq _ _ _ hq' hempty
        exact ⟨j, ⟨hg'.mem_reachable_of_place hq hq' hhead, Or.inl rfl⟩, fun hc => hend' (hend hc),
          fun t ht => hnext' t (hnext t ht)⟩
      · exact ⟨x, hj, id, fun t => id⟩
    constructor
    · rintro ⟨x, hx, hc⟩
      obtain ⟨y, hy, hend, -⟩ := hlast x hx
      exact ⟨y, hy, hend hc⟩
    · rintro t ⟨x, hx, ht⟩
      obtain ⟨y, hy, -, hnext⟩ := hlast x hx
      exact ⟨y, hy, hnext t ht⟩

section Apart

variable {nt : Nat} (hnt : nt < g.size) (hout : nt ∉ g.unitClosure e)
include hnt hout

theorem canEnd_inlineAt_iff : (g.inlineAt e o).CanEnd nt ↔ g.CanEnd nt := by
  constructor
  · intro hend
    have hold := h.canEnd_of_canEnd_inlineAt hend
    rwa [inlineOrigin_of_lt hnt] at hold
  · intro hend
    obtain ⟨x, hx, hend'⟩ := (h.followClosed_of_inlineAt (o := o).within_followTable nt).1 hend
    obtain rfl : nt = x := hx.eq_or.resolve_right fun hin => hout hin.1
    exact hend'

/-- A non-terminal that is no alternative of `e` is followed by the same terminals, the literal apart. -/
theorem next_inlineAt_iff {t : Nat} (ht : t ≠ g.arena.size) :
    (g.inlineAt e o).Next nt t ↔ g.Next nt t := by
  constructor
  · intro hnext
    have hold := (h.next_of_next_inlineAt hnext).resolve_left ht
    rwa [inlineOrigin_of_lt hnt] at hold
  · intro hnext
    obtain ⟨x, hx, hnext'⟩ := (h.followClosed_of_inlineAt (o := o).within_followTable nt).2 t hnext
    obtain rfl : nt = x := hx.eq_or.resolve_right fun hin => hout hin.1
    exact hnext'

end Apart

/-! ## Left recursion -/

/-- What can come first in an atom after the step belongs to what could before. -/
theorem mem_leftCorners_of_turned {ss ss' : List Symbol} (hss : ∀ s ∈ ss, g.HasSymbol s)
    (hturned : Forall₂ (g.Turned e) ss ss') {c : Nat}
    (hc : c ∈ leftCorners (g.inlineAt e o).firstTable ss') :
    g.inlineOrigin e c ∈ leftCorners g.firstTable ss := by
  induction hturned with
  | nil => exact absurd hc List.not_mem_nil
  | @cons s s' ss ss' hs hrest ih =>
      have hhas := hss s List.mem_cons_self
      rcases hs with rfl | ⟨rfl, rfl⟩
      · cases s' with
        | terminal i => exact absurd hc List.not_mem_nil
        | nonTerminal i =>
            rw [mem_leftCorners_cons] at hc ⊢
            refine hc.imp (fun heq => ?_) fun ⟨hnull, hc⟩ => ⟨?_, ih (fun s hs => ?_) hc⟩
            · rw [heq, inlineOrigin_of_lt hhas]
            · exact (h.nullable_inlineAt_iff hhas).1 hnull
            · exact hss s (List.mem_cons_of_mem _ hs)
      · rw [mem_leftCorners_cons] at hc ⊢
        rcases hc with rfl | ⟨hnull, -⟩
        · exact Or.inl (inlineOrigin_of_le (Nat.le_add_right _ _))
        · exact absurd hnull h.not_nullable_atom

omit h in
/-- Ranks that fall along what can come first do not rise along units. -/
theorem rank_le_of_mem_unitClosure {rank : Nat → Nat}
    (hfalls : ∀ m, ∀ p ∈ g.productionsOf m, ∀ c ∈ leftCorners g.firstTable p.symbols, rank c < rank m)
    {m : Nat} (hm : m ∈ g.unitClosure e) : rank m ≤ rank e := by
  have hpath := mem_unitClosure_iff.1 hm
  clear hm
  induction hpath with
  | refl => exact Nat.le_refl _
  | tail _ hstep ih =>
      obtain ⟨p, hp, hunit, -⟩ := hstep
      refine Nat.le_trans (Nat.le_of_lt (hfalls _ p hp _ ?_)) ih
      rw [(Production.unitTarget?_eq_some_iff.1 hunit).1, mem_leftCorners_cons]
      exact Or.inl rfl

/-- The step adds no left recursion. -/
theorem checkLeftRecursion_inlineAt (hrecursion : g.checkLeftRecursion g.firstTable = .ok ()) :
    (g.inlineAt e o).checkLeftRecursion (g.inlineAt e o).firstTable = .ok () := by
  have hg := h.wellFormed.symbolsExist
  obtain ⟨rank, hrank⟩ := exists_rank_of_checkLeftRecursion hrecursion
  have hfalls : ∀ m, ∀ p ∈ g.productionsOf m, ∀ c ∈ leftCorners g.firstTable p.symbols,
      rank c < rank m := by
    intro m p hp c hc
    have hcorner : c ∈ g.leftCornersOf g.firstTable m := List.mem_flatMap.2 ⟨p, hp, hc⟩
    exact hrank m c hcorner (hg.lt_of_mem_leftCornersOf hcorner)
  -- The ranks are doubled, so that there is one for the atoms right below that of the type.
  refine checkLeftRecursion_eq_ok_of_rank (g.inlineRank e rank) fun nt c hc => ?_
  obtain ⟨p, hp, hc⟩ := List.mem_flatMap.1 hc
  -- What begins with the atoms has only them as a left corner, since an atom is not empty.
  have hatom : ∀ {y : Nat},
      c ∈ leftCorners (g.inlineAt e o).firstTable [.nonTerminal (g.size + 2), .nonTerminal y] →
        g.inlineRank e rank c = 2 * rank e := by
    intro y hc
    rw [((mem_leftCorners_cons _ _).1 hc).resolve_right fun hnull => h.not_nullable_atom hnull.1,
      inlineRank_atom]
  have hle := inlineRank_le (g := g) (e := e) rank c
  cases h.mem_productionsOf_inlineAt_iff.1 hp with
  | old hi hie hp =>
      have hlt := hfalls _ p hp _ (h.mem_leftCorners_of_turned
        (fun s hs => h.wellFormed.hasSymbol_of_mem hp hs) (forall₂_self fun s _ => Or.inl rfl) hc)
      rw [inlineRank_of_ne rank (by omega : nt ≠ g.size + 2), inlineOrigin_of_lt hi]
      omega
  | self =>
      have hlt := h.lt
      rw [hatom hc, inlineRank_of_ne rank (by omega : e ≠ g.size + 2), inlineOrigin_of_lt hlt]
      omega
  | type =>
      rw [hatom hc, inlineRank_of_ne rank (by omega : g.size ≠ g.size + 2),
        inlineOrigin_of_le (Nat.le_refl _)]
      omega
  | operator hi =>
      obtain ⟨x, rest, hsymbols, -, -⟩ := h.symbols_tailProduction (o := o)
      rw [hsymbols] at hc
      exact absurd hc List.not_mem_nil
  | ending => exact absurd hc List.not_mem_nil
  | @atom q hq =>
      obtain ⟨m, hm, hqm, -⟩ := mem_atomsOf_iff.1 hq
      have hturned := h.forall₂_atomProduction (o := o) (R := g.Turned e) q (fun s _ => Or.inl rfl)
        (Or.inr ⟨rfl, rfl⟩)
      have hlt := hfalls _ q hqm _ (h.mem_leftCorners_of_turned
        (fun s hs => h.wellFormed.hasSymbol_of_mem hqm hs) hturned hc)
      have hle' := rank_le_of_mem_unitClosure hfalls hm
      rw [inlineRank_atom]
      omega

end Inlines

end Grammar

end SmallLang
