import SmallLang.Pattern.Search
import SmallLang.Proofs.Pattern.Matching

/-!
# Ways through an automaton

`Automaton.Accepts` are the ways through an automaton from a step to the end of a match, with the
places of the text where they begin and end. The search finds nothing else
(`Automaton.exists_accepts_of_findEnd?`).

The steps that a pattern puts in front of an automaton are only passed by a match of the pattern,
after which the way goes on as in the automaton (`Pattern.passedBy_prepend`). The way has a length,
since the loop of an unbounded repetition leads back to its start: what is left of the way gets
shorter in each round.
-/

set_option autoImplicit false

namespace SmallLang

namespace Automaton

/-! ## Ways -/

/-- A way of so many steps leads from the step to a complete match, while the text is passed from
the first place to the second one. -/
inductive Accepts (steps : Array Step) : Nat → Nat → Place → Place → Prop
  | accept {i : Nat} {c : Place} (h : steps[i]? = some .accept) : Accepts steps 0 i c c
  | take {n i next : Nat} {s : CharSet} {x : Char} {before : Option Char} {xs : List Char} {d : Place}
      (h : steps[i]? = some (.take s next)) (hx : s.mem x = true)
      (hmore : Accepts steps n next ⟨some x, xs⟩ d) : Accepts steps (n + 1) i ⟨before, x :: xs⟩ d
  | test {n i next : Nat} {a : Anchor} {c d : Place} (h : steps[i]? = some (.test a next))
      (ha : a.holds c = true) (hmore : Accepts steps n next c d) : Accepts steps (n + 1) i c d
  | first {n i first second : Nat} {c d : Place} (h : steps[i]? = some (.fork first second))
      (hmore : Accepts steps n first c d) : Accepts steps (n + 1) i c d
  | second {n i first second : Nat} {c d : Place} (h : steps[i]? = some (.fork first second))
      (hmore : Accepts steps n second c d) : Accepts steps (n + 1) i c d

namespace Accepts

variable {steps : Array Step} {n i next : Nat} {c d : Place}

theorem of_take {s : CharSet} (h : Accepts steps n i c d) (hi : steps[i]? = some (.take s next)) :
    ∃ m < n, ∃ e, (∃ x, s.mem x = true ∧ c.Passes [x] e) ∧ Accepts steps m next e d := by
  cases h with
  | @take m _ _ _ x _ xs _ h hx hmore =>
      cases h.symm.trans hi
      exact ⟨m, m.lt_succ_self, ⟨some x, xs⟩, ⟨x, hx, xs, rfl, rfl⟩, hmore⟩
  | accept h => cases h.symm.trans hi
  | test h => cases h.symm.trans hi
  | first h => cases h.symm.trans hi
  | second h => cases h.symm.trans hi

theorem of_test {a : Anchor} (h : Accepts steps n i c d) (hi : steps[i]? = some (.test a next)) :
    a.holds c = true ∧ ∃ m < n, Accepts steps m next c d := by
  cases h with
  | @test m _ _ _ _ _ h ha hmore =>
      cases h.symm.trans hi
      exact ⟨ha, m, m.lt_succ_self, hmore⟩
  | accept h => cases h.symm.trans hi
  | take h => cases h.symm.trans hi
  | first h => cases h.symm.trans hi
  | second h => cases h.symm.trans hi

theorem of_fork {first second : Nat} (h : Accepts steps n i c d)
    (hi : steps[i]? = some (.fork first second)) :
    ∃ m < n, Accepts steps m first c d ∨ Accepts steps m second c d := by
  cases h with
  | @first m _ _ _ _ _ h hmore =>
      cases h.symm.trans hi
      exact ⟨m, m.lt_succ_self, Or.inl hmore⟩
  | @second m _ _ _ _ _ h hmore =>
      cases h.symm.trans hi
      exact ⟨m, m.lt_succ_self, Or.inr hmore⟩
  | accept h => cases h.symm.trans hi
  | take h => cases h.symm.trans hi
  | test h => cases h.symm.trans hi

/-- A fork, whichever way it prefers. -/
theorem of_fork_greedy {first second : Nat} {greedy : Bool} (h : Accepts steps n i c d)
    (hi : steps[i]? = some (if greedy then .fork first second else .fork second first)) :
    ∃ m < n, Accepts steps m first c d ∨ Accepts steps m second c d := by
  cases greedy with
  | true => exact h.of_fork hi
  | false =>
      obtain ⟨m, hm, hways⟩ := h.of_fork hi
      exact ⟨m, hm, hways.symm⟩

/-- No character is taken where the match is complete. -/
theorem of_accept (h : Accepts steps n i c d) (hi : steps[i]? = some .accept) : d = c := by
  cases h with
  | accept => rfl
  | take h => cases h.symm.trans hi
  | test h => cases h.symm.trans hi
  | first h => cases h.symm.trans hi
  | second h => cases h.symm.trans hi

end Accepts

/-! ## The search -/

variable {steps : Array Step}

/-- A step leads to another one if all ways from there, after some character is taken, are parts of
ways from the step. -/
def LeadsTo (steps : Array Step) (c : Place) (i j : Nat) : Prop :=
  ∃ x xs, c.rest = x :: xs ∧ ∀ m d, Accepts steps m j ⟨some x, xs⟩ d → ∃ m, Accepts steps m i c d

theorem leadsTo_of_take {c : Place} {i next : Nat} {s : CharSet}
    (hi : steps[i]? = some (.take s next)) (h : c.after.any s.mem = true) :
    LeadsTo steps c i next := by
  obtain ⟨before, rest⟩ := c
  cases rest with
  | nil => simp [Place.after] at h
  | cons x xs => exact ⟨x, xs, rfl, fun m d hm => ⟨m + 1, .take hi h hm⟩⟩

/-- What is found at a place comes from one of the steps to be followed: a complete match, and each
step to go on with. -/
structure Found (steps : Array Step) (c : Place) (work : List Nat)
    (f found : Frontier) : Prop where
  complete : found.complete = true →
    f.complete = true ∨ ∃ i ∈ work, ∃ m, Accepts steps m i c c
  ahead : ∀ j ∈ found.ahead, j ∈ f.ahead ∨ ∃ i ∈ work, LeadsTo steps c i j

/-- What is found from other steps is found from the given ones, if each way from another step is
part of a way from a given one. Marks do not matter. -/
theorem Found.of_ways {c : Place} {work others : List Nat} {f found : Frontier} {marks : Marks}
    (h : Found steps c others ⟨f.ahead, f.complete, marks⟩ found)
    (hways : ∀ i ∈ others, ∃ j ∈ work, ∀ m d, Accepts steps m i c d → ∃ m, Accepts steps m j c d) :
    Found steps c work f found := by
  constructor
  · intro hcomplete
    rcases h.complete hcomplete with hbefore | ⟨i, hi, m, hm⟩
    · exact Or.inl hbefore
    · obtain ⟨j, hj, hway⟩ := hways i hi
      exact Or.inr ⟨j, hj, hway m c hm⟩
  · intro k hk
    rcases h.ahead k hk with hbefore | ⟨i, hi, x, xs, hrest, hleads⟩
    · exact Or.inl hbefore
    · obtain ⟨j, hj, hway⟩ := hways i hi
      refine Or.inr ⟨j, hj, x, xs, hrest, fun m d hm => ?_⟩
      obtain ⟨m, hm⟩ := hleads m d hm
      exact hway m d hm

/-- The step behind a character is what the search goes on with, if the character is taken. -/
theorem Found.of_take {c : Place} {i next : Nat} {s : CharSet} {work : List Nat}
    {f found : Frontier} {marks : Marks} (hi : steps[i]? = some (.take s next))
    (h : Found steps c work
      ⟨if c.after.any s.mem then next :: f.ahead else f.ahead, f.complete, marks⟩ found) :
    Found steps c (i :: work) f found := by
  constructor
  · intro hcomplete
    exact (h.complete hcomplete).imp_right fun ⟨k, hk, hm⟩ => ⟨k, List.mem_cons_of_mem i hk, hm⟩
  · intro j hj
    rcases h.ahead j hj with hj | ⟨k, hk, hleads⟩
    · simp only at hj
      split at hj
      · rename_i hnext
        rcases List.mem_cons.1 hj with rfl | hj
        · exact Or.inr ⟨i, List.mem_cons_self, leadsTo_of_take hi hnext⟩
        · exact Or.inl hj
      · exact Or.inl hj
    · exact Or.inr ⟨k, List.mem_cons_of_mem i hk, hleads⟩

theorem found_spread (c : Place) (n : Nat) (work : List Nat) (f : Frontier) :
    Found steps c work f (spread steps c n work f) := by
  have hskip : ∀ (i : Nat) (work : List Nat) (j), j ∈ work → ∃ k ∈ i :: work, ∀ m d,
      Accepts steps m j c d → ∃ m, Accepts steps m k c d :=
    fun i work j hj => ⟨j, List.mem_cons_of_mem i hj, fun m d h => ⟨m, h⟩⟩
  induction n generalizing work f with
  | zero => exact ⟨Or.inl, fun j => Or.inl⟩
  | succ n ih =>
      cases work with
      | nil => exact ⟨Or.inl, fun j => Or.inl⟩
      | cons i work =>
          rw [spread]
          split
          · exact (ih work f).of_ways (hskip i work)
          · simp only
            split
            · rename_i s next hi
              exact (ih work _).of_take hi
            · rename_i a next hi
              refine (ih _ _).of_ways fun j hj => ?_
              split at hj
              · rename_i ha
                rcases List.mem_cons.1 hj with rfl | hj
                · exact ⟨i, List.mem_cons_self, fun m d h => ⟨m + 1, .test hi ha h⟩⟩
                · exact hskip i work j hj
              · exact hskip i work j hj
            · rename_i first second hi
              refine (ih _ _).of_ways fun j hj => ?_
              rcases List.mem_cons.1 hj with rfl | hj
              · exact ⟨i, List.mem_cons_self, fun m d h => ⟨m + 1, .first hi h⟩⟩
              · rcases List.mem_cons.1 hj with rfl | hj
                · exact ⟨i, List.mem_cons_self, fun m d h => ⟨m + 1, .second hi h⟩⟩
                · exact hskip i work j hj
            · rename_i hi
              exact ⟨fun _ => Or.inr ⟨i, List.mem_cons_self, 0, .accept hi⟩, fun j => Or.inl⟩
            · exact (ih work _).of_ways (hskip i work)

/-- All that is found at a place comes from the steps to be followed. -/
theorem found_frontier (c : Place) (work : List Nat) (marks : Marks) :
    Found steps c work ⟨[], false, marks⟩ (frontier steps c work marks) := found_spread c _ work _

/-- The best match is the one before, or the one that is complete at this place. -/
theorem exists_accepts_of_complete {c : Place} {work : List Nat} {marks : Marks} {taken n : Nat}
    {best : Option Nat}
    (h : (if (frontier steps c work marks).complete then some taken else best) = some n) :
    best = some n ∨ ∃ i ∈ work, ∃ m k d, n = taken + k ∧ k ≤ c.rest.length ∧
      d.rest = c.rest.drop k ∧ Accepts steps m i c d := by
  split at h
  · rename_i hcomplete
    obtain ⟨i, hi, m, hm⟩ :=
      ((found_frontier c work marks).complete hcomplete).resolve_left Bool.false_ne_true
    exact Or.inr ⟨i, hi, m, 0, c, (Option.some.inj h).symm, Nat.zero_le _, rfl, hm⟩
  · exact Or.inl h

theorem exists_accepts_of_endFrom? {before : Option Char} {work : List Nat} {marks : Marks}
    {taken n : Nat} {best : Option Nat} {cs : List Char}
    (h : endFrom? steps before work marks taken best cs = some n) :
    best = some n ∨ ∃ i ∈ work, ∃ m k d, n = taken + k ∧ k ≤ cs.length ∧ d.rest = cs.drop k ∧
      Accepts steps m i ⟨before, cs⟩ d := by
  induction cs generalizing before work marks taken best with
  | nil =>
      rw [endFrom?] at h
      exact exists_accepts_of_complete (c := ⟨before, []⟩) h
  | cons x xs ih =>
      rw [endFrom?] at h
      simp only at h
      split at h
      · exact exists_accepts_of_complete (c := ⟨before, x :: xs⟩) h
      · rcases ih h with hbefore | ⟨j, hj, m, k, d, rfl, hk, hd, hway⟩
        · exact exists_accepts_of_complete (c := ⟨before, x :: xs⟩) hbefore
        · obtain ⟨i, hi, _, _, hrest, hleads⟩ :=
            ((found_frontier ⟨before, x :: xs⟩ work marks).ahead j
              (List.mem_reverse.1 hj)).resolve_left List.not_mem_nil
          obtain ⟨rfl, rfl⟩ := List.cons.inj hrest
          obtain ⟨m, hm⟩ := hleads m d hway
          refine Or.inr ⟨i, hi, m, k + 1, d, by omega, Nat.succ_le_succ hk, hd, hm⟩

/-- What the search finds is the end of a way from the first step. -/
theorem exists_accepts_of_findEnd? {a : Automaton} {cs : List Char} {n : Nat}
    (h : a.findEnd? cs = some n) :
    n ≤ cs.length ∧ ∃ m d, d.rest = cs.drop n ∧ Accepts a.steps m a.start ⟨none, cs⟩ d := by
  rcases exists_accepts_of_endFrom? h with hnone | ⟨i, hi, m, k, d, rfl, hk, hd, hway⟩
  · simp at hnone
  · obtain rfl := List.mem_singleton.1 hi
    rw [Nat.zero_add]
    exact ⟨hk, m, d, hd, hway⟩

end Automaton

/-! ## The steps of a pattern -/

/-- So many steps are added behind those of an automaton. -/
structure Grows (k : Nat) (before after : Array Step) : Prop where
  size_eq : after.size = before.size + k
  extends_before : ∀ (i : Nat) (s : Step), before[i]? = some s → after[i]? = some s

namespace Grows

variable {k l : Nat} {before after final : Array Step}

theorem refl (before : Array Step) : Grows 0 before before := ⟨rfl, fun _ _ => id⟩

theorem trans (h : Grows k before after) (h' : Grows l after final) : Grows (k + l) before final :=
  ⟨by rw [h'.size_eq, h.size_eq, Nat.add_assoc],
    fun i s hi => h'.extends_before i s (h.extends_before i s hi)⟩

theorem push (h : Grows k before after) (s : Step) : Grows (k + 1) before (after.push s) := by
  refine ⟨by rw [Array.size_push, h.size_eq]; rfl, fun i t hi => ?_⟩
  have hi := h.extends_before i t hi
  rw [Array.getElem?_push, if_neg (Nat.ne_of_lt (Array.getElem?_eq_some_iff.1 hi).1)]
  exact hi

end Grows

namespace Pattern

/-- The automaton for the loop of an unbounded repetition, entered by the round. -/
def prependLoop (p : Pattern) (greedy : Bool) (a : Automaton) : Automaton :=
  let round := p.prepend ⟨a.steps, a.steps.size + p.stepCount⟩
  ⟨(round.addFork greedy round.start a.start).steps, round.start⟩

/-- One more round that may be left out. -/
def prependOption (p : Pattern) (greedy : Bool) (exit : Nat) (a : Automaton) : Automaton :=
  let round := p.prepend a
  round.addFork greedy round.start exit

theorem prepend_bounded (p : Pattern) (least most : Nat) (greedy : Bool) (a : Automaton) :
    (repeated p least (some most) greedy).prepend a =
      Nat.repeat p.prepend least (Nat.repeat (p.prependOption greedy a.start) (most - least) a) := rfl

theorem prepend_unbounded_zero (p : Pattern) (greedy : Bool) (a : Automaton) :
    (repeated p 0 none greedy).prepend a =
      if p.isNullable then
        (p.prependLoop greedy a).addFork greedy (p.prependLoop greedy a).start a.start
      else ⟨(p.prependLoop greedy a).steps, a.steps.size + p.stepCount⟩ := rfl

theorem prepend_unbounded_succ (p : Pattern) (n : Nat) (greedy : Bool) (a : Automaton) :
    (repeated p (n + 1) none greedy).prepend a =
      Nat.repeat p.prepend n (p.prependLoop greedy a) := rfl

/-! The automaton grows by the steps of the pattern. -/

theorem grows_repeat {p : Pattern} (h : ∀ a, Grows p.stepCount a.steps (p.prepend a).steps) (k : Nat)
    (a : Automaton) : Grows (k * p.stepCount) a.steps (Nat.repeat p.prepend k a).steps := by
  induction k with
  | zero => rw [Nat.zero_mul]; exact .refl a.steps
  | succ k ih => rw [Nat.succ_mul]; exact ih.trans (h _)

theorem grows_repeat_option {p : Pattern} (h : ∀ a, Grows p.stepCount a.steps (p.prepend a).steps)
    (greedy : Bool) (exit k : Nat) (a : Automaton) :
    Grows (k * (p.stepCount + 1)) a.steps (Nat.repeat (p.prependOption greedy exit) k a).steps := by
  induction k with
  | zero => rw [Nat.zero_mul]; exact .refl a.steps
  | succ k ih => rw [Nat.succ_mul]; exact ih.trans ((h _).push _)

theorem grows_prepend (p : Pattern) (a : Automaton) : Grows p.stepCount a.steps (p.prepend a).steps := by
  induction p generalizing a with
  | nothing => exact .refl a.steps
  | text cs =>
      induction cs with
      | nil => exact .refl a.steps
      | cons x cs ih => exact ih.push _
  | char s => exact (Grows.refl a.steps).push _
  | anchor c => exact (Grows.refl a.steps).push _
  | group n p ih => exact ih a
  | seq p q ihp ihq =>
      rw [stepCount, Nat.add_comm]
      exact (ihq a).trans (ihp _)
  | alt p q ihp ihq =>
      rw [stepCount, Nat.add_comm p.stepCount]
      exact ((ihq a).trans (ihp ⟨_, a.start⟩)).push _
  | repeated p least most greedy ih =>
      -- A bounded repetition is a number of copies, and an unbounded one ends in a loop that stands for
      -- its last copy.
      cases most with
      | some most =>
          rw [prepend_bounded, stepCount, Nat.add_comm]
          exact (grows_repeat_option ih greedy _ _ a).trans (grows_repeat ih _ _)
      | none =>
          have hloop : Grows (p.stepCount + 1) a.steps (p.prependLoop greedy a).steps :=
            (ih ⟨a.steps, a.steps.size + p.stepCount⟩).push _
          cases least with
          | zero =>
              rw [prepend_unbounded_zero, stepCount, Nat.max_eq_right (Nat.zero_le 1), Nat.one_mul]
              -- Around what can be empty the loop is left out by a step of its own.
              by_cases hnullable : p.isNullable = true
              · rw [if_pos hnullable, if_pos ⟨rfl, hnullable⟩]
                exact hloop.push _
              · rw [if_neg hnullable, if_neg (fun h => hnullable h.2)]
                exact hloop
          | succ n =>
              have hcount : (repeated p (n + 1) none greedy).stepCount =
                  p.stepCount + 1 + n * p.stepCount := by
                rw [stepCount, Nat.max_eq_left (Nat.le_add_left 1 n), Nat.succ_mul]
                simp only [Nat.succ_ne_zero, false_and, if_false]
                omega
              rw [prepend_unbounded_succ, hcount]
              exact hloop.trans (grows_repeat ih n _)

end Pattern

/-! ## Ways that pass a pattern -/

namespace Automaton

/-- A way from the first step comes to the other one, after a piece of the text between two places
that are related, and goes on from there. -/
def PassedBy (steps : Array Step) (i j : Nat) (r : Place → Place → Prop) : Prop :=
  ∀ n c d, Accepts steps n i c d → ∃ m ≤ n, ∃ e, r c e ∧ Accepts steps m j e d

namespace PassedBy

variable {steps : Array Step} {i j k : Nat} {r r' : Place → Place → Prop}

theorem mono (h : PassedBy steps i j r) (hr : ∀ c d, r c d → r' c d) : PassedBy steps i j r' :=
  fun n c d hway =>
    let ⟨m, hm, e, he, hmore⟩ := h n c d hway
    ⟨m, hm, e, hr c e he, hmore⟩

theorem refl (steps : Array Step) (i : Nat) : PassedBy steps i i fun c d => d = c :=
  fun n c _ hway => ⟨n, Nat.le_refl n, c, rfl, hway⟩

theorem trans (h : PassedBy steps i j r) (h' : PassedBy steps j k r') :
    PassedBy steps i k fun c d => ∃ e, r c e ∧ r' e d := by
  intro n c d hway
  obtain ⟨m, hm, e, he, hway⟩ := h n c d hway
  obtain ⟨m', hm', e', he', hway⟩ := h' m e d hway
  exact ⟨m', Nat.le_trans hm' hm, e', ⟨e, he, he'⟩, hway⟩

theorem take {s : CharSet} (hi : steps[i]? = some (.take s j)) :
    PassedBy steps i j fun c d => ∃ x, s.mem x = true ∧ c.Passes [x] d := by
  intro n c d hway
  obtain ⟨m, hm, e, he, hmore⟩ := hway.of_take hi
  exact ⟨m, Nat.le_of_lt hm, e, he, hmore⟩

theorem test {a : Anchor} (hi : steps[i]? = some (.test a j)) :
    PassedBy steps i j fun c d => a.holds c = true ∧ d = c := by
  intro n c d hway
  obtain ⟨ha, m, hm, hmore⟩ := hway.of_test hi
  exact ⟨m, Nat.le_of_lt hm, c, ⟨ha, rfl⟩, hmore⟩

/-- A fork, whichever way it prefers. -/
theorem fork {first second : Nat} (greedy : Bool)
    (hfork : steps[i]? = some (if greedy then .fork first second else .fork second first))
    (hfirst : PassedBy steps first j r) (hsecond : PassedBy steps second j r) : PassedBy steps i j r := by
  intro n c d hway
  obtain ⟨m, hm, hway | hway⟩ := hway.of_fork_greedy hfork
  · obtain ⟨m', hm', e, he, hmore⟩ := hfirst m c d hway
    exact ⟨m', Nat.le_trans hm' (Nat.le_of_lt hm), e, he, hmore⟩
  · obtain ⟨m', hm', e, he, hmore⟩ := hsecond m c d hway
    exact ⟨m', Nat.le_trans hm' (Nat.le_of_lt hm), e, he, hmore⟩

/-- The loop of a repetition, from the fork at the end of its round. -/
theorem loop {back round exit : Nat} {greedy : Bool} (hround : PassedBy steps round back r)
    (hfork : steps[back]? = some (if greedy then .fork round exit else .fork exit round)) :
    PassedBy steps back exit fun c d => ∃ k, Pattern.Rounds r k c d := by
  -- By induction on the length of the way: after a round a shorter one is left.
  intro n
  induction n using Nat.strongRecOn with
  | ind n ih =>
      intro c d hway
      obtain ⟨m, hm, hway | hway⟩ := hway.of_fork_greedy hfork
      · obtain ⟨m', hm', e, he, hway⟩ := hround m c d hway
        have hlt := Nat.lt_of_le_of_lt hm' hm
        obtain ⟨m'', hm'', e', ⟨k, hk⟩, hmore⟩ := ih m' hlt e d hway
        exact ⟨m'', Nat.le_trans hm'' (Nat.le_of_lt hlt), e', ⟨k + 1, e, he, hk⟩, hmore⟩
      · exact ⟨m, Nat.le_of_lt hm, c, ⟨0, rfl⟩, hway⟩

end PassedBy

end Automaton

namespace Pattern

open Automaton

variable {steps : Array Step}

/-- The step that was added last. -/
theorem getElem?_of_push {k : Nat} {before : Array Step} {s : Step}
    (h : Grows k (before.push s) steps) : steps[before.size]? = some s :=
  h.extends_before _ _ Array.getElem?_push_size

/-- Rounds after rounds are rounds. -/
theorem Rounds.append {r : Place → Place → Prop} {j k : Nat} {c d e : Place} (h : Rounds r j c d)
    (h' : Rounds r k d e) : Rounds r (j + k) c e := by
  induction j generalizing c with
  | zero =>
      obtain rfl : d = c := h
      rwa [Nat.zero_add]
  | succ j ih =>
      obtain ⟨c', hround, hmore⟩ := h
      rw [Nat.succ_add]
      exact ⟨c', hround, ih hmore⟩

section

variable {p : Pattern}
  (hp : ∀ (a : Automaton) (k : Nat), Grows k (p.prepend a).steps steps →
    PassedBy steps (p.prepend a).start a.start p.Takes)
include hp

theorem passedBy_repeat (n : Nat) (a : Automaton) {k : Nat}
    (hgrows : Grows k (Nat.repeat p.prepend n a).steps steps) :
    PassedBy steps (Nat.repeat p.prepend n a).start a.start (Rounds p.Takes n) := by
  induction n generalizing k with
  | zero => exact .refl steps a.start
  | succ n ih =>
      have hmore := (grows_prepend p (Nat.repeat p.prepend n a)).trans hgrows
      exact (hp _ k hgrows).trans (ih hmore)

/-- Of the rounds that may be left out, any number is passed. -/
theorem passedBy_repeat_option (greedy : Bool) (n : Nat) (a : Automaton) {k : Nat}
    (hgrows : Grows k (Nat.repeat (p.prependOption greedy a.start) n a).steps steps) :
    PassedBy steps (Nat.repeat (p.prependOption greedy a.start) n a).start a.start
      fun c d => ∃ j ≤ n, Rounds p.Takes j c d := by
  induction n generalizing k with
  | zero => exact (PassedBy.refl steps a.start).mono fun c d h => ⟨0, Nat.le_refl 0, h⟩
  | succ n ih =>
      have hround := ((Grows.refl _).push _).trans hgrows
      have hbefore := (grows_prepend p _).trans hround
      refine .fork greedy (getElem?_of_push hgrows) ?_ ?_
      · refine ((hp _ _ hround).trans (ih hbefore)).mono ?_
        rintro c d ⟨e, he, j, hj, hrounds⟩
        exact ⟨j + 1, Nat.succ_le_succ hj, e, he, hrounds⟩
      · exact (PassedBy.refl steps a.start).mono fun c d h => ⟨0, Nat.zero_le _, h⟩

/-- The loop of an unbounded repetition, from the fork at its end and from its round. -/
theorem passedBy_loop (greedy : Bool) (a : Automaton) {k : Nat}
    (hgrows : Grows k (p.prependLoop greedy a).steps steps) :
    PassedBy steps (a.steps.size + p.stepCount) a.start (fun c d => ∃ j, Rounds p.Takes j c d) ∧
      PassedBy steps (p.prependLoop greedy a).start a.start
        fun c d => ∃ j, Rounds p.Takes (j + 1) c d := by
  have hround := hp ⟨a.steps, a.steps.size + p.stepCount⟩ _ (((Grows.refl _).push _).trans hgrows)
  have hfork := getElem?_of_push hgrows
  rw [(grows_prepend p ⟨a.steps, a.steps.size + p.stepCount⟩).size_eq] at hfork
  have hloop := hround.loop hfork
  refine ⟨hloop, (hround.trans hloop).mono ?_⟩
  rintro c d ⟨e, he, j, hrounds⟩
  exact ⟨j, e, he, hrounds⟩

theorem passedBy_bounded (least most : Nat) (greedy : Bool) (a : Automaton) {k : Nat}
    (hgrows : Grows k ((repeated p least (some most) greedy).prepend a).steps steps) :
    PassedBy steps ((repeated p least (some most) greedy).prepend a).start a.start
      (repeated p least (some most) greedy).Takes := by
  rw [prepend_bounded] at hgrows ⊢
  have hoptions := (grows_repeat (grows_prepend p) least _).trans hgrows
  refine ((passedBy_repeat hp least _ hgrows).trans
    (passedBy_repeat_option hp greedy _ a hoptions)).mono ?_
  rintro c d ⟨e, hleast, j, hj, hmore⟩
  refine ⟨least + j, Nat.le_add_right _ _, fun m hm => ?_, hleast.append hmore⟩
  obtain rfl := Option.some.inj hm
  omega

/-- A repetition that may be left out is entered by the fork of its loop, or by another one if a
round may be empty. -/
theorem passedBy_unbounded_zero (greedy : Bool) (a : Automaton) {k : Nat}
    (hgrows : Grows k ((repeated p 0 none greedy).prepend a).steps steps) :
    PassedBy steps ((repeated p 0 none greedy).prepend a).start a.start
      (repeated p 0 none greedy).Takes := by
  have hany : ∀ c d, (∃ j, Rounds p.Takes j c d) → (repeated p 0 none greedy).Takes c d :=
    fun c d ⟨j, hj⟩ => ⟨j, Nat.zero_le j, by simp, hj⟩
  rw [prepend_unbounded_zero] at hgrows ⊢
  split at hgrows
  · rename_i hnullable
    obtain ⟨-, hround⟩ := passedBy_loop hp greedy a (((Grows.refl _).push _).trans hgrows)
    rw [if_pos hnullable]
    refine .fork greedy (getElem?_of_push hgrows) ?_ ?_
    · exact hround.mono fun c d ⟨j, hj⟩ => hany c d ⟨j + 1, hj⟩
    · exact (PassedBy.refl steps a.start).mono fun c d h => hany c d ⟨0, h⟩
  · rename_i hnullable
    rw [if_neg hnullable]
    exact (passedBy_loop hp greedy a hgrows).1.mono hany

theorem passedBy_unbounded_succ (n : Nat) (greedy : Bool) (a : Automaton) {k : Nat}
    (hgrows : Grows k ((repeated p (n + 1) none greedy).prepend a).steps steps) :
    PassedBy steps ((repeated p (n + 1) none greedy).prepend a).start a.start
      (repeated p (n + 1) none greedy).Takes := by
  rw [prepend_unbounded_succ] at hgrows ⊢
  have hloop := (grows_repeat (grows_prepend p) n _).trans hgrows
  refine ((passedBy_repeat hp n _ hgrows).trans (passedBy_loop hp greedy a hloop).2).mono ?_
  rintro c d ⟨e, hrounds, j, hmore⟩
  exact ⟨n + (j + 1), by omega, by simp, hrounds.append hmore⟩

end

/-- A text is passed one character after the other. -/
theorem passedBy_text (cs : List Char) (a : Automaton) {k : Nat}
    (hgrows : Grows k ((text cs).prepend a).steps steps) :
    PassedBy steps ((text cs).prepend a).start a.start fun c d => c.Passes cs d := by
  induction cs generalizing k with
  | nil => exact .refl steps a.start
  | cons x cs ih =>
      have hmore := ih (((Grows.refl _).push _).trans hgrows)
      refine ((PassedBy.take (getElem?_of_push hgrows)).trans hmore).mono ?_
      rintro c d ⟨e, ⟨y, hy, hpass⟩, hcs⟩
      rw [CharSet.mem_single, decide_eq_true_iff] at hy
      rw [← List.singleton_append, Place.passes_append_iff]
      exact ⟨e, hy ▸ hpass, hcs⟩

/-- The steps that a pattern puts in front of an automaton are only passed by a match of the
pattern. -/
theorem passedBy_prepend (p : Pattern) (a : Automaton) {k : Nat}
    (hgrows : Grows k (p.prepend a).steps steps) :
    PassedBy steps (p.prepend a).start a.start p.Takes := by
  induction p generalizing a k with
  | nothing => exact .refl steps a.start
  | text cs => exact passedBy_text cs a hgrows
  | char s => exact .take (getElem?_of_push hgrows)
  | anchor b => exact .test (getElem?_of_push hgrows)
  | group n p ih => exact ih a hgrows
  | seq p q ihp ihq =>
      exact (ihp _ hgrows).trans (ihq a ((grows_prepend p _).trans hgrows))
  | alt p q ihp ihq =>
      have hfirst := ((Grows.refl _).push _).trans hgrows
      have hsecond := (grows_prepend p ⟨_, a.start⟩).trans hfirst
      refine .fork true (getElem?_of_push hgrows) ?_ ?_
      · exact (ihp ⟨_, a.start⟩ hfirst).mono fun c d => Or.inl
      · exact (ihq a hsecond).mono fun c d => Or.inr
  | repeated p least most greedy ih =>
      have hp : ∀ (a : Automaton) (k : Nat), Grows k (p.prepend a).steps steps →
        PassedBy steps (p.prepend a).start a.start p.Takes := fun a k => ih a
      cases most with
      | some most => exact passedBy_bounded hp least most greedy a hgrows
      | none =>
          cases least with
          | zero => exact passedBy_unbounded_zero hp greedy a hgrows
          | succ n => exact passedBy_unbounded_succ hp n greedy a hgrows

/-- What an anchored automaton finds is a match of its pattern at the start of the text. -/
theorem exists_takes_of_findEnd? {p : Pattern} (hp : p.isAnchored = true) {cs : List Char} {n : Nat}
    (h : p.automaton.findEnd? cs = some n) :
    n ≤ cs.length ∧ ∃ d, d.rest = cs.drop n ∧ p.Takes ⟨none, cs⟩ d := by
  rw [automaton, if_pos hp] at h
  obtain ⟨hn, m, d, hd, hway⟩ := exists_accepts_of_findEnd? h
  refine ⟨hn, d, hd, ?_⟩
  obtain ⟨m', -, e, he, hdone⟩ := passedBy_prepend p .done (.refl _) m _ d hway
  rwa [hdone.of_accept ((grows_prepend p .done).extends_before 0 .accept rfl)]

end Pattern

end SmallLang
