import SmallLang.Proofs.Pattern.Matching
import SmallLang.Proofs.Scanning.Greatest

/-!
# What the built-in classes match

Numbers, truth values, texts in quotes and names are classes of patterns, and a pattern is matched
by an automaton. Here the automata of the four patterns are followed through any text. What they
match can be said without them: the longest row of digits (`Terminal.matches_number_iff`), one of
two words (`Terminal.matches_boolean_iff`), a quote and all up to the next one
(`Terminal.matches_string_iff`), and a letter or low line with all letters, digits and low lines
after it (`Terminal.matches_identifier_iff`).

The automata share their parts: a first character (`Automaton.exists_findEnd?_take`), a loop that
takes characters of a set and accepts before each of them (`Automaton.endFrom?_loop`), and a row of
steps that spells a word (`Automaton.endFrom?_spells`).
-/

set_option autoImplicit false

namespace SmallLang

/-! ## Marks -/

namespace Marks

/-- No step is marked, and there is room for a mark on each of so many steps. -/
structure Unmarked (m : Marks) (size : Nat) : Prop where
  size_eq : m.stamps.size = size
  contains_eq : ∀ i, m.contains i = false

theorem unmarked_none (size : Nat) : (none size).Unmarked size :=
  ⟨Array.size_replicate, contains_none size⟩

theorem unmarked_clear {m : Marks} {size : Nat} (h : m.stamps.size = size) : m.clear.Unmarked size :=
  ⟨h, contains_clear m⟩

@[simp] theorem size_insert (m : Marks) (i : Nat) : (m.insert i).stamps.size = m.stamps.size :=
  Array.size_setIfInBounds

end Marks

theorem CharSet.single_inj {c d : Char} (h : CharSet.single c = CharSet.single d) : c = d := by
  have hmem := CharSet.mem_single c c
  rw [h, CharSet.mem_single] at hmem
  exact of_decide_eq_true (hmem.trans (decide_eq_true rfl))

namespace Automaton

variable {steps : Array Step} {m : Marks} {before : Option Char} {taken : Nat} {best : Option Nat}

/-! ## One character -/

/-- Marks are set, but none is added or lost. -/
theorem size_marks_spread (c : Place) (n : Nat) (work : List Nat) (f : Frontier) :
    (spread steps c n work f).marks.stamps.size = f.marks.stamps.size := by
  induction n generalizing work f with
  | zero => rfl
  | succ n ih =>
      cases work with
      | nil => rfl
      | cons i work =>
          rw [spread]
          split
          · exact ih work f
          · simp only
            split <;> simp only [ih, Marks.size_insert]

theorem unmarked_clear_frontier (c : Place) (work : List Nat) (hm : m.Unmarked steps.size) :
    (frontier steps c work m).marks.clear.Unmarked steps.size :=
  Marks.unmarked_clear ((size_marks_spread c _ work _).trans hm.size_eq)

/-- At the end of the text a match is complete or not. -/
theorem endFrom?_nil {work : List Nat} {complete : Bool}
    (h : (frontier steps ⟨before, []⟩ work m).complete = complete) :
    endFrom? steps before work m taken best [] = if complete then some taken else best := by
  rw [endFrom?, h]

/-- After one more character the search goes on with what is ahead, the preferred step first. -/
theorem endFrom?_cons {work ahead : List Nat} {complete : Bool} {x : Char} {xs : List Char}
    (hahead : (frontier steps ⟨before, x :: xs⟩ work m).ahead = ahead)
    (hcomplete : (frontier steps ⟨before, x :: xs⟩ work m).complete = complete) :
    endFrom? steps before work m taken best (x :: xs) =
      if ahead.isEmpty then (if complete then some taken else best)
      else endFrom? steps (some x) ahead.reverse
        (frontier steps ⟨before, x :: xs⟩ work m).marks.clear (taken + 1)
        (if complete then some taken else best) xs := by
  rw [endFrom?, ← hahead, ← hcomplete]

/-- At the start of a text, the test for it leads on to the step behind the test. -/
theorem exists_spread_of_textStart {start i : Nat}
    (hstart : steps[start]? = some (.test .textStart i)) (cs : List Char) :
    ∃ m, (∀ j, m.contains j = (start == j)) ∧ m.stamps.size = steps.size ∧
      frontier steps ⟨none, cs⟩ [start] (.none steps.size) =
        spread steps ⟨none, cs⟩ (2 * steps.size + 1) [i] ⟨[], false, m⟩ := by
  have hsize : start < steps.size := (Array.getElem?_eq_some_iff.1 hstart).1
  refine ⟨(Marks.none steps.size).insert start, fun j => ?_, ?_, ?_⟩
  · rw [Marks.contains_insert, Marks.contains_none, Bool.or_false]
    simp [Marks.none, hsize]
  · rw [Marks.size_insert]
    exact Array.size_replicate
  · rw [frontier, List.length_singleton, spread]
    simp [hstart, Anchor.holds]

/-! ## The first character -/

section

variable {start i next : Nat} {first : CharSet}

/-- Where a first character has to be taken at the start of the text, the search goes on behind
it. -/
theorem frontier_textStart_take (hstart : steps[start]? = some (.test .textStart i))
    (hfirst : steps[i]? = some (.take first next)) (cs : List Char) :
    (frontier steps ⟨none, cs⟩ [start] (.none steps.size)).ahead =
        (if (Place.after ⟨none, cs⟩).any first.mem then [next] else []) ∧
      (frontier steps ⟨none, cs⟩ [start] (.none steps.size)).complete = false := by
  have hne : i ≠ start := by
    rintro rfl
    simp [hstart] at hfirst
  have hsize := (Array.getElem?_eq_some_iff.1 hstart).1
  obtain ⟨m, hmarks, -, hfrontier⟩ := exists_spread_of_textStart hstart cs
  obtain ⟨n, hn⟩ := Nat.exists_eq_add_of_le' (show 2 ≤ 2 * steps.size + 1 by omega)
  rw [hfrontier, hn]
  simp [spread, hmarks, Ne.symm hne, hfirst]

theorem findEnd?_take_nil (hstart : steps[start]? = some (.test .textStart i))
    (hfirst : steps[i]? = some (.take first next)) : findEnd? ⟨steps, start⟩ [] = none := by
  rw [findEnd?, endFrom?_nil (frontier_textStart_take hstart hfirst []).2]
  rfl

theorem exists_findEnd?_take (hstart : steps[start]? = some (.test .textStart i))
    (hfirst : steps[i]? = some (.take first next)) (x : Char) (xs : List Char) :
    ∃ m : Marks, m.Unmarked steps.size ∧ findEnd? ⟨steps, start⟩ (x :: xs) =
      if first.mem x then endFrom? steps (some x) [next] m 1 none xs else none := by
  obtain ⟨hahead, hcomplete⟩ := frontier_textStart_take hstart hfirst (x :: xs)
  refine ⟨_, unmarked_clear_frontier ⟨none, x :: xs⟩ [start] (Marks.unmarked_none steps.size), ?_⟩
  rw [findEnd?, endFrom?_cons hahead hcomplete]
  have hhead : (Place.after ⟨none, x :: xs⟩).any first.mem = first.mem x := rfl
  rw [hhead]
  by_cases hx : first.mem x = true
  · simp [hx]
  · simp [hx]

end

/-! ## Loops -/

/-- A step that accepts, one that takes a character of the set, and a fork that prefers to take
one. -/
structure Loops (steps : Array Step) (s : CharSet) : Prop where
  accept : steps[0]? = some .accept
  take : steps[1]? = some (.take s 2)
  fork : steps[2]? = some (.fork 1 0)

theorem Loops.frontier_eq {s : CharSet} (h : Loops steps s) (hm : m.Unmarked steps.size) (c : Place) :
    (frontier steps c [2] m).ahead = (if c.after.any s.mem then [2] else []) ∧
      (frontier steps c [2] m).complete = true := by
  have hsize : 2 < steps.size := (Array.getElem?_eq_some_iff.1 h.fork).1
  obtain ⟨n, hn⟩ := Nat.exists_eq_add_of_le' (show 4 ≤ 2 * steps.size + 1 + 1 by omega)
  rw [frontier, List.length_singleton, hn]
  simp [spread, h.accept, h.take, h.fork, hm.contains_eq]

/-- The loop takes as many characters of the set as there are. -/
theorem endFrom?_loop {s : CharSet} (h : Loops steps s) (hm : m.Unmarked steps.size) (cs : List Char) :
    endFrom? steps before [2] m taken best cs = some (taken + (cs.takeWhile s.mem).length) := by
  induction cs generalizing before m taken best with
  | nil =>
      rw [endFrom?_nil (h.frontier_eq hm _).2]
      rfl
  | cons x xs ih =>
      obtain ⟨hahead, hcomplete⟩ := h.frontier_eq hm ⟨before, x :: xs⟩
      rw [endFrom?_cons hahead hcomplete]
      by_cases hx : s.mem x = true
      · have hnext : (Place.after ⟨before, x :: xs⟩).any s.mem = true := hx
        simp only [hnext, if_true, List.isEmpty_cons, Bool.false_eq_true, if_false,
          List.reverse_singleton]
        rw [ih (unmarked_clear_frontier _ _ hm), List.takeWhile_cons_of_pos hx, List.length_cons]
        congr 1
        omega
      · have hnext : (Place.after ⟨before, x :: xs⟩).any s.mem = false := Bool.eq_false_iff.2 hx
        simp only [hnext, Bool.false_eq_true, if_false, List.isEmpty_nil, if_true,
          List.takeWhile_cons_of_neg hx, List.length_nil, Nat.add_zero]

/-- The number of characters at the start of a text, the first one and those after it of the given
kinds. -/
def runLength? (first more : Char → Bool) : List Char → Option Nat
  | [] => none
  | c :: cs => if first c then some ((cs.takeWhile more).length + 1) else none

/-- A loop that is entered by a first character at the start of the text. -/
theorem findEnd?_loop {start i : Nat} {first s : CharSet} (h : Loops steps s)
    (hstart : steps[start]? = some (.test .textStart i)) (hfirst : steps[i]? = some (.take first 2))
    (cs : List Char) : findEnd? ⟨steps, start⟩ cs = runLength? first.mem s.mem cs := by
  cases cs with
  | nil => exact findEnd?_take_nil hstart hfirst
  | cons x xs =>
      obtain ⟨m, hm, heq⟩ := exists_findEnd?_take hstart hfirst x xs
      rw [heq, endFrom?_loop h hm, runLength?, Nat.add_comm]

/-! ## Words -/

/-- From the step on, the automaton takes the characters of a word and accepts. -/
inductive Spells (steps : Array Step) : Nat → List Char → Prop
  | done {i : Nat} (h : steps[i]? = some .accept) : Spells steps i []
  | letter {i next : Nat} {c : Char} {cs : List Char}
      (h : steps[i]? = some (.take (.single c) next)) (hrest : Spells steps next cs) :
      Spells steps i (c :: cs)

theorem frontier_accept {i : Nat} (h : steps[i]? = some .accept) (hm : m.Unmarked steps.size)
    (p : Place) : (frontier steps p [i] m).ahead = [] ∧ (frontier steps p [i] m).complete = true := by
  have hsize := (Array.getElem?_eq_some_iff.1 h).1
  obtain ⟨n, hn⟩ := Nat.exists_eq_add_of_le' (show 3 ≤ 2 * steps.size + 1 + 1 by omega)
  rw [frontier, List.length_singleton, hn]
  simp [spread, h, hm.contains_eq]

theorem frontier_take {i next : Nat} {s : CharSet} (h : steps[i]? = some (.take s next))
    (hm : m.Unmarked steps.size) (p : Place) :
    (frontier steps p [i] m).ahead = (if p.after.any s.mem then [next] else []) ∧
      (frontier steps p [i] m).complete = false := by
  have hsize := (Array.getElem?_eq_some_iff.1 h).1
  obtain ⟨n, hn⟩ := Nat.exists_eq_add_of_le' (show 3 ≤ 2 * steps.size + 1 + 1 by omega)
  rw [frontier, List.length_singleton, hn]
  simp [spread, h, hm.contains_eq]

theorem endFrom?_spells {i : Nat} {word : List Char} (h : Spells steps i word)
    (hm : m.Unmarked steps.size) (cs : List Char) :
    endFrom? steps before [i] m taken none cs =
      if word.isPrefixOf cs then some (taken + word.length) else none := by
  induction h generalizing before m taken cs with
  | done haccept =>
      have hfrontier := frontier_accept haccept hm
      cases cs with
      | nil => rw [endFrom?_nil (hfrontier _).2]; rfl
      | cons x xs => rw [endFrom?_cons (hfrontier _).1 (hfrontier _).2]; rfl
  | @letter i next c word htake _ ih =>
      have hfrontier := frontier_take htake hm
      cases cs with
      | nil => rw [endFrom?_nil (hfrontier _).2]; rfl
      | cons x xs =>
          have hafter : (Place.after ⟨before, x :: xs⟩).any (CharSet.single c).mem =
              decide (x = c) := CharSet.mem_single c x
          rw [endFrom?_cons (hfrontier _).1 (hfrontier _).2, hafter]
          by_cases hx : x = c
          · subst hx
            simp only [decide_true, if_true, List.isEmpty_cons, Bool.false_eq_true, if_false,
              List.reverse_singleton]
            rw [ih (unmarked_clear_frontier _ _ hm)]
            simp only [List.isPrefixOf_cons_cons_self, List.length_cons]
            split
            · congr 1
              omega
            · rfl
          · simp [hx, Ne.symm hx, List.isPrefixOf]

/-- Where a fork leads to two different characters at the start of the text, the search goes on
behind the one that stands there. -/
theorem frontier_textStart_fork {start i first second next next' : Nat} {c d : Char}
    (hstart : steps[start]? = some (.test .textStart i))
    (hfork : steps[i]? = some (.fork first second))
    (htake : steps[first]? = some (.take (.single c) next))
    (htake' : steps[second]? = some (.take (.single d) next')) (hne : c ≠ d) (cs : List Char) :
    (frontier steps ⟨none, cs⟩ [start] (.none steps.size)).ahead =
        (if cs.head? = some c then [next] else if cs.head? = some d then [next'] else []) ∧
      (frontier steps ⟨none, cs⟩ [start] (.none steps.size)).complete = false := by
  -- No step is met twice, so that no mark keeps one from being followed.
  have hstart_fork : start ≠ i := by rintro rfl; simp [hstart] at hfork
  have hstart_first : start ≠ first := by rintro rfl; simp [hstart] at htake
  have hstart_second : start ≠ second := by rintro rfl; simp [hstart] at htake'
  have hfork_first : i ≠ first := by rintro rfl; simp [hfork] at htake
  have hfork_second : i ≠ second := by rintro rfl; simp [hfork] at htake'
  have hfirst_second : first ≠ second := by
    rintro rfl
    exact hne (CharSet.single_inj (Step.take.inj (Option.some.inj (htake.symm.trans htake'))).1)
  have hsize_start := (Array.getElem?_eq_some_iff.1 hstart).1
  have hsize_fork := (Array.getElem?_eq_some_iff.1 hfork).1
  obtain ⟨m, hmarks, hm, hfrontier⟩ := exists_spread_of_textStart hstart cs
  obtain ⟨n, hn⟩ := Nat.exists_eq_add_of_le' (show 4 ≤ 2 * steps.size + 1 by omega)
  have hafter : ∀ e : Char, (Place.after ⟨none, cs⟩).any (CharSet.single e).mem =
      decide (cs.head? = some e) := by
    intro e
    cases cs with
    | nil => rfl
    | cons x xs => simp [Place.after, CharSet.mem_single]
  rw [hfrontier, hn]
  simp [spread, hmarks, hfork, htake, htake', hstart_fork, hstart_first, hstart_second,
    hfork_first, hfork_second, hfirst_second, hafter]
  by_cases hc : cs.head? = some c
  · simp [hc, hne]
  · simp [hc]

/-- One of two words at the start of a text that begin with different characters. -/
theorem findEnd?_words {start i first second : Nat} {c d : Char} {word other : List Char}
    (hstart : steps[start]? = some (.test .textStart i)) (hfork : steps[i]? = some (.fork first second))
    (hfirst : Spells steps first (c :: word)) (hsecond : Spells steps second (d :: other))
    (hne : c ≠ d) (cs : List Char) : findEnd? ⟨steps, start⟩ cs =
      if (c :: word).isPrefixOf cs then some (word.length + 1)
      else if (d :: other).isPrefixOf cs then some (other.length + 1) else none := by
  obtain _ | ⟨htake, hword⟩ := hfirst
  obtain _ | ⟨htake', hother⟩ := hsecond
  obtain ⟨hahead, hcomplete⟩ := frontier_textStart_fork hstart hfork htake htake' hne cs
  rw [findEnd?]
  cases cs with
  | nil => rw [endFrom?_nil hcomplete]; rfl
  | cons x xs =>
      rw [endFrom?_cons hahead hcomplete]
      simp only [List.head?_cons, Option.some.injEq, List.isPrefixOf, Bool.and_eq_true, beq_iff_eq,
        Bool.false_eq_true, if_false, eq_comm (a := x)]
      have hclear := unmarked_clear_frontier ⟨none, x :: xs⟩ [start] (Marks.unmarked_none steps.size)
      by_cases hc : c = x
      · have hd : d ≠ x := fun h => hne (hc.trans h.symm)
        simp only [hc, hd, if_true, true_and, false_and, if_false, List.isEmpty_cons,
          Bool.false_eq_true, List.reverse_singleton]
        rw [endFrom?_spells hword hclear, Nat.zero_add, Nat.add_comm]
      · by_cases hd : d = x
        · simp only [hc, hd, if_true, true_and, false_and, if_false, List.isEmpty_cons,
            Bool.false_eq_true, List.reverse_singleton]
          rw [endFrom?_spells hother hclear, Nat.zero_add, Nat.add_comm]
        · simp [hc, hd]

/-! ## Quotes -/

/-- A loop that takes characters of the set, and is left by a closing character. -/
structure Closes (steps : Array Step) (s : CharSet) (c : Char) : Prop where
  accept : steps[0]? = some .accept
  close : steps[1]? = some (.take (.single c) 0)
  take : steps[2]? = some (.take s 3)
  fork : steps[3]? = some (.fork 2 1)

/-- The number of characters up to and with the next closing one. -/
def closedLength? (c : Char) (cs : List Char) : Option Nat :=
  if c ∈ cs then some ((cs.takeWhile (· != c)).length + 1) else none

variable {s : CharSet} {c : Char}

theorem Closes.frontier_eq (h : Closes steps s c) (hm : m.Unmarked steps.size) (p : Place) :
    (frontier steps p [3] m).ahead = (if p.after.any (CharSet.single c).mem then [0] else []) ++
        (if p.after.any s.mem then [3] else []) ∧
      (frontier steps p [3] m).complete = false := by
  have hsize : 3 < steps.size := (Array.getElem?_eq_some_iff.1 h.fork).1
  obtain ⟨n, hn⟩ := Nat.exists_eq_add_of_le' (show 4 ≤ 2 * steps.size + 1 + 1 by omega)
  rw [frontier, List.length_singleton, hn]
  simp [spread, h.close, h.take, h.fork, hm.contains_eq]
  by_cases hs : p.after.any s.mem = true <;> by_cases hc : p.after.any (CharSet.single c).mem = true <;>
    simp [hs, hc]

/-- The loop goes on up to the first closing character, which is not in the set. -/
theorem endFrom?_closes (h : Closes steps s c) (hs : ∀ x, s.mem x = (x != c))
    (hm : m.Unmarked steps.size) (cs : List Char) :
    endFrom? steps before [3] m taken none cs = (closedLength? c cs).map (taken + ·) := by
  induction cs generalizing before m taken with
  | nil => rw [endFrom?_nil (h.frontier_eq hm _).2]; rfl
  | cons x xs ih =>
      obtain ⟨hahead, hcomplete⟩ := h.frontier_eq hm ⟨before, x :: xs⟩
      rw [endFrom?_cons hahead hcomplete]
      have hclose : (Place.after ⟨before, x :: xs⟩).any (CharSet.single c).mem = decide (x = c) :=
        CharSet.mem_single c x
      have hgo : (Place.after ⟨before, x :: xs⟩).any s.mem = (x != c) := hs x
      have hclear := unmarked_clear_frontier ⟨before, x :: xs⟩ [3] hm
      rw [hclose, hgo]
      by_cases hx : x = c
      · subst hx
        have hdone : Spells steps 0 [] := .done h.accept
        simp [endFrom?_spells hdone hclear, closedLength?]
      · simp [hx, ih hclear, closedLength?, Ne.symm hx]
        rcases Decidable.em (c ∈ xs) with hc | hc
        · simp [hc]
          omega
        · simp [hc]

theorem findEnd?_closes {start i : Nat} {first : CharSet} (h : Closes steps s c)
    (hs : ∀ x, s.mem x = (x != c)) (hstart : steps[start]? = some (.test .textStart i))
    (hfirst : steps[i]? = some (.take first 3)) {x : Char} (hx : first.mem x = true)
    (xs : List Char) :
    findEnd? ⟨steps, start⟩ (x :: xs) = (closedLength? c xs).map (1 + ·) := by
  obtain ⟨m, hm, heq⟩ := exists_findEnd?_take hstart hfirst x xs
  rw [heq, if_pos hx, endFrom?_closes h hs hm]

end Automaton

/-! ## The sets of the classes -/

namespace CharSet

theorem mem_cons {ranges : List (Nat × Nat)} {first last : Nat} {c : Char} :
    (mk ((first, last) :: ranges)).mem c =
      (decide (first ≤ c.toNat) && (decide (c.toNat ≤ last) || (mk ranges).mem c)) := by
  simp only [mem, memCode, Text.inRanges]
  by_cases hfirst : c.toNat < first
  · simp [hfirst]
  · have hle : first ≤ c.toNat := by omega
    by_cases hlast : c.toNat ≤ last
    · simp [hfirst, hle, hlast]
    · simp [hfirst, hle, hlast]

theorem mem_nil (c : Char) : (mk []).mem c = false := rfl

theorem beq_eq_decide (c d : Char) : (c == d) = decide (c.toNat = d.toNat) := by
  rw [Bool.eq_iff_iff, beq_iff_eq, decide_eq_true_eq, Char.toNat_inj]

theorem isDigit_eq_decide (c : Char) :
    c.isDigit = (decide (48 ≤ c.toNat) && decide (c.toNat ≤ 57)) := by
  simp only [Char.isDigit, ge_iff_le, UInt32.le_iff_toNat_le]
  rfl

theorem isAlpha_eq_decide (c : Char) :
    c.isAlpha = (decide (65 ≤ c.toNat ∧ c.toNat ≤ 90) ||
      (decide (97 ≤ c.toNat) && decide (c.toNat ≤ 122))) := by
  simp only [Char.isAlpha, Char.isUpper, Char.isLower, ge_iff_le, UInt32.le_iff_toNat_le]
  rfl

theorem mem_digits (c : Char) : (mk [(48, 57)]).mem c = c.isDigit := by
  rw [mem_cons, mem_nil, Bool.or_false, isDigit_eq_decide]

theorem mem_letters (c : Char) :
    (mk [(65, 90), (95, 95), (97, 122)]).mem c = (c.isAlpha || c == '_') := by
  have hlow : '_'.toNat = 95 := rfl
  rw [mem_cons, mem_cons, mem_cons, mem_nil, isAlpha_eq_decide, beq_eq_decide, hlow,
    Bool.eq_iff_iff]
  simp only [Bool.and_eq_true, Bool.or_eq_true, decide_eq_true_eq, Bool.false_eq_true, or_false]
  omega

theorem mem_alphanumerics (c : Char) :
    (mk [(48, 57), (65, 90), (95, 95), (97, 122)]).mem c = (c.isAlphanum || c == '_') := by
  have hlow : '_'.toNat = 95 := rfl
  rw [mem_cons, mem_letters, Char.isAlphanum, isDigit_eq_decide, isAlpha_eq_decide, beq_eq_decide,
    hlow, Bool.eq_iff_iff]
  simp only [Bool.and_eq_true, Bool.or_eq_true, decide_eq_true_eq]
  omega

theorem mem_unquoted (c : Char) : (mk [(0, 33), (35, 1114111)]).mem c = (c != '\"') := by
  have hquote : '\"'.toNat = 34 := rfl
  have hcode : c.toNat < 1114112 := by
    rcases c.valid with h | ⟨-, h⟩
    · exact lt_trans h (by decide)
    · exact h
  rw [mem_cons, mem_cons, mem_nil, bne, beq_eq_decide, hquote, Bool.eq_iff_iff]
  simp only [Bool.and_eq_true, Bool.or_eq_true, decide_eq_true_eq, Bool.false_eq_true, or_false,
    Bool.not_eq_true', decide_eq_false_iff_not]
  omega

end CharSet

/-! ## The classes -/

namespace Pattern

theorem compile?_of_read? {pattern : String} {p : Pattern} {a : Automaton}
    (hread : read? (anchoredText pattern) = some p) (hsmall : p.isSmall = true)
    (hautomaton : p.automaton = a) : compile? pattern = some a.findEnd? := by
  rw [compile?, hread]
  simp only [hsmall, hautomaton, if_true]

end Pattern

namespace Terminal

/-- What a class matches, once its pattern is known to compile. -/
theorem matches_tokenClass_iff {name pattern : String} {decoder : Decoder}
    {matchLength : List Char → Option Nat} (h : Pattern.compile? pattern = some matchLength)
    {cs : List Char} {n : Nat} :
    (tokenClass name pattern decoder).Matches Pattern.compile? cs n ↔ matchLength cs = some n := by
  rw [tokenClass, matches_ofClass_iff, h]
  rfl

/-- The steps for rows of digits. -/
def numberSteps : Array Step :=
  #[.accept, .take ⟨[(48, 57)]⟩ 2, .fork 1 0, .test .textStart 1]

theorem compile?_number :
    Pattern.compile? "[0-9]+" = some (Automaton.mk numberSteps 3).findEnd? := by
  refine Pattern.compile?_of_read?
    (p := .seq (.anchor .textStart) (.repeated (.char ⟨[(48, 57)]⟩) 1 none true)) ?_ ?_ rfl
  · decide +kernel
  · decide +kernel

theorem matches_number_iff {cs : List Char} {n : Nat} :
    number.Matches Pattern.compile? cs n ↔
      Automaton.runLength? Char.isDigit Char.isDigit cs = some n := by
  rw [number, matches_tokenClass_iff compile?_number,
    Automaton.findEnd?_loop (i := 1) ⟨rfl, rfl, rfl⟩ rfl rfl, funext CharSet.mem_digits]

/-- The steps for the two words, the first one before the second one. -/
def booleanSteps : Array Step :=
  #[.accept, .take (.single 'e') 0, .take (.single 's') 1, .take (.single 'l') 2,
    .take (.single 'a') 3, .take (.single 'f') 4, .take (.single 'e') 0, .take (.single 'u') 6,
    .take (.single 'r') 7, .take (.single 't') 8, .fork 9 5, .test .textStart 10]

theorem compile?_boolean :
    Pattern.compile? "true|false" = some (Automaton.mk booleanSteps 11).findEnd? := by
  refine Pattern.compile?_of_read?
    (p := .seq (.anchor .textStart) (.alt (.text "true".toList) (.text "false".toList))) ?_ ?_ rfl
  · decide +kernel
  · decide +kernel

theorem matches_boolean_iff {cs : List Char} {n : Nat} :
    boolean.Matches Pattern.compile? cs n ↔
      ['t', 'r', 'u', 'e'] <+: cs ∧ n = 4 ∨ ['f', 'a', 'l', 's', 'e'] <+: cs ∧ n = 5 := by
  have htrue : Automaton.Spells booleanSteps 9 ['t', 'r', 'u', 'e'] :=
    .letter rfl (.letter rfl (.letter rfl (.letter rfl (.done rfl))))
  have hfalse : Automaton.Spells booleanSteps 5 ['f', 'a', 'l', 's', 'e'] :=
    .letter rfl (.letter rfl (.letter rfl (.letter rfl (.letter rfl (.done rfl)))))
  rw [boolean, tokenClass, withPriority, matches_ofClass_iff, compile?_boolean, Option.bind_some,
    Automaton.findEnd?_words (i := 10) rfl rfl htrue hfalse (by decide)]
  simp only [List.isPrefixOf_iff_prefix]
  by_cases ht : ['t', 'r', 'u', 'e'] <+: cs
  · -- No text begins with both words.
    have hf : ¬ ['f', 'a', 'l', 's', 'e'] <+: cs := fun hf =>
      absurd (List.prefix_of_prefix_length_le ht hf (by decide)) (by decide)
    simp [ht, hf, eq_comm]
  · simp [ht, eq_comm]

/-- The steps for texts in quotes. -/
def stringSteps : Array Step :=
  #[.accept, .take (.single '\"') 0, .take ⟨[(0, 33), (35, 1114111)]⟩ 3, .fork 2 1,
    .take (.single '\"') 3, .test .textStart 4]

theorem compile?_string :
    Pattern.compile? "\"[^\"]*\"" = some (Automaton.mk stringSteps 5).findEnd? := by
  refine Pattern.compile?_of_read?
    (p := .seq (.anchor .textStart) (.seq (.text ['\"'])
      (.seq (.repeated (.char ⟨[(0, 33), (35, 1114111)]⟩) 0 none true) (.text ['\"'])))) ?_ ?_ rfl
  · decide +kernel
  · decide +kernel

theorem matches_string_iff {cs : List Char} {n : Nat} :
    string.Matches Pattern.compile? cs n ↔
      ∃ rest, cs = '\"' :: rest ∧ (Automaton.closedLength? '\"' rest).map (1 + ·) = some n := by
  have hstart : stringSteps[5]? = some (.test .textStart 4) := rfl
  have hfirst : stringSteps[4]? = some (.take (.single '\"') 3) := rfl
  rw [string, matches_tokenClass_iff compile?_string]
  cases cs with
  | nil => simp [Automaton.findEnd?_take_nil hstart hfirst]
  | cons x xs =>
      by_cases hx : x = '\"'
      · subst hx
        rw [Automaton.findEnd?_closes ⟨rfl, rfl, rfl, rfl⟩ CharSet.mem_unquoted hstart hfirst
          (by rw [CharSet.mem_single]; rfl)]
        simp
      · obtain ⟨m, -, heq⟩ := Automaton.exists_findEnd?_take hstart hfirst x xs
        rw [heq, CharSet.mem_single]
        simp [hx]

/-- The steps for names. -/
def identifierSteps : Array Step :=
  #[.accept, .take ⟨[(48, 57), (65, 90), (95, 95), (97, 122)]⟩ 2, .fork 1 0,
    .take ⟨[(65, 90), (95, 95), (97, 122)]⟩ 2, .test .textStart 3]

theorem compile?_identifier : Pattern.compile? "[A-Za-z_][A-Za-z0-9_]*" =
    some (Automaton.mk identifierSteps 4).findEnd? := by
  refine Pattern.compile?_of_read?
    (p := .seq (.anchor .textStart) (.seq (.char ⟨[(65, 90), (95, 95), (97, 122)]⟩)
      (.repeated (.char ⟨[(48, 57), (65, 90), (95, 95), (97, 122)]⟩) 0 none true))) ?_ ?_ rfl
  · decide +kernel
  · decide +kernel

theorem matches_identifier_iff {cs : List Char} {n : Nat} :
    identifier.Matches Pattern.compile? cs n ↔
      Automaton.runLength? (fun c => c.isAlpha || c == '_') (fun c => c.isAlphanum || c == '_') cs =
        some n := by
  rw [identifier, matches_tokenClass_iff compile?_identifier,
    Automaton.findEnd?_loop (i := 3) ⟨rfl, rfl, rfl⟩ rfl rfl, funext CharSet.mem_letters,
    funext CharSet.mem_alphanumerics]

end Terminal

end SmallLang
