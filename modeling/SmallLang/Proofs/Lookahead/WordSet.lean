import SmallLang.Proofs.Lookahead.FirstExact
import SmallLang.Proofs.Lookahead.SetSession

/-!
# Sets of indices in words

A set of indices can be kept in words of 64 bits (`WordSet`): an index is one bit of one word, the union
of two sets goes word by word and notes whether a word changes, and an enumeration looks at one index
after the other and goes on after the one that it found last. In an `IndexSet` the bits of all words are
one row, two sets are joined and compared at once, and the members are listed together.

For every size, also where the last word is only partly used, both serve any requests as finite sets do
(`WordSet.kinds_serve`): no word is asked for that is not there, all answers are the same, and the same
sets come of it. This needs three facts of words: which indices are contained after one was added and
after a union (`WordSet.exists_add?`, `WordSet.contains?_addAll`), that the words of a set are determined
by what it contains (`WordSet.ext_contains?`), and what an enumeration has still to give
(`WordSet.exists_seek?`).

Sizes have no bound here. A size that is a machine number has to leave room for the 63 that are added
to it before words are counted.
-/

set_option autoImplicit false

namespace SmallLang

/-- The number of words of 64 bits for a set of the given size. -/
def wordCount (size : Nat) : Nat := (size + 63) / 64

theorem lt_wordBits_iff {size i : Nat} : i < wordBits size ↔ i / 64 < wordCount size := by
  unfold wordBits wordCount
  omega

/-- A set of indices below `size`, in words. -/
@[ext]
structure WordSet (size : Nat) where
  words : List (BitVec 64)
  length_words : words.length = wordCount size
  deriving DecidableEq

namespace WordSet

variable {size : Nat}

/-- The set without indices. -/
def empty : WordSet size := ⟨List.replicate (wordCount size) 0#64, List.length_replicate⟩

/-- Whether the index is in the set. There is no answer beyond the last word. -/
def contains? (s : WordSet size) (i : Nat) : Option Bool :=
  s.words[i / 64]?.map fun w : BitVec 64 => w >>> (i % 64) &&& 1#64 == 1#64

/-- The set with another word at a place. -/
def setWord (s : WordSet size) (k : Nat) (w : BitVec 64) : WordSet size :=
  ⟨s.words.set k w, List.length_set.trans s.length_words⟩

/-- Adds an index, and tells whether it is new. There is no place for one beyond the last word. -/
def add? (s : WordSet size) (i : Nat) : Option (Bool × WordSet size) :=
  s.words[i / 64]?.map fun w =>
    let mask := 1#64 <<< (i % 64)
    (w &&& mask == 0#64, s.setWord (i / 64) (w ||| mask))

/-- Puts the bits of some words into others, one word after the other, and tells whether there was a
change before or one of these words changes. -/
def merge (changed : Bool) : List (BitVec 64) → List (BitVec 64) → Bool × List (BitVec 64)
  | w :: ws, v :: vs =>
      let rest := merge (changed || w ||| v != w) ws vs
      (rest.1, (w ||| v) :: rest.2)
  | ws, _ => (changed, ws)

theorem length_merge (changed : Bool) (ws vs : List (BitVec 64)) :
    (merge changed ws vs).2.length = ws.length := by
  fun_induction merge changed ws vs with
  | case1 changed w ws v vs rest ih => exact congrArg (· + 1) ih
  | case2 => rfl

/-- Adds the indices of another set, and tells whether any of them is new. -/
def addAll (s t : WordSet size) : Bool × WordSet size :=
  ((merge false s.words t.words).1,
    ⟨(merge false s.words t.words).2, (length_merge ..).trans s.length_words⟩)

/-- Looks at so many indices from the given one on. The first one in the set is found, and the next
index to look at is the one after it; if none is in the set, it is the size. -/
def seek? (s : WordSet size) : Nat → Nat → Option (Option Nat × Nat)
  | 0, _ => some (none, size)
  | n + 1, i => do
      if ← s.contains? i then return (some i, i + 1)
      s.seek? n (i + 1)

/-- What an enumeration finds from the index on that it has to look at next. -/
def next? (s : WordSet size) (i : Nat) : Option (Option Nat × Nat) := s.seek? (size - i) i

/-- What an enumeration finds at its call of this number, and the index to look at next. -/
def scan? (s : WordSet size) : Nat → Option (Option Nat × Nat)
  | 0 => s.next? 0
  | n + 1 => do
      let (_, i) ← s.scan? n
      s.next? i

/-- Sets in words, as a kind of sets. -/
def kind (size : Nat) : SetKind size (WordSet size) where
  empty := empty
  contains? := contains?
  add? := add?
  addAll := addAll
  call? s n := (s.scan? n).map Prod.fst

/-! ## Bits -/

theorem shifted_eq_getLsbD (w : BitVec 64) (k : Nat) :
    (w >>> k &&& 1#64 == 1#64) = w.getLsbD k := by
  rw [BitVec.and_one_eq_setWidth_ofBool_getLsbD, BitVec.getLsbD_ushiftRight, Nat.add_zero]
  cases w.getLsbD k <;> rfl

theorem masked_eq_not_getLsbD (w : BitVec 64) {k : Nat} (hk : k < 64) :
    (w &&& 1#64 <<< k == 0#64) = !w.getLsbD k := by
  rw [← BitVec.twoPow_eq, BitVec.and_twoPow]
  have hne : BitVec.twoPow 64 k ≠ 0#64 := by
    intro hzero
    have hbit := congrArg (fun w : BitVec 64 => w.getLsbD k) hzero
    simp [hk] at hbit
  cases w.getLsbD k
  · rfl
  · exact beq_eq_false_iff_ne.2 hne

theorem getLsbD_or_mask (w : BitVec 64) {k : Nat} (hk : k < 64) (j : Nat) :
    (w ||| 1#64 <<< k).getLsbD j = (w.getLsbD j || decide (k = j)) := by
  rw [← BitVec.twoPow_eq, BitVec.getLsbD_or, BitVec.getLsbD_twoPow, decide_eq_true hk,
    Bool.true_and]

theorem contains?_eq (s : WordSet size) (i : Nat) :
    s.contains? i = s.words[i / 64]?.map fun w => w.getLsbD (i % 64) := by
  simp only [contains?, shifted_eq_getLsbD]

theorem exists_word (s : WordSet size) {i : Nat} (hi : i < wordBits size) :
    ∃ w, s.words[i / 64]? = some w ∧ s.contains? i = some (w.getLsbD (i % 64)) := by
  have hlt : i / 64 < s.words.length := by
    rw [s.length_words]
    exact lt_wordBits_iff.1 hi
  refine ⟨_, List.getElem?_eq_getElem hlt, ?_⟩
  rw [contains?_eq, List.getElem?_eq_getElem hlt, Option.map_some]

/-! ## What sets contain -/

theorem contains?_empty {i : Nat} (hi : i < wordBits size) :
    (empty : WordSet size).contains? i = some false := by
  rw [contains?_eq, empty, List.getElem?_replicate_of_lt (lt_wordBits_iff.1 hi), Option.map_some,
    BitVec.getLsbD_zero]

/-- An index that has a place is put there, and all others are as before. -/
theorem exists_add? (s : WordSet size) {i : Nat} (hi : i < wordBits size) :
    ∃ old s', s.contains? i = some old ∧ s.add? i = some (!old, s') ∧
      ∀ j, s'.contains? j = if i = j then some true else s.contains? j := by
  obtain ⟨w, hw, hcontains⟩ := s.exists_word hi
  have hplace : i % 64 < 64 := Nat.mod_lt i (by decide)
  have hlt := (List.getElem?_eq_some_iff.1 hw).1
  refine ⟨_, s.setWord (i / 64) (w ||| 1#64 <<< (i % 64)), hcontains, ?_, fun j => ?_⟩
  · rw [add?, hw, ← masked_eq_not_getLsbD w hplace]
    rfl
  · rw [contains?_eq, contains?_eq, setWord]
    by_cases hword : i / 64 = j / 64
    · -- In the same word, other places are those of other indices.
      rw [← hword, List.getElem?_set_self hlt, hw, Option.map_some, Option.map_some,
        getLsbD_or_mask w hplace]
      by_cases hij : i = j
      · rw [if_pos hij, ← hij, decide_eq_true rfl, Bool.or_true]
      · have hother : i % 64 ≠ j % 64 := by omega
        rw [if_neg hij, decide_eq_false hother, Bool.or_false]
    · have hij : i ≠ j := fun hij => hword (congrArg (· / 64) hij)
      rw [if_neg hij, List.getElem?_set_ne hword]

/-- The words become those of the union, and there is a change if these are others. -/
theorem merge_eq (changed : Bool) {ws vs : List (BitVec 64)} (h : ws.length = vs.length) :
    merge changed ws vs =
      (changed || List.zipWith (· ||| ·) ws vs != ws, List.zipWith (· ||| ·) ws vs) := by
  fun_induction merge changed ws vs with
  | case1 changed w ws v vs rest ih =>
      have ih : rest = _ := ih (Nat.succ.inj h)
      have hcons : ((w ||| v) :: List.zipWith (· ||| ·) ws vs != w :: ws) =
          (w ||| v != w || List.zipWith (· ||| ·) ws vs != ws) := by
        simp only [bne, List.cons_beq_cons, Bool.not_and]
      rw [ih, List.zipWith_cons_cons, hcons, Bool.or_assoc]
  | case2 changed ws vs hshort =>
      -- Rows of one length end together.
      cases ws with
      | nil => simp
      | cons w ws =>
          cases vs with
          | nil => simp at h
          | cons v vs => exact (hshort w ws v vs rfl rfl).elim

theorem words_addAll (s t : WordSet size) :
    (s.addAll t).2.words = List.zipWith (· ||| ·) s.words t.words :=
  congrArg Prod.snd (merge_eq false (s.length_words.trans t.length_words.symm))

theorem addAll_eq_true_iff (s t : WordSet size) : (s.addAll t).1 = true ↔ (s.addAll t).2 ≠ s := by
  have hmerge := merge_eq false (s.length_words.trans t.length_words.symm)
  have hchanged : (s.addAll t).1 = (List.zipWith (· ||| ·) s.words t.words != s.words) :=
    (congrArg Prod.fst hmerge).trans (Bool.false_or _)
  rw [hchanged, bne_iff_ne, ← words_addAll, Ne, ← WordSet.ext_iff]

theorem contains?_addAll {s t : WordSet size} {i : Nat} {a b : Bool} (hs : s.contains? i = some a)
    (ht : t.contains? i = some b) : (s.addAll t).2.contains? i = some (a || b) := by
  rw [contains?_eq, Option.map_eq_some_iff] at hs ht
  obtain ⟨w, hw, rfl⟩ := hs
  obtain ⟨v, hv, rfl⟩ := ht
  rw [contains?_eq, words_addAll, List.getElem?_zipWith, hw, hv]
  simp only [Option.map_some, BitVec.getLsbD_or]

/-- Sets that contain the same have the same words. -/
theorem ext_contains? {s t : WordSet size}
    (h : ∀ i < wordBits size, s.contains? i = t.contains? i) : s = t := by
  have hlength : s.words.length = t.words.length := s.length_words.trans t.length_words.symm
  refine WordSet.ext (List.ext_getElem hlength fun k hs ht => BitVec.eq_of_getLsbD_eq fun b hb => ?_)
  -- This bit of this word belongs to the index `64 * k + b`.
  have hword : (64 * k + b) / 64 = k := by omega
  have hplace : (64 * k + b) % 64 = b := by omega
  have hi : 64 * k + b < wordBits size := by
    rw [lt_wordBits_iff, hword, ← s.length_words]
    exact hs
  have halike := h _ hi
  rw [contains?_eq, contains?_eq, hword, hplace, List.getElem?_eq_getElem hs,
    List.getElem?_eq_getElem ht] at halike
  exact Option.some.inj halike

/-! ## Enumerations -/

/-- The members from an index on, as going through all indices finds them. -/
def membersFrom (s : WordSet size) (i : Nat) : List Nat :=
  (List.range' i (size - i)).filter fun j => s.contains? j == some true

theorem membersFrom_of_lt (s : WordSet size) {i : Nat} (hi : i < size) :
    s.membersFrom i =
      if s.contains? i = some true then i :: s.membersFrom (i + 1) else s.membersFrom (i + 1) := by
  obtain ⟨n, hn⟩ : ∃ n, size - i = n + 1 := ⟨size - i - 1, by omega⟩
  have hrest : size - (i + 1) = n := by omega
  rw [membersFrom, membersFrom, hn, hrest, List.range'_succ, List.filter_cons]
  simp only [beq_iff_eq]

/-- A scan to the end finds the first of the members from there on, and leaves the others. -/
theorem exists_seek? (s : WordSet size) {n i : Nat} (hn : n = size - i) :
    ∃ j, s.seek? n i = some ((s.membersFrom i).head?, j) ∧
      s.membersFrom j = (s.membersFrom i).tail := by
  -- The number of indices to look at is what is left up to the size, wherever the scan stands.
  induction n generalizing i with
  | zero =>
      have hend : s.membersFrom i = [] := by
        rw [membersFrom, ← hn]
        rfl
      refine ⟨size, by rw [hend]; rfl, ?_⟩
      rw [hend, membersFrom, Nat.sub_self]
      rfl
  | succ n ih =>
      have hi : i < size := by omega
      obtain ⟨w, -, hcontains⟩ := s.exists_word (IndexSet.lt_wordBits hi)
      rw [membersFrom_of_lt s hi, seek?, hcontains]
      cases w.getLsbD (i % 64) with
      | true => exact ⟨i + 1, rfl, rfl⟩
      | false => exact ih (by omega)

/-- Each call gives the next one of the members. -/
theorem exists_scan? (s : WordSet size) (n : Nat) :
    ∃ j, s.scan? n = some ((s.membersFrom 0)[n]?, j) ∧
      s.membersFrom j = (s.membersFrom 0).drop (n + 1) := by
  induction n with
  | zero =>
      obtain ⟨j, hseek, hrest⟩ := s.exists_seek? (i := 0) rfl
      exact ⟨j, by rw [scan?, next?, hseek, List.head?_eq_getElem?], by rw [hrest, List.drop_one]⟩
  | succ n ih =>
      obtain ⟨i, hscan, hi⟩ := ih
      obtain ⟨j, hseek, hj⟩ := s.exists_seek? (i := i) rfl
      refine ⟨j, ?_, by rw [hj, hi, List.tail_drop]⟩
      rw [scan?, hscan]
      show s.next? i = _
      rw [next?, hseek, hi, List.head?_drop]

/-! ## Both kinds of sets -/

theorem lawful_kind (size : Nat) : (kind size).Lawful where
  contains?_empty _ := contains?_empty
  exists_add? s _ := s.exists_add?
  contains?_addAll := contains?_addAll
  addAll_eq_true_iff := addAll_eq_true_iff
  ext := ext_contains?
  call?_eq s n := by
    obtain ⟨j, hscan, -⟩ := s.exists_scan? n
    show (s.scan? n).map Prod.fst = _
    rw [hscan, List.range_eq_range']
    rfl

end WordSet

namespace IndexSet

variable {size : Nat}

/-- Sets in one row of bits, as a kind of sets. -/
def kind (size : Nat) : SetKind size (IndexSet size) where
  empty := empty
  contains? s i := some (s.contains i)
  add? s i := some (s.add i)
  addAll := addAll
  call? s n := some s.toList[n]?

theorem lawful_kind (size : Nat) : (kind size).Lawful where
  contains?_empty i _ := congrArg some (contains_empty i)
  exists_add? s i hi := by
    refine ⟨s.contains i, s.insert i, rfl, rfl, fun j => ?_⟩
    show some ((s.insert i).contains j) = _
    rw [contains_insert, decide_eq_true hi, Bool.true_and]
    by_cases hij : i = j
    · rw [if_pos hij, decide_eq_true hij, Bool.or_true]
    · rw [if_neg hij, decide_eq_false hij, Bool.or_false]
      rfl
  contains?_addAll {s t i a b} hs ht := by
    obtain rfl := Option.some.inj hs
    obtain rfl := Option.some.inj ht
    exact congrArg some (contains_union s t i)
  addAll_eq_true_iff s t := bne_iff_ne
  ext {s t} h := by
    apply ext_contains
    intro i
    by_cases hi : i < wordBits size
    · exact Option.some.inj (h i hi)
    · rw [contains, contains, BitVec.getLsbD_of_ge _ _ (Nat.le_of_not_lt hi),
        BitVec.getLsbD_of_ge _ _ (Nat.le_of_not_lt hi)]
  call?_eq s n := by
    have hlist : s.toList = (List.range size).filter fun i => some (s.contains i) == some true :=
      List.filter_congr fun i _ => by cases s.contains i <;> rfl
    exact congrArg (fun members => some members[n]?) hlist

end IndexSet

/-- For every size, and for any requests to sets of that size, sets in words serve as finite sets do, and
so do sets in one row of bits. -/
theorem WordSet.kinds_serve (size : Nat) (rs : List (SetRequest size)) :
    (∃ row, (WordSet.kind size).Serves rs row) ∧ ∃ row, (IndexSet.kind size).Serves rs row :=
  ⟨(WordSet.lawful_kind size).exists_row_serves rs, (IndexSet.lawful_kind size).exists_row_serves rs⟩

/-- A union over three words, the last of which has places for two indices only. The copy that was made
before is without it. -/
example : ((WordSet.kind 130).session? [] [.create, .create, .add 0 3, .add 1 64, .add 1 129,
      .copy 0, .addAll 0 1, .addAll 0 1]).map (fun (answers, row) =>
        (answers.reduceOption, row.map fun s => (List.range 4).map ((WordSet.kind 130).call? s))) =
    some ([true, true, true, true, false],
      [[some 3, some 64, some 129, none], [some 64, some 129, none, none],
        [some 3, none, none, none]].map (List.map some)) := by
  decide +kernel

end SmallLang
