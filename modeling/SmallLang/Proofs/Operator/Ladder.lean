import Mathlib.Data.List.Basic
import SmallLang.Operator.Ladder
import SmallLang.Proofs.Operator.Use
import SmallLang.Proofs.Parsing.Derivation

/-!
# The productions of a ladder

The numbers of a ladder's non-terminals do not overlap, and each holds the productions that the
ladder says it holds: a level climbs to its tail (`productionsOf_head`), a tail lists the operators
of its priority and its end (`productionsOf_tail`), the atoms are those of the closure
(`productionsOf_atom`), and a production that declares an operator is kept as a climb into its own
tail (`production?_kept`). `Grammar.Stratified` lists all productions after such a step, and
`Grammar.mem_productionsOf_stratifyAt_iff` says that the list is complete.
-/

set_option autoImplicit false

namespace SmallLang

/-! ## Priorities -/

theorem mem_insertIncreasing_iff {p q : Int32} {ps : List Int32} :
    q ∈ insertIncreasing p ps ↔ q = p ∨ q ∈ ps := by
  induction ps with
  | nil => simp [insertIncreasing]
  | cons r rs ih =>
      rw [insertIncreasing]
      split
      · simp
      · split
        · rename_i hpr
          subst hpr
          simp
        · simp only [List.mem_cons, ih]
          tauto

theorem mem_increasing_iff {q : Int32} {ps : List Int32} : q ∈ increasing ps ↔ q ∈ ps := by
  induction ps with
  | nil => simp [increasing]
  | cons p ps ih =>
      rw [increasing, List.foldr_cons, ← increasing, mem_insertIncreasing_iff, ih, List.mem_cons]

theorem pairwise_insertIncreasing {p : Int32} {ps : List Int32} (h : ps.Pairwise (· < ·)) :
    (insertIncreasing p ps).Pairwise (· < ·) := by
  induction ps with
  | nil => simp [insertIncreasing]
  | cons q qs ih =>
      obtain ⟨hq, hqs⟩ := List.pairwise_cons.1 h
      rw [insertIncreasing]
      split
      · rename_i hpq
        refine List.pairwise_cons.2 ⟨fun r hr => ?_, h⟩
        rcases List.mem_cons.1 hr with rfl | hr
        · exact hpq
        · exact Int32.lt_trans hpq (hq r hr)
      · split
        · exact h
        · rename_i hpq hne
          refine List.pairwise_cons.2 ⟨fun r hr => ?_, ih hqs⟩
          rcases mem_insertIncreasing_iff.1 hr with rfl | hr
          · have hle : q ≤ r := Int32.not_lt.1 hpq
            exact Int32.lt_of_le_of_ne hle (Ne.symm hne)
          · exact hq r hr

theorem pairwise_increasing (ps : List Int32) : (increasing ps).Pairwise (· < ·) := by
  induction ps with
  | nil => simp [increasing]
  | cons p ps ih => exact pairwise_insertIncreasing ih

namespace Ladder

variable {l : Ladder}

/-! ## Levels -/

/-- The levels of a ladder are in increasing order, each once. -/
def Sorted (l : Ladder) : Prop := l.levels.Pairwise (· < ·)

theorem levelOf_lt {p : Int32} (h : p ∈ l.levels) : l.levelOf p < l.height :=
  List.findIdx_lt_length_of_exists ⟨p, h, by simp⟩

theorem getElem?_levelOf {p : Int32} (h : p ∈ l.levels) : l.levels[l.levelOf p]? = some p := by
  have hlt : l.levels.findIdx (· == p) < l.levels.length := levelOf_lt h
  have hfound := List.findIdx_getElem (w := hlt)
  rw [levelOf, List.getElem?_eq_getElem hlt]
  simpa using hfound

/-- Priorities at later levels are higher. -/
theorem Sorted.lt_iff (h : l.Sorted) {j k : Nat} {p q : Int32} (hp : l.levels[j]? = some p)
    (hq : l.levels[k]? = some q) : j < k ↔ p < q := by
  obtain ⟨hj, rfl⟩ := List.getElem?_eq_some_iff.1 hp
  obtain ⟨hk, rfl⟩ := List.getElem?_eq_some_iff.1 hq
  have hmono := List.pairwise_iff_getElem.1 h
  constructor
  · intro hjk
    exact hmono j k hj hk hjk
  · intro hlt
    rcases Nat.lt_trichotomy j k with hjk | rfl | hkj
    · exact hjk
    · exact absurd hlt Int32.lt_irrefl
    · exact absurd (Int32.lt_trans hlt (hmono k j hk hj hkj)) Int32.lt_irrefl

/-- A priority is at one level only. -/
theorem Sorted.eq_of_getElem? (h : l.Sorted) {j k : Nat} {p : Int32} (hp : l.levels[j]? = some p)
    (hq : l.levels[k]? = some p) : j = k := by
  rcases Nat.lt_trichotomy j k with hjk | rfl | hkj
  · exact absurd ((h.lt_iff hp hq).1 hjk) Int32.lt_irrefl
  · rfl
  · exact absurd ((h.lt_iff hq hp).1 hkj) Int32.lt_irrefl

theorem Sorted.levelOf_eq (h : l.Sorted) {k : Nat} {p : Int32} (hp : l.levels[k]? = some p) :
    l.levelOf p = k :=
  h.eq_of_getElem? (getElem?_levelOf (List.mem_of_getElem? hp)) hp

@[simp] theorem head_zero (l : Ladder) : l.head 0 = l.base := rfl

theorem head_of_pos {k : Nat} (h : 0 < k) : l.head k = l.first + 2 * k - 1 := by
  rw [head, if_neg (by omega)]

/-- The operand of a level is the head of the next one, or the atoms. -/
theorem operand_eq (l : Ladder) (k : Nat) :
    (k + 1 < l.height ∧ l.operand k = l.head (k + 1)) ∨
      (l.height ≤ k + 1 ∧ l.operand k = l.atom) := by
  rw [operand]
  split
  · exact Or.inl ⟨‹_›, rfl⟩
  · exact Or.inr ⟨by omega, rfl⟩

/-- The atoms are the operands of the tightest level, as if they were the head of one more. -/
theorem operand_eq_head {k : Nat} (hk : k < l.height) : l.operand k = l.head (k + 1) := by
  rcases l.operand_eq k with ⟨-, heq⟩ | ⟨hle, heq⟩
  · exact heq
  · rw [heq, Ladder.atom, Ladder.head_of_pos (Nat.succ_pos k)]
    have : l.height = k + 1 := by omega
    rw [this]

theorem atom_eq_head (h : 0 < l.height) : l.atom = l.head l.height := by
  rw [Ladder.atom, Ladder.head_of_pos h]

theorem head_injective (hbase : l.base < l.first) {j k : Nat} (h : l.head j = l.head k) :
    j = k := by
  simp only [Ladder.head] at h
  split at h <;> split at h <;> omega

theorem head_ne_tail (hbase : l.base < l.first) (j k : Nat) : l.head j ≠ l.tail k := by
  simp only [Ladder.head, Ladder.tail]
  split <;> omega

theorem tail_injective {j k : Nat} (h : l.tail j = l.tail k) : j = k := by
  simp only [Ladder.tail] at h
  omega

/-! ## Operators and atoms -/

/-- The symbols of an operator in its tail, without the tail that may follow. -/
def operatorSymbols (l : Ladder) (op : OperatorUse) : List Symbol :=
  if l.isInfix op then replaceLast op.rest (.nonTerminal (l.rightOperand op)) else op.rest

theorem operatorSymbols_ne_nil (l : Ladder) {op : OperatorUse} (h : op.rest ≠ []) :
    l.operatorSymbols op ≠ [] := by
  rw [operatorSymbols]
  split
  · simp [replaceLast]
  · exact h

theorem tailProduction_symbols (l : Ladder) (op : OperatorUse) :
    (l.tailProduction op).symbols =
      l.operatorSymbols op ++
        if l.loops op then [.nonTerminal (l.tail (l.levelOf op.prec.priority))] else [] := by
  simp only [tailProduction, operatorSymbols]
  cases l.loops op with
  | true => simp
  | false => simp

@[simp] theorem atomProduction_construction (l : Ladder) (p : Production) :
    (l.atomProduction p).construction = p.construction := by
  rw [atomProduction]
  split <;> rfl

theorem prec_atomProduction (l : Ladder) (p : Production) :
    (l.atomProduction p).prec = p.prec := by
  rw [atomProduction]
  split <;> rfl

end Ladder

/-! ## Numbers -/

theorem getElem?_flatMap_pair {α β : Type} (f g : α → β) (xs : List α) (j : Nat) :
    (xs.flatMap fun x => [f x, g x])[2 * j]? = xs[j]?.map f ∧
      (xs.flatMap fun x => [f x, g x])[2 * j + 1]? = xs[j]?.map g := by
  induction xs generalizing j with
  | nil => simp
  | cons x xs ih =>
      cases j with
      | zero => simp
      | succ j =>
          have hj : 2 * (j + 1) = 2 * j + 2 := by omega
          rw [hj]
          simpa using ih j

theorem length_flatMap_pair {α β : Type} (f g : α → β) (xs : List α) :
    (xs.flatMap fun x => [f x, g x]).length = 2 * xs.length := by
  induction xs with
  | nil => rfl
  | cons x xs ih =>
      simp only [List.flatMap_cons, List.length_append, ih, List.length_cons, List.length_nil]
      omega

namespace Grammar

variable {g : Grammar} {e : Nat}

/-- The ladder of a non-terminal with all operators on it. -/
def ladderAt (g : Grammar) (e : Nat) : Ladder := g.ladderOf e (g.operatorsOn e)

@[simp] theorem ladderAt_base (g : Grammar) (e : Nat) : (g.ladderAt e).base = e := rfl

@[simp] theorem ladderAt_first (g : Grammar) (e : Nat) : (g.ladderAt e).first = g.size := rfl

theorem sorted_ladderAt (g : Grammar) (e : Nat) : (g.ladderAt e).Sorted := pairwise_increasing _

/-- The levels are the priorities of the operators. -/
theorem mem_levels_ladderAt_iff {p : Int32} :
    p ∈ (g.ladderAt e).levels ↔ ∃ op ∈ g.operatorsOn e, op.prec.priority = p := by
  rw [ladderAt, ladderOf, mem_increasing_iff, List.mem_map]

theorem height_ladderAt_pos (h : g.operatorsOn e ≠ []) : 0 < (g.ladderAt e).height := by
  obtain ⟨op, hop⟩ := List.exists_mem_of_ne_nil _ h
  exact List.length_pos_of_mem (mem_levels_ladderAt_iff.2 ⟨op, hop, rfl⟩)

/-- Without operators nothing changes. -/
theorem stratifyAt_of_eq_nil (h : g.operatorsOn e = []) : g.stratifyAt e = g := by
  rw [stratifyAt, h]

theorem stratifyAt_of_ne_nil (h : g.operatorsOn e ≠ []) :
    g.stratifyAt e =
      { g with
        nonTerminals :=
          (g.nonTerminals.zipIdx.map fun (nt, i) =>
              keptNonTerminal (g.ladderAt e) (g.operatorsOn e) i nt) ++
            g.ladderNonTerminals (g.ladderAt e) (g.operatorsOn e) (g.atomsOf e) } := by
  rw [stratifyAt]
  split
  · rename_i heq
    exact absurd heq h
  · rename_i op ops heq
    simp only [ladderAt, heq]

@[simp] theorem stratifyAt_arena (g : Grammar) (e : Nat) : (g.stratifyAt e).arena = g.arena := by
  rw [stratifyAt]
  split <;> rfl

@[simp] theorem stratifyAt_start (g : Grammar) (e : Nat) : (g.stratifyAt e).start = g.start := by
  rw [stratifyAt]
  split <;> rfl

/-- The operators that other types declare. -/
def declaredOperators (g : Grammar) (e : Nat) : List OperatorUse :=
  (g.operatorsOn e).filter (·.origin.isSome)

/-! ## The non-terminals that a ladder adds -/

/-- The head of a level other than the loosest one. -/
def headNonTerminal (g : Grammar) (l : Ladder) (k : Nat) (p : Int32) : NonTerminal :=
  ⟨g.nameOf l.base ++ "#" ++ toString p.toInt, [l.climbProduction k (l.tail k)]⟩

/-- The tail of a level. -/
def tailNonTerminal (g : Grammar) (l : Ladder) (ops : List OperatorUse) (p : Int32) :
    NonTerminal :=
  ⟨g.nameOf l.base ++ "#" ++ toString p.toInt ++ "'",
    (ops.filter (·.prec.priority == p)).map l.tailProduction ++ [Ladder.endProduction]⟩

/-- The levels contribute the tail of the loosest one, then a head and a tail for each other. -/
theorem flatMap_levelNonTerminals (l : Ladder) (ops : List OperatorUse) (p : Int32)
    (ps : List Int32) :
    ((p :: ps).zipIdx.flatMap fun (q, k) => g.levelNonTerminals l ops k q) =
      g.tailNonTerminal l ops p ::
        (ps.zipIdx 1).flatMap fun x =>
          [g.headNonTerminal l x.2 x.1, g.tailNonTerminal l ops x.1] := by
  rw [List.zipIdx_cons, List.flatMap_cons]
  refine congrArg (g.tailNonTerminal l ops p :: ·) ?_
  refine List.flatMap_congr fun x hx => ?_
  have hpos : x.2 ≠ 0 := by
    have := List.le_snd_of_mem_zipIdx hx
    omega
  obtain ⟨q, k⟩ := x
  exact if_neg hpos

section Added

variable {l : Ladder} {ops : List OperatorUse} {atoms : List Production}

theorem length_flatMap_levelNonTerminals (g : Grammar) (ops : List OperatorUse)
    (h : 0 < l.height) :
    (l.levels.zipIdx.flatMap fun (q, k) => g.levelNonTerminals l ops k q).length =
      2 * l.height - 1 := by
  rw [Ladder.height] at h ⊢
  cases hl : l.levels with
  | nil => simp [hl] at h
  | cons p ps =>
      rw [flatMap_levelNonTerminals, List.length_cons, length_flatMap_pair, List.length_zipIdx,
        List.length_cons]
      omega

theorem length_ladderNonTerminals (h : 0 < l.height) :
    (g.ladderNonTerminals l ops atoms).length =
      2 * l.height + (ops.filter (·.origin.isSome)).length := by
  have hforced : (ops.filterMap fun op => op.origin.map (g.forcedNonTerminal l op)).length =
      (ops.filter (·.origin.isSome)).length := by
    induction ops with
    | nil => rfl
    | cons op ops ih => cases ho : op.origin <;> simp [ho, ih]
  rw [ladderNonTerminals, List.length_append, List.length_append,
    length_flatMap_levelNonTerminals g ops h, hforced, List.length_singleton]
  omega

theorem getElem?_ladderNonTerminals_tail {k : Nat} {p : Int32} (hp : l.levels[k]? = some p) :
    (g.ladderNonTerminals l ops atoms)[2 * k]? = some (g.tailNonTerminal l ops p) := by
  obtain ⟨hk, -⟩ := List.getElem?_eq_some_iff.1 hp
  rw [← Ladder.height] at hk
  have hlen := length_flatMap_levelNonTerminals (l := l) g ops (by omega)
  rw [ladderNonTerminals, List.append_assoc, List.getElem?_append_left (by rw [hlen]; omega)]
  cases hl : l.levels with
  | nil => simp [hl] at hp
  | cons q qs =>
      rw [hl] at hp
      rw [flatMap_levelNonTerminals]
      cases k with
      | zero =>
          obtain rfl : q = p := by simpa using hp
          rfl
      | succ k =>
          have hk : 2 * (k + 1) = 2 * k + 1 + 1 := by omega
          have hqs : (qs.zipIdx 1)[k]? = some (p, k + 1) := by
            rw [List.getElem?_zipIdx, ← List.getElem?_cons_succ, hp, Nat.add_comm]
            rfl
          rw [hk, List.getElem?_cons_succ, (getElem?_flatMap_pair _ _ _ k).2, hqs]
          rfl

theorem getElem?_ladderNonTerminals_head {k : Nat} {p : Int32} (hk : 0 < k)
    (hp : l.levels[k]? = some p) :
    (g.ladderNonTerminals l ops atoms)[2 * k - 1]? = some (g.headNonTerminal l k p) := by
  obtain ⟨hlt, -⟩ := List.getElem?_eq_some_iff.1 hp
  rw [← Ladder.height] at hlt
  have hlen := length_flatMap_levelNonTerminals (l := l) g ops (by omega)
  rw [ladderNonTerminals, List.append_assoc, List.getElem?_append_left (by rw [hlen]; omega)]
  cases hl : l.levels with
  | nil => simp [hl] at hp
  | cons q qs =>
      rw [hl] at hp
      obtain ⟨k, rfl⟩ : ∃ j, k = j + 1 := ⟨k - 1, by omega⟩
      have hk : 2 * (k + 1) - 1 = 2 * k + 1 := by omega
      have hqs : (qs.zipIdx 1)[k]? = some (p, k + 1) := by
        rw [List.getElem?_zipIdx, ← List.getElem?_cons_succ, hp, Nat.add_comm]
        rfl
      rw [flatMap_levelNonTerminals, hk, List.getElem?_cons_succ,
        (getElem?_flatMap_pair _ _ _ k).1, hqs]
      rfl

theorem getElem?_ladderNonTerminals_atom (h : 0 < l.height) :
    (g.ladderNonTerminals l ops atoms)[2 * l.height - 1]? =
      some ⟨g.nameOf l.base ++ "#atom", atoms.map l.atomProduction⟩ := by
  have hlen := length_flatMap_levelNonTerminals g ops h
  rw [ladderNonTerminals, List.append_assoc, List.getElem?_append_right (Nat.le_of_eq hlen), hlen,
    Nat.sub_self]
  rfl

theorem getElem?_ladderNonTerminals_forced (h : 0 < l.height) (j : Nat) :
    (g.ladderNonTerminals l ops atoms)[2 * l.height + j]? =
      (ops.filter (·.origin.isSome))[j]?.bind fun op =>
        op.origin.map (g.forcedNonTerminal l op) := by
  have hlen := length_flatMap_levelNonTerminals g ops h
  rw [ladderNonTerminals, List.getElem?_append_right (by
    rw [List.length_append, hlen, List.length_singleton]; omega), List.length_append, hlen,
    List.length_singleton]
  have hj : 2 * l.height + j - (2 * l.height - 1 + 1) = j := by omega
  rw [hj]
  clear hlen hj
  induction ops generalizing j with
  | nil => rfl
  | cons op ops ih =>
      cases ho : op.origin with
      | none => simpa [ho] using ih j
      | some origin =>
          cases j with
          | zero => simp [ho]
          | succ j => simpa [ho] using ih j

end Added

/-! ## Productions by number -/

theorem getElem?_eq_some_of_lt_size {i : Nat} (hi : i < g.size) :
    ∃ nt, g.nonTerminals[i]? = some nt :=
  ⟨_, List.getElem?_eq_getElem hi⟩

theorem productionsOf_of_getElem? {nt : Nat} {n : NonTerminal} (h : g.nonTerminals[nt]? = some n) :
    g.productionsOf nt = n.productions := by
  rw [productionsOf, h]
  rfl

section Stratified

variable (h : g.operatorsOn e ≠ [])
include h

theorem size_stratifyAt :
    (g.stratifyAt e).size =
      g.size + (2 * (g.ladderAt e).height + (g.declaredOperators e).length) := by
  rw [stratifyAt_of_ne_nil h, size, List.length_append, List.length_map, List.length_zipIdx,
    length_ladderNonTerminals (height_ladderAt_pos h)]
  rfl

theorem getElem?_stratifyAt_old {i : Nat} (hi : i < g.size) :
    (g.stratifyAt e).nonTerminals[i]? =
      (g.nonTerminals[i]?).map (keptNonTerminal (g.ladderAt e) (g.operatorsOn e) i) := by
  have hlen : i < (g.nonTerminals.zipIdx.map fun (nt, i) =>
      keptNonTerminal (g.ladderAt e) (g.operatorsOn e) i nt).length := by
    rw [List.length_map, List.length_zipIdx]
    exact hi
  rw [stratifyAt_of_ne_nil h, List.getElem?_append_left hlen, List.getElem?_map,
    List.getElem?_zipIdx, Option.map_map, Nat.zero_add]
  rfl

theorem getElem?_stratifyAt_new (i : Nat) :
    (g.stratifyAt e).nonTerminals[g.size + i]? =
      (g.ladderNonTerminals (g.ladderAt e) (g.operatorsOn e) (g.atomsOf e))[i]? := by
  rw [stratifyAt_of_ne_nil h, List.getElem?_append_right (by simp [size]), List.length_map,
    List.length_zipIdx]
  rw [size, Nat.add_sub_cancel_left]

/-- The non-terminal with the operators becomes the head of the loosest level. -/
theorem productionsOf_base (he : e < g.size) :
    (g.stratifyAt e).productionsOf e =
      [(g.ladderAt e).climbProduction 0 ((g.ladderAt e).tail 0)] := by
  obtain ⟨nt, hnt⟩ := getElem?_eq_some_of_lt_size he
  have hget := getElem?_stratifyAt_old h he
  rw [hnt, Option.map_some, keptNonTerminal, ladderAt_base, if_pos rfl] at hget
  exact productionsOf_of_getElem? hget

/-- All other non-terminals keep their productions, except for those that declare an operator. -/
theorem productionsOf_kept {i : Nat} (hi : i < g.size) (hne : i ≠ e) :
    (g.stratifyAt e).productionsOf i =
      (g.productionsOf i).zipIdx.map fun (p, k) =>
        keptProduction (g.ladderAt e) (g.operatorsOn e) i k p := by
  obtain ⟨nt, hnt⟩ := getElem?_eq_some_of_lt_size hi
  have hget := getElem?_stratifyAt_old h hi
  rw [hnt, Option.map_some, keptNonTerminal, ladderAt_base, if_neg hne] at hget
  rw [productionsOf_of_getElem? hget, productionsOf_of_getElem? hnt]

theorem production?_kept {i : Nat} (hi : i < g.size) (hne : i ≠ e) (k : Nat) :
    (g.stratifyAt e).production? i k =
      (g.production? i k).map (keptProduction (g.ladderAt e) (g.operatorsOn e) i k) := by
  rw [production?, production?, productionsOf_kept h hi hne, List.getElem?_map,
    List.getElem?_zipIdx, Option.map_map, Nat.zero_add]
  rfl

theorem productionsOf_head {k : Nat} (hpos : 0 < k) (hk : k < (g.ladderAt e).height) :
    (g.stratifyAt e).productionsOf ((g.ladderAt e).head k) =
      [(g.ladderAt e).climbProduction k ((g.ladderAt e).tail k)] := by
  have hget := getElem?_stratifyAt_new h (2 * k - 1)
  rw [getElem?_ladderNonTerminals_head hpos (List.getElem?_eq_getElem hk)] at hget
  have hnumber : (g.ladderAt e).head k = g.size + (2 * k - 1) := by
    rw [Ladder.head_of_pos hpos, ladderAt_first]
    omega
  rw [hnumber, productionsOf_of_getElem? hget]
  rfl

theorem productionsOf_tail {k : Nat} {p : Int32} (hp : (g.ladderAt e).levels[k]? = some p) :
    (g.stratifyAt e).productionsOf ((g.ladderAt e).tail k) =
      ((g.operatorsOn e).filter (·.prec.priority == p)).map (g.ladderAt e).tailProduction ++
        [Ladder.endProduction] := by
  have hget := getElem?_stratifyAt_new h (2 * k)
  rw [getElem?_ladderNonTerminals_tail hp] at hget
  exact productionsOf_of_getElem? hget

theorem productionsOf_atom :
    (g.stratifyAt e).productionsOf (g.ladderAt e).atom =
      (g.atomsOf e).map (g.ladderAt e).atomProduction := by
  have hpos := height_ladderAt_pos h
  have hget := getElem?_stratifyAt_new h (2 * (g.ladderAt e).height - 1)
  rw [getElem?_ladderNonTerminals_atom hpos] at hget
  have hnumber : (g.ladderAt e).atom = g.size + (2 * (g.ladderAt e).height - 1) := by
    rw [Ladder.atom, ladderAt_first]
    omega
  rw [hnumber, productionsOf_of_getElem? hget]

theorem getElem?_stratifyAt_forced {j : Nat} {op : OperatorUse} {origin : Nat × Nat}
    (hop : (g.declaredOperators e)[j]? = some op) (ho : op.origin = some origin) :
    (g.stratifyAt e).nonTerminals[(g.ladderAt e).forced j]? =
      some (g.forcedNonTerminal (g.ladderAt e) op origin) := by
  have hget := getElem?_stratifyAt_new h (2 * (g.ladderAt e).height + j)
  rw [getElem?_ladderNonTerminals_forced (height_ladderAt_pos h), ← declaredOperators, hop,
    Option.bind_some, ho] at hget
  rw [Ladder.forced, ladderAt_first, Nat.add_assoc]
  exact hget

/-- The number after the levels and the atoms begins with its operator and nothing else. -/
theorem productionsOf_forced {j : Nat} {op : OperatorUse}
    (hop : (g.declaredOperators e)[j]? = some op) :
    (g.stratifyAt e).productionsOf ((g.ladderAt e).forced j) =
      [(g.ladderAt e).tailProduction op] := by
  have hsome := (List.mem_filter.1 (List.mem_of_getElem? hop)).2
  obtain ⟨origin, ho⟩ := Option.isSome_iff_exists.1 hsome
  rw [productionsOf_of_getElem? (getElem?_stratifyAt_forced h hop ho)]
  rfl

/-- A number is that of an old non-terminal, of a head or a tail, of the atoms, or of the production
of an operator that another type declares. -/
theorem lt_size_stratifyAt_cases {nt : Nat} (hnt : nt < (g.stratifyAt e).size) :
    nt < g.size ∨
      (∃ k, 0 < k ∧ k < (g.ladderAt e).height ∧ nt = (g.ladderAt e).head k) ∨
      (∃ k, k < (g.ladderAt e).height ∧ nt = (g.ladderAt e).tail k) ∨
      nt = (g.ladderAt e).atom ∨
      ∃ j, j < (g.declaredOperators e).length ∧ nt = (g.ladderAt e).forced j := by
  have hpos := height_ladderAt_pos h
  rw [size_stratifyAt h] at hnt
  by_cases hold : nt < g.size
  · exact Or.inl hold
  refine Or.inr ?_
  obtain ⟨i, rfl⟩ := Nat.exists_eq_add_of_le (Nat.le_of_not_lt hold)
  by_cases hi : i < 2 * (g.ladderAt e).height - 1
  · rcases Nat.mod_two_eq_zero_or_one i with heven | hodd
    · refine Or.inr (Or.inl ⟨i / 2, by omega, ?_⟩)
      rw [Ladder.tail, ladderAt_first]
      omega
    · refine Or.inl ⟨i / 2 + 1, by omega, by omega, ?_⟩
      rw [Ladder.head_of_pos (by omega), ladderAt_first]
      omega
  by_cases hatom : i = 2 * (g.ladderAt e).height - 1
  · refine Or.inr (Or.inr (Or.inl ?_))
    rw [Ladder.atom, ladderAt_first]
    omega
  · refine Or.inr (Or.inr (Or.inr ⟨i - 2 * (g.ladderAt e).height, by omega, ?_⟩))
    rw [Ladder.forced, ladderAt_first]
    omega

end Stratified

/-- The productions after the operators on `e` were arranged in levels, each with the number of its
non-terminal. -/
inductive Stratified (g : Grammar) (e : Nat) : Nat → Production → Prop
  | kept {i k : Nat} {p : Production} (hi : i ≠ e) (hp : g.production? i k = some p) :
      Stratified g e i (keptProduction (g.ladderAt e) (g.operatorsOn e) i k p)
  | head {k : Nat} (hk : k < (g.ladderAt e).height) :
      Stratified g e ((g.ladderAt e).head k)
        ((g.ladderAt e).climbProduction k ((g.ladderAt e).tail k))
  | operator {op : OperatorUse} (hop : op ∈ g.operatorsOn e) :
      Stratified g e ((g.ladderAt e).tail ((g.ladderAt e).levelOf op.prec.priority))
        ((g.ladderAt e).tailProduction op)
  | ending {k : Nat} (hk : k < (g.ladderAt e).height) :
      Stratified g e ((g.ladderAt e).tail k) Ladder.endProduction
  | atom {p : Production} (hp : p ∈ g.atomsOf e) :
      Stratified g e (g.ladderAt e).atom ((g.ladderAt e).atomProduction p)
  | forced {j : Nat} {op : OperatorUse} (hop : (g.declaredOperators e)[j]? = some op) :
      Stratified g e ((g.ladderAt e).forced j) ((g.ladderAt e).tailProduction op)

theorem Stratified.mem (h : g.operatorsOn e ≠ []) (he : e < g.size) {nt : Nat} {p : Production}
    (hp : g.Stratified e nt p) : p ∈ (g.stratifyAt e).productionsOf nt := by
  cases hp with
  | @kept i k p hi hp =>
      have hlt : nt < g.size := lt_size_of_production? hp
      refine mem_productionsOf_iff.2 ⟨k, ?_⟩
      rw [production?_kept h hlt hi, hp]
      rfl
  | @head k hk =>
      rcases Nat.eq_zero_or_pos k with rfl | hpos
      · rw [Ladder.head_zero, ladderAt_base, productionsOf_base h he]
        exact List.mem_singleton.2 rfl
      · rw [productionsOf_head h hpos hk]
        exact List.mem_singleton.2 rfl
  | @operator op hop =>
      have hlevel := Ladder.getElem?_levelOf (mem_levels_ladderAt_iff.2 ⟨op, hop, rfl⟩)
      rw [productionsOf_tail h hlevel]
      refine List.mem_append_left _ (List.mem_map.2 ⟨op, List.mem_filter.2 ⟨hop, ?_⟩, rfl⟩)
      exact beq_self_eq_true _
  | @ending k hk =>
      rw [productionsOf_tail h (List.getElem?_eq_getElem hk)]
      exact List.mem_append_right _ (List.mem_singleton.2 rfl)
  | atom hp =>
      rw [productionsOf_atom h]
      exact List.mem_map.2 ⟨_, hp, rfl⟩
  | forced hop =>
      rw [productionsOf_forced h hop]
      exact List.mem_singleton.2 rfl

/-- What a non-terminal can do after the operators on `e` were arranged in levels. -/
theorem mem_productionsOf_stratifyAt_iff (h : g.operatorsOn e ≠ []) (he : e < g.size) {nt : Nat}
    {p : Production} : p ∈ (g.stratifyAt e).productionsOf nt ↔ g.Stratified e nt p := by
  refine ⟨fun hp => ?_, Stratified.mem h he⟩
  obtain ⟨k, hk⟩ := mem_productionsOf_iff.1 hp
  have hnt := lt_size_of_production? hk
  rcases lt_size_stratifyAt_cases h hnt with
    hold | ⟨j, hpos, hj, rfl⟩ | ⟨j, hj, rfl⟩ | rfl | ⟨j, hj, rfl⟩
  · by_cases hne : nt = e
    · subst hne
      rw [productionsOf_base h he] at hp
      rw [List.mem_singleton.1 hp]
      exact Stratified.head (height_ladderAt_pos h)
    · rw [production?_kept h hold hne, Option.map_eq_some_iff] at hk
      obtain ⟨q, hq, rfl⟩ := hk
      exact Stratified.kept hne hq
  · rw [productionsOf_head h hpos hj] at hp
    rw [List.mem_singleton.1 hp]
    exact Stratified.head hj
  · rw [productionsOf_tail h (List.getElem?_eq_getElem hj)] at hp
    rcases List.mem_append.1 hp with hp | hp
    · obtain ⟨op, hop, rfl⟩ := List.mem_map.1 hp
      obtain ⟨hop, hprio⟩ := List.mem_filter.1 hop
      have hlevel : (g.ladderAt e).levelOf op.prec.priority = j := by
        rw [eq_of_beq hprio]
        exact (sorted_ladderAt g e).levelOf_eq (List.getElem?_eq_getElem hj)
      rw [← hlevel]
      exact Stratified.operator hop
    · rw [List.mem_singleton.1 hp]
      exact Stratified.ending hj
  · rw [productionsOf_atom h] at hp
    obtain ⟨q, hq, rfl⟩ := List.mem_map.1 hp
    exact Stratified.atom hq
  · rw [productionsOf_forced h (List.getElem?_eq_getElem hj)] at hp
    rw [List.mem_singleton.1 hp]
    exact Stratified.forced (List.getElem?_eq_getElem hj)

/-- A kept production is what it was, or an operand and then the operator that it declares. -/
theorem keptProduction_cases (g : Grammar) (e i k : Nat) (p : Production) :
    keptProduction (g.ladderAt e) (g.operatorsOn e) i k p = p ∨
      ∃ j op, (g.declaredOperators e)[j]? = some op ∧ op.origin = some (i, k) ∧
        keptProduction (g.ladderAt e) (g.operatorsOn e) i k p =
          (g.ladderAt e).climbProduction ((g.ladderAt e).levelOf op.prec.priority)
            ((g.ladderAt e).forced j) := by
  rw [keptProduction]
  split
  · rename_i op j hfind
    refine Or.inr ⟨j, op, ?_, ?_, rfl⟩
    · exact List.mk_mem_zipIdx_iff_getElem?.1 (List.mem_of_find?_eq_some hfind)
    · have horigin := List.find?_some hfind
      exact eq_of_beq horigin
  · exact Or.inl rfl

/-- A production that declares an operator on another type is kept as an operand and that
operator. -/
theorem keptProduction_of_origin {op : OperatorUse} {i k : Nat} (hop : op ∈ g.operatorsOn e)
    (ho : op.origin = some (i, k)) (p : Production) :
    ∃ j op', (g.declaredOperators e)[j]? = some op' ∧ op'.origin = some (i, k) ∧
      keptProduction (g.ladderAt e) (g.operatorsOn e) i k p =
        (g.ladderAt e).climbProduction ((g.ladderAt e).levelOf op'.prec.priority)
          ((g.ladderAt e).forced j) := by
  have hdeclared : op ∈ g.declaredOperators e := List.mem_filter.2 ⟨hop, by rw [ho]; rfl⟩
  obtain ⟨n, hn⟩ := List.mem_iff_getElem?.1 hdeclared
  rw [keptProduction]
  split
  · rename_i op' j hfind
    refine ⟨j, op', ?_, ?_, rfl⟩
    · exact List.mk_mem_zipIdx_iff_getElem?.1 (List.mem_of_find?_eq_some hfind)
    · have horigin := List.find?_some hfind
      exact eq_of_beq horigin
  · rename_i hnone
    have hdiffer := List.find?_eq_none.1 hnone (op, n) (List.mk_mem_zipIdx_iff_getElem?.2 hn)
    exact absurd (by simp [ho]) hdiffer

/-- A production that declares no operator is kept as it is. -/
theorem keptProduction_of_not {i k : Nat} (h : ¬ ∃ op ∈ g.operatorsOn e, op.origin = some (i, k))
    (p : Production) : keptProduction (g.ladderAt e) (g.operatorsOn e) i k p = p := by
  rcases keptProduction_cases g e i k p with heq | ⟨j, op, hop, ho, -⟩
  · exact heq
  · exact absurd ⟨op, (List.mem_filter.1 (List.mem_of_getElem? hop)).1, ho⟩ h

/-- A production is found as one operator at most. -/
theorem eq_of_declaredOperators {j j' : Nat} {op op' : OperatorUse} {origin : Nat × Nat}
    (hop : (g.declaredOperators e)[j]? = some op) (hop' : (g.declaredOperators e)[j']? = some op')
    (ho : op.origin = some origin) (ho' : op'.origin = some origin) : j = j' := by
  have hpairwise := List.pairwise_iff_getElem.1 ((g.pairwise_origin e).filter (·.origin.isSome))
  obtain ⟨hj, rfl⟩ := List.getElem?_eq_some_iff.1 hop
  obtain ⟨hj', rfl⟩ := List.getElem?_eq_some_iff.1 hop'
  rcases Nat.lt_trichotomy j j' with hlt | heq | hlt
  · exact absurd ho' (hpairwise j j' hj hj' hlt origin ho)
  · exact heq
  · exact absurd ho (hpairwise j' j hj' hj hlt origin ho')

/-- A production that is found as an operator is kept as an operand and that operator. -/
theorem keptProduction_of_declared {j i k : Nat} {op : OperatorUse}
    (hop : (g.declaredOperators e)[j]? = some op) (ho : op.origin = some (i, k)) (p : Production) :
    keptProduction (g.ladderAt e) (g.operatorsOn e) i k p =
      (g.ladderAt e).climbProduction ((g.ladderAt e).levelOf op.prec.priority)
        ((g.ladderAt e).forced j) := by
  have hmem := (List.mem_filter.1 (List.mem_of_getElem? hop)).1
  obtain ⟨j', op', hop', ho', heq⟩ := keptProduction_of_origin hmem ho p
  obtain rfl := eq_of_declaredOperators hop hop' ho ho'
  obtain rfl := Option.some.inj (hop.symm.trans hop')
  exact heq

/-- The step of a non-terminal without operators keeps all productions, and every other step those
of other non-terminals. -/
theorem production?_stratifyAt {m : Nat} (hm : m < g.size) (hne : m ≠ e ∨ g.operatorsOn e = [])
    (i : Nat) : (g.stratifyAt e).production? m i =
      (g.production? m i).map (keptProduction (g.ladderAt e) (g.operatorsOn e) m i) := by
  by_cases hops : g.operatorsOn e = []
  · rw [stratifyAt_of_eq_nil hops, hops]
    have hid : keptProduction (g.ladderAt e) [] m i = id := rfl
    rw [hid, Option.map_id, id]
  · exact production?_kept hops hm (hne.resolve_right hops) i

/-- A non-terminal none of whose productions declares an operator stays as it is. -/
theorem productionsOf_stratifyAt_of_not {m : Nat} (hm : m < g.size)
    (hne : m ≠ e ∨ g.operatorsOn e = [])
    (hnot : ∀ i, ¬ ∃ op ∈ g.operatorsOn e, op.origin = some (m, i)) :
    (g.stratifyAt e).productionsOf m = g.productionsOf m := by
  refine List.ext_getElem? fun i => ?_
  show (g.stratifyAt e).production? m i = g.production? m i
  rw [production?_stratifyAt hm hne, funext (keptProduction_of_not (hnot i)), Option.map_id']

end Grammar

end SmallLang
