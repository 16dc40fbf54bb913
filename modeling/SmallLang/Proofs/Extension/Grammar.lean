import SmallLang.Proofs.Operator.LeftCorner

/-!
# Grammars that grow

Further types come after the types that are there and before the rests of lists, which get other
numbers for it (`renumber`). `Grammar.Grows` says what further types do to a grammar: all productions
stay where they are, a type that was there gets nothing but units to further types, and from these units
lead to further types only. So units lead from one old type to another exactly as before.

If neither grammar is left recursive, then the operators on an old type stay operators on it, and no
production that was there becomes an operator (`Extension.finds_iff`).
-/

set_option autoImplicit false

namespace SmallLang

open Relation (ReflTransGen)

/-! ## Numbers -/

/-- The number of a non-terminal after the number of types has grown from `n` to `n'`. -/
def renumber (n n' i : Nat) : Nat := if i < n then i else i - n + n'

theorem renumber_of_lt {n n' i : Nat} (h : i < n) : renumber n n' i = i := if_pos h

theorem renumber_of_le {n n' i : Nat} (h : n ≤ i) : renumber n n' i = i - n + n' :=
  if_neg (Nat.not_lt.2 h)

theorem renumber_injective {n n' i j : Nat} (hn : n ≤ n') (h : renumber n n' i = renumber n n' j) :
    i = j := by
  rw [renumber, renumber] at h
  split at h <;> split at h <;> omega

/-- Only a type keeps the number of a type. -/
theorem renumber_eq_iff {n n' i x : Nat} (hn : n ≤ n') (hx : x < n) :
    renumber n n' i = x ↔ i = x := by
  rw [renumber]
  split <;> omega

/-- The symbol after the number of types has grown. -/
def Symbol.renumber (n n' : Nat) : Symbol → Symbol
  | .nonTerminal i => .nonTerminal (SmallLang.renumber n n' i)
  | .terminal i => .terminal i

theorem Symbol.renumber_eq_iff {n n' x : Nat} {s : Symbol} (hn : n ≤ n') (hx : x < n) :
    s.renumber n n' = .nonTerminal x ↔ s = .nonTerminal x := by
  cases s with
  | nonTerminal i =>
      rw [Symbol.renumber, Symbol.nonTerminal.injEq, Symbol.nonTerminal.injEq]
      exact SmallLang.renumber_eq_iff hn hx
  | terminal i => simp [Symbol.renumber]

/-- The production after the number of types has grown. -/
def Production.renumber (n n' : Nat) (p : Production) : Production :=
  { p with symbols := p.symbols.map (Symbol.renumber n n') }

/-- The operator after the number of types has grown. -/
def OperatorUse.renumber (n n' : Nat) (op : OperatorUse) : OperatorUse :=
  { op with rest := op.rest.map (Symbol.renumber n n') }

section Renumber

variable {n n' : Nat}

theorem Grammar.operatorUse_renumber (x m i : Nat) (q : Production) :
    operatorUse x m i (q.renumber n n') = (operatorUse x m i q).renumber n n' := by
  simp only [Grammar.operatorUse, OperatorUse.renumber, Production.renumber, List.map_tail]

theorem Production.isOperatorOn_renumber {x : Nat} (hn : n ≤ n') (hx : x < n) (q : Production) :
    (q.renumber n n').isOperatorOn x = q.isOperatorOn x := by
  rw [Bool.eq_iff_iff, isOperatorOn_iff, isOperatorOn_iff]
  obtain ⟨symbols, construction, prec⟩ := q
  match symbols with
  | [] => simp [Production.renumber]
  | [s] => simp [Production.renumber]
  | s :: t :: rest =>
      simp only [Production.renumber, List.map_cons, List.cons.injEq]
      rw [Symbol.renumber_eq_iff hn hx]
      constructor
      · rintro ⟨-, -, rfl, -, -⟩
        exact ⟨t, rest, rfl, rfl, rfl⟩
      · rintro ⟨-, -, rfl, -, -⟩
        exact ⟨t.renumber n n', rest.map (Symbol.renumber n n'), rfl, rfl, rfl⟩

theorem Production.unitTarget?_renumber (q : Production) :
    (q.renumber n n').unitTarget? = q.unitTarget?.map (SmallLang.renumber n n') := by
  obtain ⟨symbols, construction, prec⟩ := q
  simp only [Production.renumber]
  match symbols with
  | [] => rfl
  | [.terminal i] => rfl
  | [.nonTerminal i] =>
      cases construction with
      | child j => cases j <;> rfl
      | _ => rfl
  | s :: t :: rest => cases s <;> rfl

end Renumber

namespace Grammar

/-! ## Growing -/

/-- The second grammar has all that the first one has, and further types. -/
structure Grows (n n' : Nat) (g g' : Grammar) : Prop where
  le : n ≤ n'
  start : g'.start = g.start
  production? : ∀ m i q, g.production? m i = some q →
    g'.production? (renumber n n' m) i = some (q.renumber n n')
  /-- An old type gets units to further types only. -/
  further : ∀ m i p, m < n → g'.production? m i = some p →
    (∃ q, g.production? m i = some q) ∨ ∃ target, p.unitTarget? = some target ∧ n ≤ target
  /-- No unit leads back from a further type. -/
  apart : ∀ m target, n ≤ m → g'.UnitStep m target → n ≤ target

/-- A grammar and one that has grown from it, neither of them left recursive after
stratification. -/
structure Extension (n n' : Nat) (g g' : Grammar) : Prop where
  grows : Grows n n' g g'
  old : g.Staged n g.size
  new : g'.Staged n' g'.size
  oldRecursion : g.stratify.checkLeftRecursion g.stratify.firstTable = .ok ()
  newRecursion : g'.stratify.checkLeftRecursion g'.stratify.firstTable = .ok ()

namespace Extension

variable {n n' : Nat} {g g' : Grammar} (h : Extension n n' g g')
include h

theorem lt_old {x : Nat} (hx : x < n) : x < g.size := Nat.lt_of_lt_of_le hx h.old.types_le

theorem lt_new {x : Nat} (hx : x < n) : x < g'.size :=
  Nat.lt_of_lt_of_le (Nat.lt_of_lt_of_le hx h.grows.le) h.new.types_le

theorem production?_of_lt {m i : Nat} {q : Production} (hm : m < n)
    (hq : g.production? m i = some q) : g'.production? m i = some (q.renumber n n') := by
  have hkept := h.grows.production? m i q hq
  rwa [renumber_of_lt hm] at hkept

/-! ## Units -/

theorem unitStep {a b : Nat} (hab : g.UnitStep a b) : a < n ∧ b < n ∧ g'.UnitStep a b := by
  obtain ⟨p, hp, ht, hb⟩ := hab
  obtain ⟨i, hi⟩ := mem_productionsOf_iff.1 hp
  obtain ⟨ha, hb⟩ := h.old.lt_of_unitTarget? (lt_size_of_production? hi) hp ht
  refine ⟨ha, hb, p.renumber n n', ?_, ?_, h.lt_new hb⟩
  · exact mem_productionsOf_iff.2 ⟨i, h.production?_of_lt ha hi⟩
  · rw [Production.unitTarget?_renumber, ht, Option.map_some, renumber_of_lt hb]

theorem unitStep_of_lt {a b : Nat} (hab : g'.UnitStep a b) (ha : a < n) (hb : b < n) :
    g.UnitStep a b := by
  obtain ⟨p, hp, ht, -⟩ := hab
  obtain ⟨i, hi⟩ := mem_productionsOf_iff.1 hp
  rcases h.grows.further a i p ha hi with ⟨q, hq⟩ | ⟨target, ht', hlt⟩
  · rw [h.production?_of_lt ha hq] at hi
    obtain rfl := Option.some.inj hi
    rw [Production.unitTarget?_renumber, Option.map_eq_some_iff] at ht
    obtain ⟨b', hb', heq⟩ := ht
    rw [renumber_eq_iff h.grows.le hb] at heq
    subst heq
    exact ⟨q, mem_productionsOf_iff.2 ⟨i, hq⟩, hb', h.lt_old hb⟩
  · rw [ht] at ht'
    obtain rfl := Option.some.inj ht'
    exact absurd hb (Nat.not_lt.2 hlt)

/-- A path of units between old types leads through old types. -/
theorem mem_unitClosure_iff_of_lt {e m : Nat} (hm : m < n) :
    m ∈ g'.unitClosure e ↔ m ∈ g.unitClosure e := by
  rw [mem_unitClosure_iff, mem_unitClosure_iff]
  constructor
  · intro hpath
    induction hpath with
    | refl => exact .refl
    | @tail a b _ hab ih =>
        have ha : a < n := by
          by_contra hno
          exact absurd hm (Nat.not_lt.2 (h.grows.apart a b (Nat.le_of_not_lt hno) hab))
        exact (ih ha).tail (h.unitStep_of_lt hab ha hm)
  · intro hpath
    clear hm
    induction hpath with
    | refl => exact .refl
    | tail _ hab ih => exact ih.tail (h.unitStep hab).2.2

/-! ## Operators -/

/-- The operators on an old type stay operators on it. -/
theorem mem_usesAt {x : Nat} (hx : x < n) {op : OperatorUse} (hop : op ∈ g.usesAt x) :
    op.renumber n n' ∈ g'.usesAt x := by
  rw [h.old.mem_usesAt_iff_mem_operatorsOn h.oldRecursion (h.lt_old hx)] at hop
  rw [h.new.mem_usesAt_iff_mem_operatorsOn h.newRecursion (h.lt_new hx)]
  obtain ⟨m, i, q, hm, hq, hisop, rfl⟩ := mem_operatorsOn_iff.1 hop
  have hmn := h.old.lt_of_mem_unitClosure hx hm
  refine mem_operatorsOn_iff.2 ⟨m, i, q.renumber n n', ?_, h.production?_of_lt hmn hq, ?_, ?_⟩
  · exact (h.mem_unitClosure_iff_of_lt hmn).2 hm
  · rw [Production.isOperatorOn_renumber h.grows.le hx, hisop]
  · rw [operatorUse_renumber]

theorem hasLadder {x : Nat} (hx : x < n) (hladder : g.HasLadder x) : g'.HasLadder x := by
  obtain ⟨op, hop⟩ := List.exists_mem_of_ne_nil _ hladder
  exact List.ne_nil_of_mem (h.mem_usesAt hx hop)

/-- Old priorities are priorities of the grown ladder. -/
theorem mem_levels {x : Nat} (hx : x < n) {p : Int32} (hp : p ∈ (g.ladder x).levels) :
    p ∈ (g'.ladder x).levels := by
  obtain ⟨op, hop, rfl⟩ := mem_levels_ladder_iff.1 hp
  exact mem_levels_ladder_iff.2 ⟨_, h.mem_usesAt hx hop, rfl⟩

/-- What a step found, the step of the same type finds again. -/
theorem exists_finds {x m i j : Nat} {op : OperatorUse} (hx : x < n)
    (hfinds : g.Finds x m i j op) : ∃ j', g'.Finds x m i j' (op.renumber n n') :=
  Grammar.exists_finds (h.mem_usesAt hx hfinds.mem_usesAt) hfinds.origin

/-- A step finds no operator in a production that was there and that the step of the same type did not
find before. -/
theorem exists_finds_of_finds {x m i j : Nat} {op : OperatorUse} {q : Production} (hx : x < g'.size)
    (hq : g.production? m i = some q) (hfinds : g'.Finds x (renumber n n' m) i j op) :
    m < n ∧ x < n ∧ ∃ j' op', g.Finds x m i j' op' := by
  have hmn : m < n := by
    by_contra hno
    have hlt := h.new.lt_of_finds hx hfinds
    rw [renumber_of_le (Nat.le_of_not_lt hno)] at hlt
    omega
  rw [renumber_of_lt hmn] at hfinds
  obtain ⟨q', hm, -, hq', hisop, hne, -⟩ := h.new.exists_of_finds hx hfinds
  rw [h.production?_of_lt hmn hq] at hq'
  obtain rfl := Option.some.inj hq'
  -- The production begins with an old type, since only lists mention anything else.
  obtain ⟨s', rest', hs'⟩ := Production.isOperatorOn_iff.1 hisop
  have hxn : x < n := by
    obtain ⟨symbols, construction, prec⟩ := q
    simp only [Production.renumber] at hs'
    cases symbols with
    | nil => exact absurd hs' (by simp)
    | cons s rest =>
        obtain ⟨hs, -⟩ := List.cons.inj hs'
        cases s with
        | terminal i => exact absurd hs (by simp [Symbol.renumber])
        | nonTerminal y =>
            have hmem : (⟨.nonTerminal y :: rest, construction, prec⟩ : Production) ∈
                g.productionsOf m := mem_productionsOf_iff.2 ⟨i, hq⟩
            have hy : y < n := ((h.old.declared_of_mem hmem).lt_of_symbols_eq rfl).2
            have hyx : renumber n n' y = x := Symbol.nonTerminal.inj hs
            rw [renumber_of_lt hy] at hyx
            exact hyx ▸ hy
  rw [Production.isOperatorOn_renumber h.grows.le hxn] at hisop
  have hclosure : m ∈ g.unitClosure x := by
    rw [← h.mem_unitClosure_iff_of_lt hmn]
    apply h.new.closureAt_induction hx hm
    · exact self_mem_unitClosure g' x
    · intro a b _ _ hab ha
      exact mem_unitClosure_iff.2 ((mem_unitClosure_iff.1 ha).tail hab)
  have hop : operatorUse x m i q ∈ g.usesAt x := by
    rw [h.old.mem_usesAt_iff_mem_operatorsOn h.oldRecursion (h.lt_old hxn)]
    exact mem_operatorsOn_iff.2 ⟨m, i, q, hclosure, hq, hisop, rfl⟩
  obtain ⟨j', hj'⟩ := Grammar.exists_finds hop (by rw [operatorUse, if_neg hne])
  exact ⟨hmn, hxn, j', _, hj'⟩

end Extension

end Grammar

end SmallLang
