import Mathlib.Data.List.Basic
import SmallLang.Lookahead.First
import SmallLang.Proofs.Parsing.Derivation

/-!
# What FIRST sets hold

Both directions of FIRST sets, for every grammar whose symbols exist. The set of a symbol covers the
beginning of the tokens of each of its derivation trees (`Grammar.starts_of_derives`). It holds nothing
beyond any sets that are closed under the productions (`Grammar.FirstClosed`,
`Grammar.FirstClosed.includes_firstTable`).
-/

set_option autoImplicit false

namespace SmallLang

/-! ## Sets of indices and tables -/

namespace IndexSet

variable {size : Nat}

@[simp] theorem contains_empty (i : Nat) : (empty : IndexSet size).contains i = false := by
  simp [contains, empty]

theorem contains_union (s t : IndexSet size) (i : Nat) :
    (s.union t).contains i = (s.contains i || t.contains i) := by
  simp [contains, union]

theorem ext_contains {s t : IndexSet size} (h : ∀ i, s.contains i = t.contains i) : s = t := by
  obtain ⟨s⟩ := s
  obtain ⟨t⟩ := t
  exact congrArg mk (BitVec.eq_of_getLsbD_eq fun i _ => h i)

theorem lt_wordBits {i : Nat} (hi : i < size) : i < wordBits size := by
  unfold wordBits
  omega

theorem contains_insert_empty (t i : Nat) :
    ((empty : IndexSet size).insert t).contains i =
      (decide (t < wordBits size) && decide (t = i)) := by
  simp [contains, insert, empty, BitVec.getLsbD_twoPow]

end IndexSet

theorem getElem?_growAll {α : Type} (grow : Nat → α → α) (xs : List α) (i : Nat) :
    (growAll grow xs)[i]? = xs[i]?.map (grow i) := by
  simp [growAll, List.getElem?_zipIdx, Option.map_map, Function.comp_def]

theorem length_growAll {α : Type} (grow : Nat → α → α) (xs : List α) :
    (growAll grow xs).length = xs.length := by
  simp [growAll]

namespace FirstSet

variable {n : Nat}

/-- Some tokens can begin a text of the set: their first terminal is in it, or there are none and the
empty text is in it. -/
def Starts (a : FirstSet n) : List Token → Prop
  | [] => a.empty = true
  | t :: _ => t.terminal < n ∧ a.terminals.contains t.terminal = true

theorem Starts.union_right {b : FirstSet n} {ts : List Token} (h : b.Starts ts) (a : FirstSet n) :
    (a.union b).Starts ts := by
  cases ts with
  | nil =>
      show (a.empty || b.empty) = true
      rw [show b.empty = true from h, Bool.or_true]
  | cons t ts => exact ⟨h.1, by simp [union, IndexSet.contains_union, h.2]⟩

theorem Starts.followedBy {a b : FirstSet n} {ts us : List Token} (ha : a.Starts ts)
    (hb : b.Starts us) : (a.followedBy b).Starts (ts ++ us) := by
  cases ts with
  | nil =>
      have hempty : a.empty = true := ha
      cases us with
      | nil =>
          have hb' : b.empty = true := hb
          simp [FirstSet.followedBy, hempty, Starts, hb']
      | cons u us =>
          refine ⟨hb.1, ?_⟩
          simp [FirstSet.followedBy, hempty, IndexSet.contains_union, hb.2]
  | cons t ts =>
      refine ⟨ha.1, ?_⟩
      unfold FirstSet.followedBy
      split
      · simp [IndexSet.contains_union, ha.2]
      · exact ha.2

theorem starts_single {t : Token} (h : t.terminal < n) (ts : List Token) :
    (single t.terminal : FirstSet n).Starts (t :: ts) := by
  refine ⟨h, ?_⟩
  have hlt := IndexSet.lt_wordBits h
  simp [single, IndexSet.contains_insert_empty, hlt]

/-- One set holds whatever another one holds. -/
def Includes (b a : FirstSet n) : Prop := b.union a = b

theorem Includes.starts {a b : FirstSet n} (h : b.Includes a) {ts : List Token}
    (ha : a.Starts ts) : b.Starts ts := by
  rw [← show b.union a = b from h]
  exact ha.union_right b

variable {a b c : FirstSet n}

theorem ext_contains (hempty : a.empty = b.empty)
    (h : ∀ t, a.terminals.contains t = b.terminals.contains t) : a = b := by
  obtain ⟨e, ts⟩ := a
  obtain ⟨e', ts'⟩ := b
  obtain rfl : e = e' := hempty
  obtain rfl : ts = ts' := IndexSet.ext_contains h
  rfl

theorem includes_iff :
    b.Includes a ↔ (a.empty = true → b.empty = true) ∧
      ∀ t, a.terminals.contains t = true → b.terminals.contains t = true := by
  constructor
  · intro h
    rw [← show b.union a = b from h]
    refine ⟨fun he => ?_, fun t ht => ?_⟩
    · rw [union, he, Bool.or_true]
    · rw [union, IndexSet.contains_union, ht, Bool.or_true]
  · rintro ⟨he, ht⟩
    apply ext_contains
    · show (b.empty || a.empty) = b.empty
      exact Bool.or_eq_left_iff_imp.2 he
    · intro t
      rw [union, IndexSet.contains_union]
      exact Bool.or_eq_left_iff_imp.2 (ht t)

theorem includes_refl (a : FirstSet n) : a.Includes a :=
  includes_iff.2 ⟨id, fun _ => id⟩

theorem Includes.trans (hab : a.Includes b) (hbc : b.Includes c) : a.Includes c := by
  obtain ⟨he, ht⟩ := includes_iff.1 hab
  obtain ⟨he', ht'⟩ := includes_iff.1 hbc
  exact includes_iff.2 ⟨he ∘ he', fun t => ht t ∘ ht' t⟩

theorem includes_union_left (a b : FirstSet n) : (a.union b).Includes a :=
  includes_iff.2 ⟨fun he => by rw [union, he, Bool.true_or],
    fun t ht => by rw [union, IndexSet.contains_union, ht, Bool.true_or]⟩

theorem includes_union_right (a b : FirstSet n) : (a.union b).Includes b :=
  includes_iff.2 ⟨fun he => by rw [union, he, Bool.or_true],
    fun t ht => by rw [union, IndexSet.contains_union, ht, Bool.or_true]⟩

theorem includes_foldl_union {α : Type} (sets : α → FirstSet n) {xs : List α} {x : α} (hx : x ∈ xs)
    (a : FirstSet n) : (xs.foldl (fun a x => a.union (sets x)) a).Includes (sets x) := by
  have keep : ∀ (xs : List α) (a : FirstSet n),
      (xs.foldl (fun a x => a.union (sets x)) a).Includes a := by
    intro xs
    induction xs with
    | nil => exact includes_refl
    | cons y ys ih => exact fun a => (ih _).trans (includes_union_left a _)
  induction xs generalizing a with
  | nil => exact absurd hx List.not_mem_nil
  | cons y ys ih =>
      rcases List.mem_cons.1 hx with rfl | hx
      · exact (keep ys _).trans (includes_union_right a _)
      · exact ih hx _

end FirstSet

namespace Grammar

variable {g : Grammar}

/-! ## Beginnings of derivation trees -/

theorem starts_foldl_union {α : Type} {n : Nat} (f : α → FirstSet n) {xs : List α} {x : α}
    (hx : x ∈ xs) {ts : List Token} (h : (f x).Starts ts) (a : FirstSet n) :
    (xs.foldl (fun a x => a.union (f x)) a).Starts ts :=
  (FirstSet.includes_foldl_union f hx a).starts h

theorem length_firstTable (g : Grammar) : g.firstTable.length = g.size := by
  have h : g.firstTable.length = g.size :=
    saturate_induction (P := fun t : FirstTable g.arena.size => t.length = g.size)
      (fun t ht => by rw [firstStep, length_growAll, ht]) (by simp)
  exact h

theorem getElem?_firstTable {nt : Nat} (h : nt < g.size) :
    g.firstTable[nt]? = some (g.firstTable.get nt) := by
  have hlt : nt < g.firstTable.length := by rw [length_firstTable]; exact h
  simp [FirstTable.get, List.getElem?_eq_getElem hlt]

/-- The set of a non-terminal includes those of its productions. -/
theorem includes_firstOfProductions {nt : Nat} (h : nt < g.size) :
    (g.firstTable.get nt).Includes (g.firstOfProductions g.firstTable nt) := by
  have hfixed := congrArg (fun t : FirstTable g.arena.size => t[nt]?) g.firstStep_firstTable
  simp only [firstStep, getElem?_growAll, getElem?_firstTable h, Option.map_some,
    Option.some.injEq] at hfixed
  exact hfixed

theorem starts_of_production {nt : Nat} (h : nt < g.size) {p : Production}
    (hp : p ∈ g.productionsOf nt) {ts : List Token}
    (hts : (g.firstTable.ofSymbols p.symbols).Starts ts) : (g.firstTable.get nt).Starts ts :=
  (includes_firstOfProductions h).starts
    (starts_foldl_union (fun p : Production => g.firstTable.ofSymbols p.symbols) hp hts _)

theorem starts_of_row {n : Nat} {first : FirstTable n} {ss : List Symbol} {ts : List ParseTree}
    (h : List.Forall₂ (fun s t => (first.ofSymbol s).Starts (t.tokens)) ss ts) :
    (first.ofSymbols ss).Starts (ts.flatMap ParseTree.tokens) := by
  induction h with
  | nil => exact rfl
  | cons hs _ ih => exact hs.followedBy ih

/-- Every symbol of every production refers to something in the grammar. -/
def SymbolsExist (g : Grammar) : Prop :=
  ∀ nt ∈ g.nonTerminals, ∀ p ∈ nt.productions, ∀ s ∈ p.symbols, g.HasSymbol s

instance (g : Grammar) : Decidable g.SymbolsExist :=
  inferInstanceAs (Decidable (∀ nt ∈ g.nonTerminals, ∀ p ∈ nt.productions, ∀ s ∈ p.symbols, _))

theorem SymbolsExist.of_production (hg : g.SymbolsExist) {nt p : Nat} {production : Production}
    (hp : g.production? nt p = some production) : ∀ s ∈ production.symbols, g.HasSymbol s := by
  have hlt := lt_size_of_production? hp
  unfold production? productionsOf at hp
  rw [List.getElem?_eq_getElem hlt] at hp
  exact hg _ (List.getElem_mem hlt) production (List.mem_of_getElem? hp)

theorem WellFormed.symbolsExist (hg : g.WellFormed) : g.SymbolsExist := hg.2

/-- The symbols of a production of a well-formed grammar exist. -/
theorem WellFormed.hasSymbol (hg : g.WellFormed) {nt p : Nat} {production : Production}
    (hp : g.production? nt p = some production) {s : Symbol} (hs : s ∈ production.symbols) :
    g.HasSymbol s :=
  hg.symbolsExist.of_production hp s hs

/-- The FIRST set of a symbol covers the beginning of the tokens of each derivation tree. -/
theorem starts_of_derives (hg : g.WellFormed) {s : Symbol} {t : ParseTree} (h : g.Derives s t)
    (hs : g.HasSymbol s) : (g.firstTable.ofSymbol s).Starts t.tokens := by
  induction h using Derives.rec_on with
  | token t => exact FirstSet.starts_single hs []
  | node nt p production children hp hc ih =>
      have hrow : List.Forall₂ (fun s t => (g.firstTable.ofSymbol s).Starts t.tokens)
          production.symbols children := by
        have hall : ∀ s ∈ production.symbols, g.HasSymbol s := fun s hs => hg.hasSymbol hp hs
        generalize production.symbols = symbols at ih hall
        clear hc
        induction ih with
        | nil => exact .nil
        | cons h _ ih =>
            exact .cons (h.choose_spec (hall _ List.mem_cons_self))
              (ih fun s hs => hall s (List.mem_cons_of_mem _ hs))
      rw [ParseTree.tokens_node]
      exact starts_of_production hs (List.mem_of_getElem? hp) (starts_of_row hrow)

/-- The FIRST set of a symbol that has a derivation tree without tokens tells that it can be empty,
whether or not the symbols of the grammar exist: all nodes of the tree are of non-terminals that do. -/
theorem empty_of_derives {s : Symbol} {t : ParseTree} (h : g.Derives s t) (hempty : t.tokens = []) :
    (g.firstTable.ofSymbol s).empty = true := by
  induction h using Derives.rec_on with
  | token t => exact absurd hempty (List.cons_ne_nil _ _)
  | node nt p production children hp hc ih =>
      rw [ParseTree.tokens_node] at hempty
      have hrow : List.Forall₂ (fun s t => (g.firstTable.ofSymbol s).Starts t.tokens)
          production.symbols children := by
        have hchildren := List.flatMap_eq_nil_iff.1 hempty
        generalize production.symbols = symbols at ih
        clear hc hempty
        induction ih with
        | nil => exact .nil
        | @cons s c symbols children hs _ ih =>
            obtain ⟨hhead, htail⟩ := List.forall_mem_cons.1 hchildren
            refine .cons ?_ (ih htail)
            rw [hhead]
            exact hs.choose_spec hhead
      have hstarts := starts_of_row hrow
      rw [hempty] at hstarts
      exact starts_of_production (lt_size_of_production? hp) (List.mem_of_getElem? hp) hstarts

/-- The FIRST set of a row of symbols covers the beginning of the tokens of its derivation trees. -/
theorem starts_of_derivesRow (hg : g.WellFormed) {ss : List Symbol} {ts : List ParseTree}
    (h : g.DerivesRow ss ts) (hs : ∀ s ∈ ss, g.HasSymbol s) :
    (g.firstTable.ofSymbols ss).Starts (ts.flatMap ParseTree.tokens) := by
  apply starts_of_row
  induction h with
  | nil => exact .nil
  | cons h _ ih =>
      exact .cons (starts_of_derives hg h (hs _ List.mem_cons_self))
        (ih fun s h => hs s (List.mem_cons_of_mem _ h))

/-! ## Sets closed under the productions -/

/-- Every symbol of the row is a non-terminal in `empty`. -/
def NullRow (empty : Nat → Prop) (ss : List Symbol) : Prop :=
  ∀ s ∈ ss, ∃ i, s = .nonTerminal i ∧ empty i

/-- The terminal `t` comes first in the row, by the non-terminals in `empty` and the terminals in
`first` of each non-terminal. -/
def FirstInRow (empty : Nat → Prop) (first : Nat → Nat → Prop) : List Symbol → Nat → Prop
  | [], _ => False
  | .terminal i :: _, t => t = i
  | .nonTerminal i :: rest, t => first i t ∨ empty i ∧ FirstInRow empty first rest t

/-- Predicates for the empty text and for first terminals that every production keeps to. -/
structure FirstClosed (g : Grammar) (empty : Nat → Prop) (first : Nat → Nat → Prop) : Prop where
  nullable : ∀ nt p production, g.production? nt p = some production →
    NullRow empty production.symbols → empty nt
  terminal : ∀ nt p production t, g.production? nt p = some production →
    FirstInRow empty first production.symbols t → first nt t

/-- The set of a non-terminal keeps to the predicates. -/
def Within {n : Nat} (a : FirstSet n) (empty : Prop) (first : Nat → Prop) : Prop :=
  (a.empty = true → empty) ∧ ∀ t, a.terminals.contains t = true → first t

variable {empty : Nat → Prop} {first : Nat → Nat → Prop}

theorem within_ofSymbols {n : Nat} {table : FirstTable n}
    (h : ∀ nt, Within (table.get nt) (empty nt) (first nt)) (ss : List Symbol) :
    Within (table.ofSymbols ss) (NullRow empty ss) (FirstInRow empty first ss) := by
  induction ss with
  | nil =>
      refine ⟨fun _ s hs => absurd hs List.not_mem_nil, fun t ht => ?_⟩
      simp [FirstTable.ofSymbols, FirstSet.onlyEmpty] at ht
  | cons s ss ih =>
      cases s with
      | terminal i =>
          refine ⟨fun he => ?_, fun t ht => ?_⟩
          · simp [FirstTable.ofSymbols, FirstTable.ofSymbol, FirstSet.followedBy,
              FirstSet.single] at he
          · simp only [FirstTable.ofSymbols, FirstTable.ofSymbol, FirstSet.followedBy,
              FirstSet.single, Bool.false_eq_true, if_false, IndexSet.contains_insert_empty,
              Bool.and_eq_true, decide_eq_true_eq] at ht
            exact ht.2.symm
      | nonTerminal i =>
          obtain ⟨hempty, hfirst⟩ := h i
          rw [FirstTable.ofSymbols, FirstTable.ofSymbol, FirstSet.followedBy]
          split
          · rename_i he
            refine ⟨fun hrest s hs => ?_, fun t ht => ?_⟩
            · rcases List.mem_cons.1 hs with rfl | hs
              · exact ⟨i, rfl, hempty he⟩
              · exact ih.1 hrest s hs
            · rw [IndexSet.contains_union, Bool.or_eq_true] at ht
              rcases ht with ht | ht
              · exact Or.inl (hfirst t ht)
              · exact Or.inr ⟨hempty he, ih.2 t ht⟩
          · rename_i he
            exact ⟨fun h => absurd h he, fun t ht => Or.inl (hfirst t ht)⟩

theorem within_foldl_union {α : Type} {n : Nat} {e : Prop} {f : Nat → Prop} (sets : α → FirstSet n)
    {xs : List α} (h : ∀ x ∈ xs, Within (sets x) e f) {a : FirstSet n} (ha : Within a e f) :
    Within (xs.foldl (fun a x => a.union (sets x)) a) e f := by
  induction xs generalizing a with
  | nil => exact ha
  | cons x xs ih =>
      refine ih (fun y hy => h y (List.mem_cons_of_mem _ hy)) ?_
      have hx := h x List.mem_cons_self
      refine ⟨fun he => ?_, fun t ht => ?_⟩
      · simp only [FirstSet.union, Bool.or_eq_true] at he
        exact he.elim ha.1 hx.1
      · simp only [FirstSet.union, IndexSet.contains_union, Bool.or_eq_true] at ht
        exact ht.elim (ha.2 t) (hx.2 t)

theorem within_none {n : Nat} (e : Prop) (f : Nat → Prop) : Within (FirstSet.none : FirstSet n) e f :=
  ⟨fun h => by simp [FirstSet.none] at h, fun t h => by simp [FirstSet.none] at h⟩

/-- A round of the search for FIRST sets keeps within the predicates. -/
theorem FirstClosed.within_firstStep (hclosed : g.FirstClosed empty first)
    {table : FirstTable g.arena.size} (h : ∀ nt, Within (table.get nt) (empty nt) (first nt))
    (nt : Nat) : Within ((g.firstStep table).get nt) (empty nt) (first nt) := by
  unfold FirstTable.get firstStep
  rw [getElem?_growAll]
  cases hnt : table[nt]? with
  | none => exact within_none _ _
  | some a =>
      have ha : Within a (empty nt) (first nt) := by
        have := h nt
        rwa [FirstTable.get, hnt] at this
      have hps : Within (g.firstOfProductions table nt) (empty nt) (first nt) := by
        refine within_foldl_union _ (fun p hp => ?_) (within_none _ _)
        obtain ⟨i, hi⟩ := List.mem_iff_getElem?.1 hp
        obtain ⟨he, hf⟩ := within_ofSymbols h p.symbols
        exact ⟨fun h => hclosed.nullable nt i p hi (he h),
          fun t ht => hclosed.terminal nt i p t hi (hf t ht)⟩
      refine ⟨fun he => ?_, fun t ht => ?_⟩
      · simp only [Option.map_some, Option.getD_some, FirstSet.union, Bool.or_eq_true] at he
        exact he.elim ha.1 hps.1
      · simp only [Option.map_some, Option.getD_some, FirstSet.union, IndexSet.contains_union,
          Bool.or_eq_true] at ht
        exact ht.elim (ha.2 t) (hps.2 t)

/-- FIRST sets hold nothing beyond predicates that are closed under the productions. -/
theorem FirstClosed.within_firstTable (hclosed : g.FirstClosed empty first) (nt : Nat) :
    Within (g.firstTable.get nt) (empty nt) (first nt) := by
  have h : ∀ nt, Within (g.firstTable.get nt) (empty nt) (first nt) :=
    saturate_induction
      (P := fun t : FirstTable g.arena.size => ∀ nt, Within (t.get nt) (empty nt) (first nt))
      (fun _ ht => hclosed.within_firstStep ht)
      (fun nt => by
        have : (FirstTable.get (List.replicate g.size FirstSet.none) nt :
            FirstSet g.arena.size) = .none := by
          unfold FirstTable.get
          by_cases hnt : nt < g.size <;> simp [hnt]
        rw [this]
        exact within_none _ _)
  exact h nt

end Grammar

end SmallLang
