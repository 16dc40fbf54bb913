import SmallLang.Proofs.Infix.Expression
import SmallLang.Proofs.Language

/-!
# Operator precedence is exact

A language of infix operators assembles, its table decides nothing by priority, and it accepts exactly
the valid expressions, each with the value of the expression (`InfixLanguage.exists_parsesExactly`).
-/

set_option autoImplicit false

namespace SmallLang

namespace InfixLanguage

/-- The language accepts the valid expressions and nothing else, each row of tokens is that of one
valid expression at most, and chains of operators that do not group are not accepted. -/
structure ParsesExactly (l : InfixLanguage) (language : Language) : Prop where
  resolutions : language.compiled.table.resolutions = []
  parse_iff : ∀ tokens v, language.parseTokens tokens = .ok v ↔
    ∃ x : Expression, x.Valid l language.arena ∧ x.tokens = tokens ∧ x.value l = v
  unique : ∀ x y : Expression, x.Valid l language.arena → y.Valid l language.arena →
    x.tokens = y.tokens → x = y
  /-- Numbers with more than one sign between them, all of one priority and not grouping. -/
  rejects_chain : ∀ p tokens, 3 < tokens.length →
    (∀ t ∈ tokens, language.arena.get? t.terminal = some .number ∨
      ∃ o ∈ l.operators, o.prec = ⟨.none, p⟩ ∧
        language.arena.get? t.terminal = some (.literal o.sign)) →
    ∀ v, language.parseTokens tokens ≠ .ok v

variable {l : InfixLanguage}

/-- An operand of an operator that does not group, without parentheses and with signs of that priority
only, is a number. -/
theorem length_tokens_operand {arena : Arena} {p : Int32} {x : Expression} (hx : x.Valid l arena)
    (hfits : x.Fits p False)
    (htokens : ∀ t ∈ x.tokens, arena.get? t.terminal = some .number ∨
      ∃ o ∈ l.operators, o.prec = ⟨.none, p⟩ ∧
        arena.get? t.terminal = some (.literal o.sign)) :
    x.tokens.length = 1 := by
  cases x with
  | number t => rfl
  | parens a x b =>
      exfalso
      rcases htokens a List.mem_cons_self with hnumber | ⟨o, ho, -, hsign⟩
      · rw [hx.1] at hnumber
        exact IsLowered.literal_ne_number _ (Option.some.inj hnumber)
      · rw [hx.1] at hsign
        exact sign_ne_open ho (Terminal.literal.inj (Option.some.inj hsign)).symm
  | binary o x s y =>
      exfalso
      obtain ⟨ho, hs, -⟩ := hx
      have hmem : s ∈ (Expression.binary o x s y).tokens :=
        List.mem_append_right _ List.mem_cons_self
      rcases htokens s hmem with hnumber | ⟨o', ho', hprec, hsign⟩
      · rw [hs] at hnumber
        exact IsLowered.literal_ne_number _ (Option.some.inj hnumber)
      · rw [hs] at hsign
        obtain rfl := eq_of_sign_eq ho ho' (Terminal.literal.inj (Option.some.inj hsign))
        rcases hfits with hlt | ⟨hfalse, -⟩
        · rw [hprec] at hlt
          exact Int32.lt_irrefl hlt
        · exact hfalse

/-- A valid expression of numbers and signs of one priority that does not group has one sign at
most. -/
theorem length_tokens_le {arena : Arena} {p : Int32} {x : Expression} (hx : x.Valid l arena)
    (htokens : ∀ t ∈ x.tokens, arena.get? t.terminal = some .number ∨
      ∃ o ∈ l.operators, o.prec = ⟨.none, p⟩ ∧
        arena.get? t.terminal = some (.literal o.sign)) :
    x.tokens.length ≤ 3 := by
  cases x with
  | number t => exact Nat.le_add_left 1 2
  | parens a x b =>
      have hlength := length_tokens_operand (x := .parens a x b) hx trivial htokens
      omega
  | binary o x s y =>
      obtain ⟨ho, hs, hxv, hyv, hxf, hyf⟩ := hx
      have hx : ∀ t ∈ x.tokens, t ∈ (Expression.binary o x s y).tokens :=
        fun t ht => List.mem_append_left _ ht
      have hy : ∀ t ∈ y.tokens, t ∈ (Expression.binary o x s y).tokens :=
        fun t ht => List.mem_append_right _ (List.mem_cons_of_mem _ ht)
      have hmem : s ∈ (Expression.binary o x s y).tokens :=
        List.mem_append_right _ List.mem_cons_self
      have hprec : o.prec = ⟨.none, p⟩ := by
        rcases htokens s hmem with hnumber | ⟨o', ho', hprec, hsign⟩
        · rw [hs] at hnumber
          exact absurd (Option.some.inj hnumber) (IsLowered.literal_ne_number _)
        · rw [hs] at hsign
          rw [eq_of_sign_eq ho ho' (Terminal.literal.inj (Option.some.inj hsign))]
          exact hprec
      simp only [hprec, reduceCtorEq] at hxf hyf
      have hxlength := length_tokens_operand hxv hxf fun t ht => htokens t (hx t ht)
      have hylength := length_tokens_operand hyv hyf fun t ht => htokens t (hy t ht)
      rw [Expression.tokens, List.length_append, List.length_cons, hxlength, hylength]

/-- Operator precedence is exact: the declarations of a language of infix operators assemble to a
language that accepts exactly the valid expressions. -/
theorem exists_parsesExactly (l : InfixLanguage) {declared : List NodeType}
    (h : l.Declares declared) (config : Config) :
    ∃ language, Language.assemble declared config = .ok language ∧ l.ParsesExactly language := by
  obtain ⟨lowered, num, hlower, hg⟩ := h.exists_isLowered
  obtain ⟨compiled, hcompiled, hresolutions⟩ := hg.exists_compiled
  let language : Language := ⟨lowered.types, lowered.start, config, compiled⟩
  have hassemble : Language.assemble declared config = .ok language :=
    Except.bind_eq_ok_iff.2 ⟨lowered, hlower, Except.bind_eq_ok_iff.2 ⟨compiled, hcompiled, rfl⟩⟩
  obtain ⟨types, hstaged⟩ := hg.staged
  have hwellFormed : (l.stratified num lowered.grammar).WellFormed := by
    rw [stratified, ← hg.stratify_eq]
    refine hstaged.wellFormed_stratify ?_
    rw [hg.start]
    exact hg.base_lt
  rw [hg.stratify_eq] at hcompiled
  have harena : language.arena = lowered.grammar.arena := by
    rw [Language.arena, Language.grammar, (Compiled.ofGrammar_eq_ok hcompiled).1]
    exact Grammar.stratifyAt_arena _ _
  have hstart : (l.stratified num lowered.grammar).start = (l.ladder num lowered.grammar).head 0 := by
    rw [Grammar.stratifyAt_start, hg.start]
    rfl
  -- A valid expression belongs to a tree with its tokens and its value.
  have htree : ∀ x : Expression, x.Valid l language.arena → ∃ t,
      (l.stratified num lowered.grammar).Derives
        (.nonTerminal (l.stratified num lowered.grammar).start) t ∧
      (Reads l (l.stratified num lowered.grammar) t fun _ => x) ∧ t.tokens = x.tokens ∧
      t.value (l.stratified num lowered.grammar) = x.value l := by
    intro x hx
    rw [harena] at hx
    obtain ⟨t, ht, hreads⟩ := hg.exists_tree hx
    obtain ⟨f, hf⟩ := (hg.sound ht).1 0 (Nat.zero_le _) rfl
    obtain rfl := hf.reads.unique hreads
    rw [hstart]
    exact ⟨t, ht, hreads, (hf.tokens x).symm, (hf.value x).symm⟩
  have hparse : ∀ tokens v, language.parseTokens tokens = .ok v ↔
      ∃ x : Expression, x.Valid l language.arena ∧ x.tokens = tokens ∧ x.value l = v := by
    intro tokens v
    rw [Language.parseTokens_eq_ok_iff hcompiled hwellFormed hresolutions]
    constructor
    · rintro ⟨t, ht, rfl, rfl⟩
      rw [hstart] at ht
      obtain ⟨f, hf⟩ := (hg.sound ht).1 0 (Nat.zero_le _) rfl
      rw [harena]
      let x : Expression := .number ⟨0, "", .empty, Position.start⟩
      exact ⟨f x, hf.valid x, hf.tokens x, hf.value x⟩
    · rintro ⟨x, hx, rfl, rfl⟩
      obtain ⟨t, ht, -, htokens, hvalue⟩ := htree x hx
      exact ⟨t, ht, htokens, hvalue⟩
  refine ⟨language, hassemble, hresolutions, hparse, ?_, ?_⟩
  · intro x y hx hy heq
    obtain ⟨t, ht, hreads, htokens, -⟩ := htree x hx
    obtain ⟨t', ht', hreads', htokens', -⟩ := htree y hy
    -- The parser finds both trees, so they are one.
    have hparse := (Language.parse_eq_ok_iff (l := language) hcompiled hwellFormed hresolutions).2
      ⟨ht, htokens⟩
    have hparse' := (Language.parse_eq_ok_iff (l := language) hcompiled hwellFormed hresolutions).2
      ⟨ht', htokens'.trans heq.symm⟩
    obtain rfl := Except.ok.inj (hparse.symm.trans hparse')
    exact congrFun (hreads.unique hreads') x
  · intro p tokens hlength htokens v hv
    obtain ⟨x, hx, rfl, -⟩ := (hparse tokens v).1 hv
    have hle := length_tokens_le hx htokens
    omega

/-- Sums, products, powers and comparisons of numbers. -/
def arithmetic : InfixLanguage where
  base := "Expr"
  number := "Num"
  field := "value"
  operators :=
    [⟨"Add", "+", "left", "right", ⟨.left, 1⟩⟩, ⟨"Mul", "*", "left", "right", ⟨.left, 2⟩⟩,
      ⟨"Pow", "^", "left", "right", ⟨.right, 3⟩⟩, ⟨"Eq", "==", "left", "right", ⟨.none, 0⟩⟩]
  operators_ne_nil := by decide
  nodup_names := by decide
  nodup_signs := by decide
  left_ne_right := by decide
  assoc_eq := by decide

theorem exists_parsesExactly_arithmetic :
    arithmetic.Declares arithmetic.types.reverse ∧
      ∃ language, Language.assemble arithmetic.types.reverse Config.quiet = .ok language ∧
        arithmetic.ParsesExactly language :=
  ⟨List.reverse_perm _, arithmetic.exists_parsesExactly (List.reverse_perm _) Config.quiet⟩

end InfixLanguage

end SmallLang
