import SmallLang.Proofs.Mixed.Exact
import SmallLang.Proofs.Mixed.Lowering

/-!
# Languages of mixed operators

A `MixedLanguage` has a base type with parentheses, numbers, and operators that stand between, before
or after operands of the base type, all with different literals. Where its types can be lowered, in
whatever order they are declared, the grammar is that of a mixture (`MixedLanguage.Declares.exists_describes`).
So priorities take no words away from the language if and only if the operators that stand after their
operand have the highest priority among the operators with a left operand
(`MixedLanguage.keeps_words_iff`): a looser one cannot be the left operand of a tighter one, although it
begins with an operand of its own.
-/

set_option autoImplicit false

namespace SmallLang

/-- A language with parentheses around the base type, numbers and operators. No operator is declared
not to group. -/
structure MixedLanguage where
  base : String
  opening : String
  closing : String
  parensPrec : Prec
  number : String
  /-- The field of a number's node. -/
  field : String
  numberPrec : Prec
  numberReplaces : Prec
  operators : List MixedOperator
  nodup_names : (base :: number :: operators.map MixedOperator.name).Nodup
  nodup_signs : (opening :: closing :: operators.map MixedOperator.sign).Nodup
  groups : ∀ o ∈ operators, o.prec.assoc ≠ .none

namespace MixedLanguage

section Types

variable (l : MixedLanguage)

/-- The base type. -/
def baseType : NodeType :=
  ((NodeType.named l.base).skip [Sym.literal l.opening, .this, Sym.literal l.closing]
    l.parensPrec).start

/-- The type of numbers. -/
def numberType : NodeType :=
  ((NodeType.named l.number).generates [.field l.field (.terminal .number) none]
    l.numberPrec).replaces l.base l.numberReplaces

/-- All types. -/
def types : List NodeType := l.baseType :: l.numberType :: l.operators.map (·.nodeType l.base)

/-- The types of the language in any order. -/
def Declares (declared : List NodeType) : Prop := declared.Perm l.types

instance (declared : List NodeType) : Decidable (l.Declares declared) :=
  inferInstanceAs (Decidable (declared.Perm l.types))

/-- Operators that stand after their operand have the highest priority of all operators with a left
operand. -/
def SuffixesTightest : Prop :=
  ∀ o ∈ l.operators, o.fixity = .after → ∀ p ∈ l.operators, p.fixity ≠ .before →
    p.prec.priority ≤ o.prec.priority

instance : Decidable l.SuffixesTightest :=
  inferInstanceAs (Decidable (∀ o ∈ l.operators, o.fixity = .after → ∀ p ∈ l.operators,
    p.fixity ≠ .before → p.prec.priority ≤ o.prec.priority))

end Types

/-- The language as one of operators. -/
def toOperatorLanguage (l : MixedLanguage) : OperatorLanguage :=
  { l with groups := fun o ho _ => l.groups o ho }

variable {l : MixedLanguage} {declared : List NodeType}

/-- The grammar that the types of the language are lowered to is that of a mixture. Its suffixes bind
tightest if those of the language do. -/
theorem Declares.exists_describes (h : l.Declares declared) {lowered : Lowered}
    (hlower : lower declared = .ok lowered) :
    ∃ m : Mixture, m.Describes lowered.grammar ∧ (m.SuffixesTightest ↔ l.SuffixesTightest) := by
  have h' : l.toOperatorLanguage.Declares declared := h
  obtain ⟨ns, hmakes⟩ := lower_eq_ok hlower
  obtain rfl := hmakes.eq_declared h'.upgraded_eq_nil h'.nodup_names
  obtain ⟨type, terminal, hn⟩ := h'.exists_numbers hmakes
  refine ⟨_, hn.describes hmakes h', ?_⟩
  simp only [Mixture.SuffixesTightest, SuffixesTightest, OperatorLanguage.mixture, List.forall_mem_map]
  rfl

/-- Priorities and grouping to the left or to the right change which rows of tokens are accepted only
where an operator that stands after its operand has a lower priority than another operator with a left
operand. -/
theorem keeps_words_iff (h : l.Declares declared) {config : Config} {language : Language}
    (hassemble : Language.assemble declared config = .ok language) {lowered : Lowered}
    (hlower : lower declared = .ok lowered) :
    (∀ t, lowered.grammar.Derives (.nonTerminal lowered.grammar.start) t →
        ∃ v, language.parseTokens t.tokens = .ok v) ↔ l.SuffixesTightest := by
  obtain ⟨m, d, htight⟩ := h.exists_describes hlower
  obtain ⟨lowered', hlower', -, -, hcompiled⟩ := Language.assemble_eq_ok hassemble
  obtain rfl : lowered = lowered' := Except.ok.inj (hlower.symm.trans hlower')
  obtain ⟨hgrammar, -, htable⟩ := Compiled.ofGrammar_eq_ok hcompiled
  rw [← htight, ← d.accepts_iff htable]
  refine forall_congr' fun t => imp_congr_right fun _ => ?_
  simp only [Language.parseTokens_eq_ok, Language.grammar, hgrammar]
  constructor
  · rintro ⟨v, t', ht', -⟩
    exact ⟨t', ht'⟩
  · rintro ⟨t', ht'⟩
    exact ⟨_, t', ht', rfl⟩

/-- Signs, sums, powers and factorials of numbers. -/
def factorials : MixedLanguage where
  base := "Expr"
  opening := "("
  closing := ")"
  parensPrec := Prec.default
  number := "Num"
  field := "value"
  numberPrec := Prec.default
  numberReplaces := Prec.default
  operators :=
    [⟨"Neg", "-", .before, "left", "right", ⟨.left, 5⟩, Prec.default⟩,
      ⟨"Add", "+", .between, "left", "right", ⟨.left, 10⟩, Prec.default⟩,
      ⟨"Pow", "^", .between, "left", "right", ⟨.right, 20⟩, Prec.default⟩,
      ⟨"Fact", "!", .after, "left", "right", ⟨.left, 30⟩, Prec.default⟩]
  nodup_names := by decide
  nodup_signs := by decide
  groups := by decide

theorem keeps_words_iff_of_factorials :
    ∃ language lowered, Language.assemble factorials.types.reverse .quiet = .ok language ∧
      lower factorials.types.reverse = .ok lowered ∧
      ((∀ t, lowered.grammar.Derives (.nonTerminal lowered.grammar.start) t →
        ∃ v, language.parseTokens t.tokens = .ok v) ↔ factorials.SuffixesTightest) ∧
      factorials.SuffixesTightest := by
  have hdeclares : factorials.Declares factorials.types.reverse := List.reverse_perm _
  have hassembles : (Language.assemble factorials.types.reverse .quiet).toOption.any
      (fun _ => true) = true := by
    cbv
  obtain ⟨language, hlanguage, -⟩ := Language.exists_of_any_assemble hassembles
  obtain ⟨lowered, hlowered, -⟩ := Language.assemble_eq_ok hlanguage
  exact ⟨language, lowered, hlanguage, hlowered, keeps_words_iff hdeclares hlanguage hlowered,
    by decide⟩

/-- Factorials that bind looser than sums. -/
def looseFactorials : MixedLanguage where
  base := "Expr"
  opening := "("
  closing := ")"
  parensPrec := Prec.default
  number := "Num"
  field := "value"
  numberPrec := Prec.default
  numberReplaces := Prec.default
  operators :=
    [⟨"Fact", "!", .after, "left", "right", ⟨.left, 10⟩, Prec.default⟩,
      ⟨"Add", "+", .between, "left", "right", ⟨.left, 20⟩, Prec.default⟩]
  nodup_names := by decide
  nodup_signs := by decide
  groups := by decide

/-- The sum of a factorial and a number, `1 ! + 2`, as the declarations allow it. -/
def factorialSum : ParseTree :=
  let one : ParseTree := .token ⟨2, "1", .int 1, Position.start⟩
  let two : ParseTree := .token ⟨2, "2", .int 2, Position.start⟩
  let mark : ParseTree := .token ⟨3, "!", .token "!", Position.start⟩
  let plus : ParseTree := .token ⟨4, "+", .token "+", Position.start⟩
  let factorial : ParseTree := .node 0 2 [.node 2 0 [.node 0 1 [.node 1 0 [one]], mark]]
  .node 0 3 [.node 3 0 [factorial, plus, .node 0 1 [.node 1 0 [two]]]]

set_option maxRecDepth 20000 in
/-- A factorial cannot be the left operand of a sum that binds tighter. -/
theorem not_keeps_words_looseFactorials :
    ∃ language lowered, Language.assemble looseFactorials.types .quiet = .ok language ∧
      lower looseFactorials.types = .ok lowered ∧
      lowered.grammar.Derives (.nonTerminal lowered.grammar.start) factorialSum ∧
      ∀ v, language.parseTokens factorialSum.tokens ≠ .ok v := by
  have hrefuses : (Language.assemble looseFactorials.types .quiet).toOption.any (fun l =>
      !(l.parseTokens factorialSum.tokens).toOption.isSome) = true := by
    cbv
  have hderives : (lower looseFactorials.types).toOption.any (fun lowered =>
      decide (lowered.grammar.Derives (.nonTerminal lowered.grammar.start) factorialSum)) =
        true := by
    cbv
  obtain ⟨language, hlanguage, hrefuses⟩ := Language.exists_of_any_assemble hrefuses
  obtain ⟨lowered, hlowered, -⟩ := Language.assemble_eq_ok hlanguage
  refine ⟨language, lowered, hlanguage, hlowered, ?_, fun v hv => ?_⟩
  · simpa [hlowered, Except.toOption] using hderives
  · simp [hv, Except.toOption] at hrefuses

end MixedLanguage

end SmallLang
