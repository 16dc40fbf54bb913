import SmallLang.Proofs.Mixed.Lowering
import SmallLang.Proofs.Parsing.Alike
import SmallLang.Proofs.Prefix.Ladder

/-!
# Languages with a sign in front

A `PrefixLanguage` has a base type with parentheses, numbers, operators between two operands and one
operator before its operand. The operand of that sign goes on up to the first operator outside of
parentheses that binds too loosely for it, up to the closing one of the parentheses around, or up to the
end (`PrefixLanguage.exists_operand`). This is so wherever the sign stands: as the right operand of an
operator that binds tighter than the sign it goes as far as at the beginning.
-/

set_option autoImplicit false

namespace SmallLang

/-- The token is of the literal of that text. -/
def Arena.isLiteral (a : Arena) (text : String) (t : Token) : Bool :=
  a.indexOf? (.literal text) == some t.terminal

/-- A language with one operator before its operand, and all others between two. -/
structure PrefixLanguage extends OperatorLanguage where
  sign : MixedOperator
  mem : sign ∈ operators
  before : sign.fixity = .before
  others : ∀ o ∈ operators, o = sign ∨ o.fixity = .between

namespace PrefixLanguage

/-- What tokens mean for the operand of the sign: an operator stops it unless its priority is higher than
that of the sign, or the same if the sign groups to the right. -/
def brackets (l : PrefixLanguage) (arena : Arena) : Brackets where
  opens := arena.isLiteral l.opening
  closes := arena.isLiteral l.closing
  stops t := l.operators.any fun o =>
    o.fixity == .between && arena.isLiteral o.sign t && !decide (l.sign.prec.Admits o.prec.priority)

variable {l : PrefixLanguage} {declared : List NodeType}

section Numbers

variable {lowered : Lowered} {type : String → Nat} {terminal : Terminal → Nat}
  (hn : l.toOperatorLanguage.Numbers ⟨[], declared⟩ lowered.grammar.arena type terminal)
include hn

theorem isLiteral_iff {text : String} (htext : .literal text ∈ l.terminals) (t : Token) :
    lowered.grammar.arena.isLiteral text t = true ↔ t.terminal = terminal (.literal text) := by
  rw [Arena.isLiteral, hn.terminal _ htext, beq_iff_eq, Option.some.injEq, eq_comm]

theorem soleBefore :
    (l.mixture hn).SoleBefore (l.sign.toSign type terminal) := by
  refine ⟨List.mem_map_of_mem l.mem, l.before, fun _ hmem => ?_⟩
  obtain ⟨o, ho, rfl⟩ := List.mem_map.1 hmem
  exact (l.others o ho).imp_left fun heq => congrArg (·.toSign type terminal) heq

theorem brackets_eq :
    (l.mixture hn).brackets (l.sign.toSign type terminal) = l.brackets lowered.grammar.arena := by
  have hliteral : ∀ {text : String}, .literal text ∈ l.terminals → ∀ t : Token,
      lowered.grammar.arena.isLiteral text t = (t.terminal == terminal (.literal text)) := by
    intro text htext t
    rw [Bool.eq_iff_iff, isLiteral_iff hn htext, beq_iff_eq]
  simp only [Mixture.brackets, brackets, Brackets.mk.injEq]
  refine ⟨funext fun t => (hliteral OperatorLanguage.opening_mem_terminals t).symm,
    funext fun t => (hliteral OperatorLanguage.closing_mem_terminals t).symm, funext fun t => ?_⟩
  rw [OperatorLanguage.mixture, List.any_map, Bool.eq_iff_iff, List.any_eq_true, List.any_eq_true]
  refine exists_congr fun o => and_congr_right fun ho => ?_
  rw [Function.comp_apply, hliteral (OperatorLanguage.sign_mem_terminals ho)]
  rfl

end Numbers

/-- In the tree of every row of tokens that is accepted, each sign stands in a node with its operand, and
the operand consists of the tokens after the sign up to the first one that ends it. -/
theorem exists_operand (h : l.Declares declared) {config : Config} {language : Language}
    (hassemble : Language.assemble declared config = .ok language) {tokens : List Token}
    {t : ParseTree} (ht : language.treeOfTokens tokens = .ok t) {before after : List Token}
    {sign : Token} (hsign : language.arena.isLiteral l.sign.sign sign = true)
    (htokens : tokens = before ++ sign :: after) :
    ∃ nt p operand last, t.Holds before (.node nt p [.token sign, operand]) last ∧
      operand.tokens = operandOf (l.brackets language.arena) 0 after := by
  obtain ⟨lowered, hlower, -, -, hcompiled⟩ := Language.assemble_eq_ok hassemble
  obtain ⟨ns, hmakes⟩ := lower_eq_ok hlower
  obtain rfl := hmakes.eq_declared h.upgraded_eq_nil h.nodup_names
  obtain ⟨type, terminal, hn⟩ := h.exists_numbers hmakes
  obtain ⟨hgrammar, -, htable⟩ := Compiled.ofGrammar_eq_ok hcompiled
  have hparse : Parser.parse lowered.grammar.stratify language.compiled.table tokens = .ok t := by
    rw [← hgrammar]
    exact ht
  rw [Language.arena_of_assemble hlower hassemble] at hsign ⊢
  have hsign' := (isLiteral_iff hn (OperatorLanguage.sign_mem_terminals l.mem) sign).1 hsign
  have hyields : t.tokens = before ++ sign :: after := by
    rw [← htokens]
    exact (Parser.derives_of_parse (Language.fits_of_assemble hassemble) ht).2
  have hoperands := (hn.describes hmakes h).operandsOf_parse (soleBefore hn) htable hparse
  obtain ⟨nt, p, operand, last, hholds, hoperand⟩ := hoperands before sign after hsign' hyields
  refine ⟨nt, p, operand, last, hholds, ?_⟩
  rw [hoperand, List.append_nil, brackets_eq hn]

/-- Products, negations and sums of numbers, each looser than the one before. -/
def negations : PrefixLanguage where
  base := "Expr"
  opening := "("
  closing := ")"
  parensPrec := Prec.default
  number := "Num"
  field := "value"
  numberPrec := Prec.default
  numberReplaces := Prec.default
  operators :=
    [⟨"Neg", "-", .before, "left", "right", ⟨.left, 20⟩, Prec.default⟩,
      ⟨"Add", "+", .between, "left", "right", ⟨.left, 10⟩, Prec.default⟩,
      ⟨"Mul", "*", .between, "left", "right", ⟨.left, 30⟩, Prec.default⟩]
  nodup_names := by decide
  nodup_signs := by decide
  groups := by decide
  sign := ⟨"Neg", "-", .before, "left", "right", ⟨.left, 20⟩, Prec.default⟩
  mem := by decide
  before := rfl
  others := by decide

/-- A literal of negations. -/
def literalToken (terminal : Nat) (text : String) : Token := ⟨terminal, text, .token text, .outside⟩

/-- A number of negations. -/
def digitToken (n : Int) : Token := ⟨2, "", .int n, .outside⟩

/-- The tokens of `( 2 + 3 ) * 4`. -/
def product : List Token :=
  [literalToken 0 "(", digitToken 2, literalToken 4 "+", digitToken 3, literalToken 1 ")",
    literalToken 5 "*", digitToken 4]

/-- In `1 * - ( 2 + 3 ) * 4 + 5`, the operand of the minus is the product, although a product stands
before it. -/
theorem exists_operand_of_negations :
    ∃ language t nt p operand last,
      Language.assemble negations.types .quiet = .ok language ∧
        language.treeOfTokens ([digitToken 1, literalToken 5 "*"] ++ literalToken 3 "-" ::
          (product ++ [literalToken 4 "+", digitToken 5])) = .ok t ∧
        t.Holds [digitToken 1, literalToken 5 "*"]
          (.node nt p [.token (literalToken 3 "-"), operand]) last ∧
        operand.tokens = product := by
  have hcheck : (Language.assemble negations.types .quiet).toOption.any (fun l =>
      (l.treeOfTokens ([digitToken 1, literalToken 5 "*"] ++ literalToken 3 "-" ::
          (product ++ [literalToken 4 "+", digitToken 5]))).toOption.any (fun _ => true) &&
        l.arena.isLiteral negations.sign.sign (literalToken 3 "-") &&
        decide (operandOf (negations.brackets l.arena) 0
          (product ++ [literalToken 4 "+", digitToken 5]) = product)) = true := by
    cbv
  obtain ⟨language, hlanguage, hcheck⟩ := Language.exists_of_any_assemble hcheck
  simp only [Bool.and_eq_true, decide_eq_true_eq] at hcheck
  obtain ⟨⟨haccepts, hsign⟩, hextent⟩ := hcheck
  obtain ⟨t, ht, -⟩ := Except.exists_of_any haccepts
  have hdeclares : negations.Declares negations.types := List.Perm.refl _
  obtain ⟨nt, p, operand, last, hholds, htokens⟩ :=
    exists_operand hdeclares hlanguage ht hsign rfl
  exact ⟨language, t, nt, p, operand, last, hlanguage, ht, hholds, htokens.trans hextent⟩

end PrefixLanguage

end SmallLang
