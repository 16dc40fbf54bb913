import SmallLang.Language
import SmallLang.Proofs.Assembly.Upgrade
import SmallLang.Proofs.Lookahead.ParseTable

/-!
# What a language accepts

Whatever a language makes of a row of tokens is the value of a derivation tree
(`Language.exists_tree_of_parseTokens`). If its table decides nothing by priority, the converse holds as
well, so the language accepts exactly what its grammar derives (`Language.parseTokens_eq_ok_iff`).
-/

set_option autoImplicit false

namespace SmallLang

/-- What is derived from a grammar, if everything can be. -/
theorem Compiled.ofGrammar_eq_ok {g : Grammar} {compiled : Compiled}
    (h : Compiled.ofGrammar g = .ok compiled) :
    compiled.grammar = g ∧ g.checkLeftRecursion g.firstTable = .ok () ∧
      g.parseTable g.firstTable (g.followTable g.firstTable) = .ok compiled.table := by
  obtain ⟨⟨⟩, hrecursion, h⟩ := Except.bind_eq_ok_iff.1 h
  obtain ⟨table, htable, h⟩ := Except.bind_eq_ok_iff.1 h
  obtain ⟨scanner, -, h⟩ := Except.bind_eq_ok_iff.1 h
  obtain rfl := Except.ok.inj h
  exact ⟨rfl, hrecursion, htable⟩

namespace Language

variable {l : Language} {g : Grammar}

/-- What a test finds out about the language that some types assemble to. -/
theorem exists_of_any_assemble {types : List NodeType} {config : Config} {check : Language → Bool}
    (h : (assemble types config).toOption.any check = true) :
    ∃ l, assemble types config = .ok l ∧ check l = true :=
  Except.exists_of_any h

theorem parseTokens_eq_ok {tokens : List Token} {v : Value} :
    l.parseTokens tokens = .ok v ↔
      ∃ t, Parser.parse l.grammar l.compiled.table tokens = .ok t ∧ t.value l.grammar = v := by
  rw [parseTokens, treeOfTokens]
  cases Parser.parse l.grammar l.compiled.table tokens with
  | error err => simp [Except.map]
  | ok t => simp [Except.map]

/-- An accepted row of tokens is that of a derivation tree, and the value is that of the tree. -/
theorem exists_tree_of_parseTokens (h : Compiled.ofGrammar g = .ok l.compiled)
    {tokens : List Token} {v : Value} (hparse : l.parseTokens tokens = .ok v) :
    ∃ t, g.Derives (.nonTerminal g.start) t ∧ t.tokens = tokens ∧ t.value g = v := by
  obtain ⟨hgrammar, -, htable⟩ := Compiled.ofGrammar_eq_ok h
  obtain ⟨t, ht, hv⟩ := parseTokens_eq_ok.1 hparse
  rw [Language.grammar, hgrammar] at ht hv
  rw [(Grammar.parseTable_eq_ok htable).1] at ht
  obtain ⟨hderives, htokens⟩ := Parser.derives_of_parse (Grammar.fits_allCells g _ _) ht
  exact ⟨t, hderives, htokens, hv⟩

/-- Trees of an undecided language are found by the parser. -/
theorem parse_eq_ok_iff (h : Compiled.ofGrammar g = .ok l.compiled) (hg : g.WellFormed)
    (hresolutions : l.compiled.table.resolutions = []) {tokens : List Token} {t : ParseTree} :
    Parser.parse l.grammar l.compiled.table tokens = .ok t ↔
      g.Derives (.nonTerminal g.start) t ∧ t.tokens = tokens := by
  obtain ⟨hgrammar, -, htable⟩ := Compiled.ofGrammar_eq_ok h
  rw [Language.grammar, hgrammar]
  exact Grammar.parse_eq_ok_iff hg (Grammar.undecided_of_resolutions htable hresolutions)

/-- An undecided language accepts exactly what its grammar derives. -/
theorem parseTokens_eq_ok_iff (h : Compiled.ofGrammar g = .ok l.compiled) (hg : g.WellFormed)
    (hresolutions : l.compiled.table.resolutions = []) {tokens : List Token} {v : Value} :
    l.parseTokens tokens = .ok v ↔
      ∃ t, g.Derives (.nonTerminal g.start) t ∧ t.tokens = tokens ∧ t.value g = v := by
  have hgrammar : l.grammar = g := (Compiled.ofGrammar_eq_ok h).1
  rw [parseTokens_eq_ok]
  refine exists_congr fun t => ?_
  rw [parse_eq_ok_iff h hg hresolutions, hgrammar, and_assoc]

end Language

end SmallLang
