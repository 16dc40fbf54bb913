import SmallLang.Proofs.Parsing.Stacks

/-!
# Tables without conflicts

A table that decides nothing by priority has one candidate at most for each lookahead. Such a table
leads to every derivation tree of the start symbol: FIRST sets cover what the tree begins with, FOLLOW
sets what comes after an empty part of it, so the production of each node is a candidate, and no other
one is. The parser therefore returns the tree for its tokens, and a row of tokens has one tree at most
(`Grammar.parse_of_derives`). Nothing is asked of non-terminals that the start does not reach, or
that derive nothing: they may even be left recursive, as one of `loopingBrackets` is.

Sentences are what the start symbol derives (`Grammar.Sentence`), and viable are the beginnings of
sentences (`Grammar.Viable`).
-/

set_option autoImplicit false

namespace SmallLang

open SmallLang.Parser

namespace Grammar

variable {g : Grammar} {table : ParseTable}

/-! ## Sentences -/

/-- The tokens are those of a derivation tree of the start symbol. -/
def Sentence (g : Grammar) (tokens : List Token) : Prop :=
  ∃ t, g.Derives (.nonTerminal g.start) t ∧ t.tokens = tokens

/-- The tokens are the beginning of a sentence. -/
def Viable (g : Grammar) (tokens : List Token) : Prop := ∃ rest, g.Sentence (tokens ++ rest)

theorem Sentence.viable {tokens : List Token} (h : g.Sentence tokens) : g.Viable tokens := by
  refine ⟨[], ?_⟩
  rw [List.append_nil]
  exact h

theorem Viable.of_append {before after : List Token} (h : g.Viable (before ++ after)) :
    g.Viable before := by
  obtain ⟨rest, hrest⟩ := h
  rw [List.append_assoc] at hrest
  exact ⟨after ++ rest, hrest⟩

/-- Where nothing is decided by priority, the sentences are what the parser accepts. -/
theorem Undecided.sentence_iff (hg : g.WellFormed)
    (h : g.Undecided g.firstTable (g.followTable g.firstTable) table) {tokens : List Token} :
    g.Sentence tokens ↔ ∃ t, parse g table tokens = .ok t :=
  exists_congr fun _ => (parse_eq_ok_iff hg h).symm

/-! ## Derivation trees and the parser -/

/-- If the table of a grammar can be made without a decision by priority, the parser returns every
derivation tree of the start symbol for the tokens of that tree, as the two stacks do. So no row of
tokens has two such trees. -/
theorem parse_of_derives (hg : g.WellFormed)
    (htable : g.parseTable g.firstTable (g.followTable g.firstTable) = .ok table)
    (hresolutions : table.resolutions = []) :
    (∀ t, g.Derives (.nonTerminal g.start) t →
      parse g table t.tokens = .ok t ∧
      ∃ c, Stacks.Reaches ⟨g, table, endPosition t.tokens⟩ (Stacks.initial g t.tokens) c ∧
        Stacks.step ⟨g, table, endPosition t.tokens⟩ c = .accepted t) ∧
    ∀ t t', g.Derives (.nonTerminal g.start) t → g.Derives (.nonTerminal g.start) t' →
      t.tokens = t'.tokens → t = t' := by
  have hundecided := undecided_of_resolutions htable hresolutions
  have hfits : table.Fits g := by
    rw [(parseTable_eq_ok htable).1]
    exact fits_allCells g _ _
  have hcomplete : ∀ t, g.Derives (.nonTerminal g.start) t →
      parse g table t.tokens = .ok t := by
    intro t ht
    apply (parse_eq_ok_iff hg hundecided).2
    exact ⟨ht, rfl⟩
  refine ⟨?_, ?_⟩
  · intro t ht
    have hparse := hcomplete t ht
    exact ⟨hparse, (Stacks.parse_eq_ok_iff_accepted hfits).1 hparse⟩
  · -- The parser is a function of the tokens.
    intro t t' ht ht' htokens
    have hparse := hcomplete t ht
    rw [htokens, hcomplete t' ht'] at hparse
    exact (Except.ok.inj hparse).symm

/-- Brackets, and a left recursive non-terminal that derives nothing and that nothing reaches. -/
def loopingBrackets : Grammar :=
  { bracketGrammar with
    nonTerminals := bracketGrammar.nonTerminals ++
      [⟨"Loop", [⟨[.nonTerminal 1, .terminal 0], .child 0, .default⟩]⟩] }

/-- The tree of `( )`: nothing in the bracket, which the closing bracket shows, and nothing after it,
which the end of the input shows. -/
def bracketTree : ParseTree :=
  let token (i : Nat) (text : String) : ParseTree := .token ⟨i, text, .token text, .outside⟩
  .node 0 0 [token 0 "(", .node 0 1 [], token 1 ")", .node 0 1 []]

theorem parse_of_derives_loopingBrackets :
    ∃ table, loopingBrackets.parseTable loopingBrackets.firstTable
        (loopingBrackets.followTable loopingBrackets.firstTable) = .ok table ∧
      table.resolutions = [] ∧ loopingBrackets.WellFormed ∧
      loopingBrackets.Derives (.nonTerminal 0) bracketTree ∧
      parse loopingBrackets table bracketTree.tokens = .ok bracketTree := by
  have hcheck : (loopingBrackets.parseTable loopingBrackets.firstTable
      (loopingBrackets.followTable loopingBrackets.firstTable)).toOption.any
        (fun table => table.resolutions.isEmpty) = true := by
    cbv
  have hg : loopingBrackets.WellFormed := by
    decide
  have hderives : loopingBrackets.Derives (.nonTerminal 0) bracketTree := by
    decide
  cases htable : loopingBrackets.parseTable loopingBrackets.firstTable
      (loopingBrackets.followTable loopingBrackets.firstTable) with
  | error e => exact absurd hcheck (by simp [htable, Except.toOption])
  | ok table =>
      simp only [htable, Except.toOption, Option.any_some, List.isEmpty_iff] at hcheck
      have hparse := (parse_of_derives hg htable hcheck).1 bracketTree hderives
      exact ⟨table, rfl, hcheck, hg, hderives, hparse.1⟩

end Grammar

end SmallLang
