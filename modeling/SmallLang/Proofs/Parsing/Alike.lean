import SmallLang.Proofs.Assembly.Extend
import SmallLang.Proofs.Parsing.Guided

/-!
# Tokens that the parser cannot tell apart

The parser looks at the terminals of tokens, and values are made of the values of tokens. Two tokens are
alike if they agree in both (`Token.Alike`); their texts and places may differ. For rows of alike tokens
a table leads to trees of the same productions with the same meaning (`ParseTree.hasAlike_of_derives`), so a
language yields the same values for them (`Language.parseTokens_iff_of_alike`). Only the places and texts
in errors may differ.
-/

set_option autoImplicit false

namespace SmallLang

open List (Forall₂)
open ParseTree (Guided GuidedAll)
open Parser.Setup (lookahead)

/-- The tokens stand for the same terminal and have the same value. -/
structure Token.Alike (t t' : Token) : Prop where
  terminal : t'.terminal = t.terminal
  value : t'.value = t.value

theorem Token.Alike.symm {t t' : Token} (h : t.Alike t') : t'.Alike t :=
  ⟨h.terminal.symm, h.value.symm⟩

/-- Alike tokens give one lookahead. -/
theorem lookahead_of_alike {tokens tokens' : List Token} (h : Forall₂ Token.Alike tokens tokens') :
    lookahead tokens' = lookahead tokens := by
  cases h with
  | nil => rfl
  | cons ht _ => simp only [lookahead, ht.terminal]

namespace ParseTree

variable {g : Grammar} {table : ParseTable} {s : Symbol} {ss : List Symbol}

/-- For alike tokens there is a tree of the symbol with the same meaning, and the table leads to it where
it leads to the given one. -/
def HasAlike (g : Grammar) (table : ParseTable) (s : Symbol) (t : ParseTree) : Prop :=
  ∀ tokens', Forall₂ Token.Alike t.tokens tokens' →
    ∃ t', g.Derives s t' ∧ t'.tokens = tokens' ∧ t'.meaning g = t.meaning g ∧
      ∀ rest rest', Forall₂ Token.Alike rest rest' → Guided table t rest → Guided table t' rest'

theorem hasAlike_token (t : Token) : HasAlike g table (.terminal t.terminal) (.token t) := by
  intro tokens' h
  cases h with
  | @cons _ t' _ _ ht hnil =>
      cases hnil
      refine ⟨.token t', ht.terminal ▸ Grammar.Derives.token t', rfl, ?_, fun _ _ _ _ => trivial⟩
      rw [meaning_token, meaning_token, ht.value]

/-- The trees of a row, one after the other. -/
theorem exists_alike_row {ts : List ParseTree} (h : Forall₂ (HasAlike g table) ss ts)
    {tokens' : List Token} (htokens : Forall₂ Token.Alike (ts.flatMap tokens) tokens') :
    ∃ ts', g.DerivesRow ss ts' ∧ ts'.flatMap tokens = tokens' ∧
      ts'.map (meaning g) = ts.map (meaning g) ∧
      ∀ rest rest', Forall₂ Token.Alike rest rest' → GuidedAll table ts rest →
        GuidedAll table ts' rest' := by
  induction h generalizing tokens' with
  | nil =>
      cases htokens
      exact ⟨[], .nil, rfl, rfl, fun _ _ _ _ => trivial⟩
  | @cons s t ss ts hone _ ih =>
      rw [List.flatMap_cons] at htokens
      obtain ⟨first, others, rfl, hfirst, hothers⟩ := exists_append_of_forall₂ htokens
      obtain ⟨t', ht', rfl, hmeaning, hguided⟩ := hone first hfirst
      obtain ⟨ts', hts', rfl, hmeanings, hguideds⟩ := ih hothers
      refine ⟨t' :: ts', .cons ht' hts', rfl, ?_, fun rest rest' hrest hall => ?_⟩
      · rw [List.map_cons, List.map_cons, hmeaning, hmeanings]
      · rw [guidedAll_cons_iff] at hall ⊢
        exact ⟨hguided _ _ (List.rel_append hothers hrest) hall.1, hguideds _ _ hrest hall.2⟩

/-- Every derivation tree can be made of alike tokens. -/
theorem hasAlike_of_derives {t : ParseTree} (h : g.Derives s t) : HasAlike g table s t := by
  induction h using Grammar.Derives.rec_on with
  | token t => exact hasAlike_token t
  | node nt p production children hp _ ih =>
      intro tokens' htokens
      rw [tokens_node] at htokens
      -- The same production, over trees that are made of the alike tokens one after the other.
      obtain ⟨children', hchildren, rfl, hmeanings, hguided⟩ :=
        exists_alike_row (ih.imp fun _ _ h => h.choose_spec) htokens
      refine ⟨.node nt p children', Grammar.Derives.node hp hchildren, tokens_node _ _ _, ?_, ?_⟩
      · rw [meaning_node, meaning_node, hmeanings]
      · intro rest rest' hrest hnode
        rw [guided_node_iff] at hnode ⊢
        rw [lookahead_of_alike (List.rel_append htokens hrest)]
        exact ⟨hnode.1, hguided _ _ hrest hnode.2⟩

end ParseTree

/-- The parser makes a tree of the same meaning of alike tokens. -/
theorem Parser.exists_parse_of_alike {g : Grammar} {table : ParseTable} (hfits : table.Fits g)
    {tokens tokens' : List Token} (h : Forall₂ Token.Alike tokens tokens') {t : ParseTree}
    (ht : parse g table tokens = .ok t) :
    ∃ t', parse g table tokens' = .ok t' ∧ t'.meaning g = t.meaning g := by
  obtain ⟨hderives, rfl, hguided⟩ := (parse_eq_ok_iff_guided hfits).1 ht
  have halike : ParseTree.HasAlike g table (.nonTerminal g.start) t :=
    ParseTree.hasAlike_of_derives hderives
  obtain ⟨t', hderives', htokens', hmeaning, hkeeps⟩ := halike tokens' h
  exact ⟨t', (parse_eq_ok_iff_guided hfits).2 ⟨hderives', htokens', hkeeps _ _ .nil hguided⟩,
    hmeaning⟩

namespace Language

variable {declared : List NodeType} {config : Config} {l : Language} {tokens tokens' : List Token}

theorem fits_of_assemble (hl : assemble declared config = .ok l) :
    l.compiled.table.Fits l.grammar := by
  obtain ⟨-, -, htable⟩ := Compiled.ofGrammar_eq_ok (compiled_of_assemble hl)
  rw [(Grammar.parseTable_eq_ok htable).1]
  exact Grammar.fits_allCells _ _ _

theorem parseTokens_of_alike (hl : assemble declared config = .ok l)
    (h : Forall₂ Token.Alike tokens tokens') {v : Value} (hv : l.parseTokens tokens = .ok v) :
    l.parseTokens tokens' = .ok v := by
  obtain ⟨t, ht, rfl⟩ := parseTokens_eq_ok.1 hv
  obtain ⟨t', ht', hmeaning⟩ := Parser.exists_parse_of_alike (fits_of_assemble hl) h ht
  exact parseTokens_eq_ok.2 ⟨t', ht', by rw [ParseTree.value, hmeaning, ParseTree.value]⟩

/-- A language yields the same values for alike tokens. -/
theorem parseTokens_iff_of_alike (hl : assemble declared config = .ok l)
    (h : Forall₂ Token.Alike tokens tokens') (v : Value) :
    l.parseTokens tokens = .ok v ↔ l.parseTokens tokens' = .ok v := by
  have hsymm : Forall₂ Token.Alike tokens' tokens := h.flip.imp fun _ _ ht => ht.symm
  exact ⟨parseTokens_of_alike hl h, parseTokens_of_alike hl hsymm⟩

end Language

end SmallLang
