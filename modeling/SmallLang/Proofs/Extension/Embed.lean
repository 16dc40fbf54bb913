import SmallLang.Proofs.Lookahead.ParseTable
import SmallLang.Proofs.Operator.LeftCorner

/-!
# Trees that another grammar has as well

A tree of one grammar embeds in another one as a symbol, if wherever this symbol can stand there, it
derives the same tokens with the same meaning (`Grammar.Embeds`). A node embeds if its children do
(`Grammar.Embeds.node`). Within a ladder a tree of the atoms or of a tighter level is, with empty tails
around it, one of a looser level (`Grammar.Into`).

Where an operator could be taken and could be left alone, no table is without a decision
(`Staged.not_canPrecede_of_operator`).
-/

set_option autoImplicit false

namespace SmallLang

open List (Forall₂)

namespace Grammar

/-! ## Embedding -/

/-- Wherever the symbol can stand in the second grammar, it derives the tokens of the tree with the
meaning that the tree has in the first one. -/
def Embeds (g g' : Grammar) (t : ParseTree) (s : Symbol) : Prop :=
  ∀ rest, g'.CanPrecede s rest →
    ∃ t', g'.Derives s t' ∧ t'.tokens = t.tokens ∧ t'.meaning g' = t.meaning g

section

variable {g g' : Grammar}

theorem Embeds.token (t : Token) : Embeds g g' (.token t) (.terminal t.terminal) := by
  intro rest _
  exact ⟨.token t, Derives.token t, rfl, rfl⟩

/-- A part of a production embeds if each of its symbols does, whatever the symbols after it
derive. -/
theorem exists_row (hg' : g'.WellFormed) {nt i : Nat} {p : Production}
    (hp : g'.production? nt i = some p) {rest : List Token}
    (hrest : g'.CanPrecede (.nonTerminal nt) rest) {before symbols after : List Symbol}
    (hsymbols : p.symbols = before ++ (symbols ++ after)) {es : List ParseTree}
    (hes : g'.DerivesRow after es) {cs : List ParseTree} (hcs : Forall₂ (Embeds g g') cs symbols) :
    ∃ cs', g'.DerivesRow symbols cs' ∧
      cs'.flatMap ParseTree.tokens = cs.flatMap ParseTree.tokens ∧
      cs'.map (ParseTree.meaning g') = cs.map (ParseTree.meaning g) := by
  induction hcs generalizing before with
  | nil => exact ⟨[], .nil, rfl, rfl⟩
  | @cons c s cs ss hc _ ih =>
      -- What follows a symbol is known from the trees after it, so the last one comes first.
      obtain ⟨ts, hts, htokens, hmeaning⟩ := @ih (before ++ [s]) (by simp [hsymbols])
      obtain ⟨t, ht, httokens, htmeaning⟩ :=
        hc _ (canPrecede_of_mem_symbols hg' hp hrest hsymbols (List.rel_append hts hes))
      refine ⟨t :: ts, .cons ht hts, ?_, ?_⟩
      · rw [List.flatMap_cons, List.flatMap_cons, httokens, htokens]
      · rw [List.map_cons, List.map_cons, htmeaning, hmeaning]

/-- A node embeds if its children embed in a production with the same construction. -/
theorem Embeds.node (hg' : g'.WellFormed) {nt m i : Nat} {p p' : Production}
    (hp : g.production? m i = some p) (hp' : p' ∈ g'.productionsOf nt)
    (hconstruction : p'.construction = p.construction) {cs : List ParseTree}
    (hcs : Forall₂ (Embeds g g') cs p'.symbols) :
    Embeds g g' (.node m i cs) (.nonTerminal nt) := by
  intro rest hrest
  obtain ⟨j, hj⟩ := mem_productionsOf_iff.1 hp'
  have hsymbols : p'.symbols = [] ++ (p'.symbols ++ []) := by simp
  obtain ⟨ts, hts, htokens, hmeaning⟩ := exists_row hg' hj hrest hsymbols .nil hcs
  refine ⟨.node nt j ts, Derives.node hj hts, ?_, ?_⟩
  · rw [ParseTree.tokens_node, ParseTree.tokens_node, htokens]
  · rw [ParseTree.meaning_node, ParseTree.meaning_node, constructionOf_eq hj, constructionOf_eq hp,
      hconstruction, hmeaning]

/-- What embeds depends on tokens and meanings only. -/
theorem Embeds.congr {t u : ParseTree} {s : Symbol} (h : Embeds g g' t s)
    (htokens : u.tokens = t.tokens) (hmeaning : u.meaning g = t.meaning g) : Embeds g g' u s := by
  intro rest hrest
  obtain ⟨t', ht', htokens', hmeaning'⟩ := h rest hrest
  exact ⟨t', ht', htokens'.trans htokens.symm, hmeaning'.trans hmeaning.symm⟩

end

/-! ## Non-terminals that hand on others -/

/-- Where the second non-terminal can stand, the first one can, and its trees that have a value and
nothing else are, with empty tails around them, trees of the second one. -/
structure Into (g : Grammar) (a b : Nat) : Prop where
  canPrecede : ∀ rest, g.CanPrecede (.nonTerminal b) rest → g.CanPrecede (.nonTerminal a) rest
  derives : ∀ t v, g.Derives (.nonTerminal a) t → t.meaning g = .plain v →
    ∃ t', g.Derives (.nonTerminal b) t' ∧ t'.tokens = t.tokens ∧ t'.meaning g = .plain v

section

variable {g : Grammar} {a b c : Nat}

theorem Into.refl (g : Grammar) (a : Nat) : g.Into a a :=
  ⟨fun _ hrest => hrest, fun t _ ht hv => ⟨t, ht, rfl, hv⟩⟩

theorem Into.trans (hab : g.Into a b) (hbc : g.Into b c) : g.Into a c := by
  refine ⟨fun rest hrest => hab.canPrecede rest (hbc.canPrecede rest hrest), ?_⟩
  intro t v ht hv
  obtain ⟨t₁, ht₁, htokens₁, hv₁⟩ := hab.derives t v ht hv
  obtain ⟨t₂, ht₂, htokens₂, hv₂⟩ := hbc.derives t₁ v ht₁ hv₁
  exact ⟨t₂, ht₂, htokens₂.trans htokens₁, hv₂⟩

/-- What embeds in a non-terminal embeds in those that hand it on. -/
theorem Embeds.into {g₀ : Grammar} {t : ParseTree} (h : Embeds g₀ g t (.nonTerminal a))
    (hab : g.Into a b) (hplain : ∃ v, t.meaning g₀ = .plain v) :
    Embeds g₀ g t (.nonTerminal b) := by
  intro rest hrest
  obtain ⟨v, hv⟩ := hplain
  obtain ⟨t₁, ht₁, htokens₁, hmeaning₁⟩ := h rest (hab.canPrecede rest hrest)
  obtain ⟨t₂, ht₂, htokens₂, hmeaning₂⟩ := hab.derives t₁ v ht₁ (hmeaning₁.trans hv)
  exact ⟨t₂, ht₂, htokens₂.trans htokens₁, hmeaning₂.trans hv.symm⟩

/-- A tail that ends at once. -/
theorem exists_end {tail : Nat} (hend : Ladder.endProduction ∈ g.productionsOf tail) :
    ∃ t, g.Derives (.nonTerminal tail) t ∧ t.tokens = [] ∧ (t.meaning g).climb = id := by
  obtain ⟨j, hj⟩ := mem_productionsOf_iff.1 hend
  refine ⟨.node tail j [], Derives.node hj .nil, rfl, ?_⟩
  rw [ParseTree.meaning_node, constructionOf_eq hj]
  rfl

/-- A climb hands on its operand, since the tail can be empty. -/
theorem into_of_climb (hg : g.WellFormed) {tail : Nat}
    (hp : ⟨[.nonTerminal a, .nonTerminal tail], .climb, Prec.default⟩ ∈ g.productionsOf b)
    (hend : Ladder.endProduction ∈ g.productionsOf tail) : g.Into a b := by
  obtain ⟨i, hi⟩ := mem_productionsOf_iff.1 hp
  obtain ⟨e, he, hetokens, heclimb⟩ := exists_end hend
  refine ⟨?_, ?_⟩
  · intro rest hrest
    have hbefore := canPrecede_of_mem_symbols hg hi hrest (List.nil_append _).symm
      (Forall₂.cons he .nil)
    rwa [List.flatMap_singleton, hetokens, List.nil_append] at hbefore
  · intro t v ht hv
    refine ⟨.node b i [t, e], Derives.node hi (.cons ht (.cons he .nil)), ?_, ?_⟩
    · rw [ParseTree.tokens_node, List.flatMap_cons, List.flatMap_singleton, hetokens,
        List.append_nil]
    · rw [ParseTree.meaning_node, constructionOf_eq hi]
      show Meaning.plain ((e.meaning g).climb (t.meaning g).value) = _
      rw [heclimb, hv]
      rfl

end

/-! ## Ladders of a stratified grammar -/

namespace Staged

variable {types : Nat} {g : Grammar} (h : g.Staged types g.size) (hg : g.stratify.WellFormed)
include h

theorem end_mem_tail {x k : Nat} (hx : g.HasLadder x) (hxs : x < g.size)
    (hk : k < (g.ladder x).height) :
    Ladder.endProduction ∈ g.stratify.productionsOf ((g.ladder x).tail k) := by
  rw [h.productionsOf_tail_stratify hx hxs (List.getElem?_eq_getElem hk)]
  exact List.mem_append_right _ (List.mem_singleton.2 rfl)

theorem climb_mem_head {x k : Nat} (hx : g.HasLadder x) (hxs : x < g.size)
    (hk : k < (g.ladder x).height) :
    (g.ladder x).climbProduction k ((g.ladder x).tail k) ∈
      g.stratify.productionsOf ((g.ladder x).head k) := by
  rw [h.productionsOf_head_stratify hx hxs hk]
  exact List.mem_singleton.2 rfl

theorem operator_mem_tail {x : Nat} {op : OperatorUse} (hxs : x < g.size) (hop : op ∈ g.usesAt x) :
    (g.ladder x).tailProduction op ∈
      g.stratify.productionsOf ((g.ladder x).tail ((g.ladder x).levelOf op.prec.priority)) := by
  have hlevel := Ladder.getElem?_levelOf (mem_levels_ladder_iff.2 ⟨op, hop, rfl⟩)
  rw [h.productionsOf_tail_stratify (List.ne_nil_of_mem hop) hxs hlevel]
  refine List.mem_append_left _ (List.mem_map.2 ⟨op, List.mem_filter.2 ⟨hop, ?_⟩, rfl⟩)
  exact beq_self_eq_true _

include hg

/-- A level hands on its operand, wherever it is climbed from. -/
theorem into_of_climbProduction {x k b : Nat} (hx : g.HasLadder x) (hxs : x < g.size)
    (hk : k < (g.ladder x).height)
    (hb : (g.ladder x).climbProduction k ((g.ladder x).tail k) ∈ g.stratify.productionsOf b) :
    g.stratify.Into ((g.ladder x).operand k) b :=
  into_of_climb hg hb (h.end_mem_tail hx hxs hk)

/-- Every level hands on the tighter ones. -/
theorem into_head {x j k : Nat} (hx : g.HasLadder x) (hxs : x < g.size) (hjk : j ≤ k)
    (hk : k < (g.ladder x).height) :
    g.stratify.Into ((g.ladder x).head k) ((g.ladder x).head j) := by
  induction hjk with
  | refl => exact Into.refl _ _
  | @step k hjk ih =>
      have hk' : k < (g.ladder x).height := Nat.lt_of_succ_lt hk
      have hoperand := h.into_of_climbProduction hg hx hxs hk' (h.climb_mem_head hx hxs hk')
      rw [Ladder.operand, if_pos hk] at hoperand
      exact hoperand.trans (ih hk')

/-- Every level hands on the atoms. -/
theorem into_atom {x k : Nat} (hx : g.HasLadder x) (hxs : x < g.size)
    (hk : k < (g.ladder x).height) :
    g.stratify.Into (g.ladder x).atom ((g.ladder x).head k) := by
  have hpos := hx.height_pos
  have hlast : (g.ladder x).height - 1 < (g.ladder x).height := by omega
  have hoperand := h.into_of_climbProduction hg hx hxs hlast (h.climb_mem_head hx hxs hlast)
  rw [Ladder.operand, if_neg (by omega)] at hoperand
  apply hoperand.trans
  exact h.into_head hg hx hxs (by omega) hlast

/-- Every operand hands on the atoms, and the non-terminal hands on every operand. -/
theorem into_prefixOperand {x : Nat} (hx : g.HasLadder x) (hxs : x < g.size) (prec : Prec) :
    g.stratify.Into (g.ladder x).atom ((g.ladder x).prefixOperand prec) ∧
      g.stratify.Into ((g.ladder x).prefixOperand prec) x := by
  rcases prefixOperand_cases (g.stage x) x prec with ⟨k, hk, heq⟩ | heq
  · rw [ladder, heq]
    exact ⟨h.into_atom hg hx hxs hk, h.into_head hg hx hxs (Nat.zero_le k) hk⟩
  · rw [ladder, heq]
    exact ⟨Into.refl _ _, h.into_atom hg hx hxs hx.height_pos⟩

/-- The atoms of a ladder in the closure are handed on by the atoms. -/
theorem into_atom_of_mem_closureAt {x m : Nat} (hx : g.HasLadder x) (hxs : x < g.size)
    (hm : m ∈ g.closureAt x) (hladder : g.HasLadder m) (hlt : m < x) :
    g.stratify.Into (g.ladder m).atom (g.ladder x).atom := by
  have hms : m < g.size := Nat.lt_trans hlt hxs
  have hpos := hladder.height_pos
  have hoperand := h.into_of_climbProduction hg hladder hms hpos
    (h.climb_mem_atom hx hxs hm hladder hlt)
  rcases (g.ladder m).operand_eq 0 with ⟨hk, heq⟩ | ⟨-, heq⟩
  · rw [heq] at hoperand
    exact (h.into_atom hg hladder hms hk).trans hoperand
  · rwa [heq] at hoperand

/-! ## Operators that could be left alone -/

/-- What can follow a ladder can follow each of its tails. -/
theorem canPrecede_tail {x k : Nat} (hx : g.HasLadder x) (hxs : x < g.size)
    (hk : k < (g.ladder x).height) {rest : List Token}
    (hrest : g.stratify.CanPrecede (.nonTerminal x) rest) :
    g.stratify.CanPrecede (.nonTerminal ((g.ladder x).tail k)) rest := by
  have hhead := (h.into_head hg hx hxs (Nat.zero_le k) hk).canPrecede rest hrest
  obtain ⟨i, hi⟩ := mem_productionsOf_iff.1 (h.climb_mem_head hx hxs hk)
  have hsplit : ((g.ladder x).climbProduction k ((g.ladder x).tail k)).symbols =
      [.nonTerminal ((g.ladder x).operand k)] ++ [.nonTerminal ((g.ladder x).tail k)] := rfl
  exact canPrecede_of_mem_symbols hg hi hhead hsplit Forall₂.nil

/-- If the tokens of an operator can follow the ladder that it belongs to, then its tail could take it
or end before it, so the table has to decide. -/
theorem not_canPrecede_of_operator {table : ParseTable}
    (htable : g.stratify.Undecided g.stratify.firstTable
      (g.stratify.followTable g.stratify.firstTable) table)
    {x : Nat} {op : OperatorUse} (hxs : x < g.size) (hop : op ∈ g.usesAt x) (hne : op.rest ≠ [])
    {g₀ : Grammar} {cs : List ParseTree}
    (hcs : Forall₂ (Embeds g₀ g.stratify) cs ((g.ladder x).operatorSymbols op)) (rest : List Token) :
    ¬ g.stratify.CanPrecede (.nonTerminal x) (cs.flatMap ParseTree.tokens ++ rest) := by
  intro hfollows
  have hx : g.HasLadder x := List.ne_nil_of_mem hop
  have hlevel := Ladder.levelOf_lt (mem_levels_ladder_iff.2 ⟨op, hop, rfl⟩)
  have htail := h.canPrecede_tail hg hx hxs hlevel hfollows
  obtain ⟨i, hi⟩ := mem_productionsOf_iff.1 (h.operator_mem_tail hxs hop)
  obtain ⟨j, hj⟩ := mem_productionsOf_iff.1 (h.end_mem_tail hx hxs hlevel)
  -- The production of the operator derives its tokens, with an empty tail after them.
  obtain ⟨es, hes, hestokens⟩ : ∃ es, g.stratify.DerivesRow
      (if (g.ladder x).loops op then
        [.nonTerminal ((g.ladder x).tail ((g.ladder x).levelOf op.prec.priority))] else []) es ∧
        es.flatMap ParseTree.tokens = [] := by
    split
    · obtain ⟨e, he, hetokens, -⟩ := exists_end (h.end_mem_tail hx hxs hlevel)
      exact ⟨[e], .cons he .nil, by rw [List.flatMap_singleton, hetokens]⟩
    · exact ⟨[], .nil, rfl⟩
  have hsplit := (g.ladder x).tailProduction_symbols op
  obtain ⟨ts, hts, htokens, -⟩ :=
    exists_row hg hi htail (hsplit.trans (List.nil_append _).symm) hes hcs
  have hrow : g.stratify.DerivesRow ((g.ladder x).tailProduction op).symbols (ts ++ es) := by
    rw [hsplit]
    exact List.rel_append hts hes
  have hstarts := starts_of_derivesRow hg hrow fun s hs => hg.hasSymbol hi hs
  rw [List.flatMap_append, hestokens, List.append_nil, htokens] at hstarts
  obtain ⟨-, hcovers⟩ := htail _ rfl
  obtain ⟨hadmits, hla⟩ := Lookahead.admits_of_starts hstarts hcovers
  have hstarts' : (g.stratify.firstTable.ofSymbols Ladder.endProduction.symbols).Starts [] := rfl
  obtain ⟨hadmits', -⟩ := Lookahead.admits_of_starts hstarts' hcovers
  have hsame : Parser.Setup.lookahead
      (cs.flatMap ParseTree.tokens ++ (cs.flatMap ParseTree.tokens ++ rest)) =
      Parser.Setup.lookahead ([] ++ (cs.flatMap ParseTree.tokens ++ rest)) := by
    cases cs.flatMap ParseTree.tokens <;> rfl
  rw [← hsame] at hadmits'
  have hij := htable.eq_of_admits hi hj hla hadmits hadmits'
  rw [← hij, hi] at hj
  -- An operator is not the end.
  have hsymbols := congrArg Production.symbols (Option.some.inj hj)
  rw [hsplit] at hsymbols
  exact (g.ladder x).operatorSymbols_ne_nil hne (List.append_eq_nil_iff.1 hsymbols).1

end Staged

end Grammar

end SmallLang
