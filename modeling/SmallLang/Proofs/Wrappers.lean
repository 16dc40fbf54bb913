import SmallLang.Proofs.Extension.Embed
import SmallLang.Proofs.Renumbering.Language

/-!
# Wrappers leave no trace

A type can declare literals around itself, such as parentheses, and skip them. Where such a wrapper is
declared by the start type and the table of the language decides nothing by priority, whatever is
accepted is accepted inside the wrapper as well, with the same value (`Language.parseTokens_wrapped`).

The production of the wrapper begins and ends with a literal. So it is no operator, and stratification
does not limit what stands inside: the production stays what it was, at the start or among the atoms of
the start (`Grammar.Staged.exists_into_of_wrapping`).
-/

set_option autoImplicit false

namespace SmallLang

open List (Forall₂)

/-- The rule that puts literals around the type which declares it, and returns the node inside. -/
def Rule.wrapper (opening closing : List String) (prec : Prec) : Rule :=
  ⟨.this, (opening.map Sym.literal ++ Sym.this :: closing.map Sym.literal).map .sym, .skip, prec⟩

namespace Language

/-- The start type of the language declares a wrapper of these literals. -/
def HasWrapper (l : Language) (opening closing : List String) : Prop :=
  ∃ t ∈ l.types, t.name = l.start ∧ ∃ prec, Rule.wrapper opening closing prec ∈ t.rules

/-- The tokens are those of the literals, one for each. -/
def Spells (l : Language) (texts : List String) (tokens : List Token) : Prop :=
  Forall₂ (fun text token => l.arena.indexOf? (.literal text) = some token.terminal) texts tokens

end Language

/-! ## The declared production -/

namespace Rule

theorem filterMap_thisPlaces_literals (texts : List String) (k : Nat) :
    (((texts.map Sym.literal).map Element.sym).zipIdx k).filterMap
      (fun (e, i) => if e = .sym .this then some i else none) = [] := by
  refine List.filterMap_eq_nil_iff.2 ?_
  rintro ⟨e, i⟩ he
  obtain ⟨s, hs, rfl⟩ := List.mem_map.1 (List.fst_mem_of_mem_zipIdx he)
  obtain ⟨text, -, rfl⟩ := List.mem_map.1 hs
  exact if_neg (by simp [Sym.literal])

/-- A wrapper hands on the child between its literals. -/
theorem thisPlaces_wrapper (opening closing : List String) (prec : Prec) :
    (wrapper opening closing prec).thisPlaces = [opening.length] := by
  simp only [thisPlaces, wrapper, List.map_append, List.map_cons, List.zipIdx_append,
    List.zipIdx_cons, List.filterMap_append, List.filterMap_cons, filterMap_thisPlaces_literals]
  simp

end Rule

theorem NodeType.construction_wrapper (t : NodeType) (opening closing : List String) (prec : Prec) :
    t.construction (Rule.wrapper opening closing prec) = .ok (.child opening.length) := by
  have hplaces := Rule.thisPlaces_wrapper opening closing prec
  simp only [construction, hplaces]
  rfl

/-- The symbols of literals are the terminals of their tokens. -/
theorem Naming.eq_terminals_of_literals {ns : Naming} {arena : Arena} {owner : String}
    {texts : List String} {ss : List Symbol} {tokens : List Token}
    (hss : Forall₂ (fun x s => ns.elementSymbol? arena owner x = some s)
      ((texts.map Sym.literal).map Element.sym) ss)
    (htokens : Forall₂ (fun text token => arena.indexOf? (.literal text) = some token.terminal)
      texts tokens) :
    ss = tokens.map fun token => .terminal token.terminal := by
  induction htokens generalizing ss with
  | nil =>
      cases hss
      rfl
  | @cons text token _ _ htoken _ ih =>
      cases hss with
      | @cons _ s _ _ hs hss =>
          have hterminal : (arena.indexOf? (.literal text)).map Symbol.terminal = some s := hs
          rw [htoken, Option.map_some] at hterminal
          rw [List.map_cons, ih hss, Option.some.inj hterminal]

/-- A non-terminal between the terminals of some tokens, handed on as it is. -/
def Production.wrapping (before after : List Token) (x : Nat) (prec : Prec) : Production :=
  ⟨before.map (fun token => .terminal token.terminal) ++
      .nonTerminal x :: after.map (fun token => .terminal token.terminal),
    .child before.length, prec⟩

/-- What the wrapper of the start type becomes. -/
theorem Naming.Makes.wrapping_mem {ns : Naming} {declared : List NodeType} {lowered : Lowered}
    (h : ns.Makes declared lowered) {t : NodeType} (ht : t ∈ ns.types)
    (hstart : t.name = lowered.start) {opening closing : List String} {prec : Prec}
    (hr : Rule.wrapper opening closing prec ∈ t.rules) {before after : List Token}
    (hbefore : Forall₂ (fun text token =>
      lowered.grammar.arena.indexOf? (.literal text) = some token.terminal) opening before)
    (hafter : Forall₂ (fun text token =>
      lowered.grammar.arena.indexOf? (.literal text) = some token.terminal) closing after) :
    Production.wrapping before after lowered.grammar.start prec ∈
      lowered.grammar.productionsOf lowered.grammar.start := by
  obtain ⟨⟨i, p⟩, hproduces⟩ := h.produces t ht _ hr
  obtain ⟨-, hsymbols, -, -⟩ := Naming.production?_eq_some_iff.1 hproduces
  have hnumber : ns.typeNumber? t.name = some lowered.grammar.start := by
    rw [hstart]
    exact h.typeNumber?_start
  simp only [Rule.wrapper, List.map_append, List.map_cons] at hsymbols
  obtain ⟨ss, rest, hss, hopening, hrest⟩ := exists_append_of_forall₂ hsymbols
  cases hrest with
  | @cons _ s _ ss' hthis hclosing =>
      have hs : (ns.typeNumber? t.name).map Symbol.nonTerminal = some s := hthis
      rw [hnumber, Option.map_some] at hs
      obtain rfl := Option.some.inj hs
      rw [eq_terminals_of_literals hopening hbefore, eq_terminals_of_literals hclosing hafter] at hss
      refine (h.mem_productionsOf_iff _ _).2
        ⟨t, ht, _, hr, Naming.production?_eq_some_iff.2 ⟨hnumber, ?_, ?_, rfl⟩⟩
      · rw [Production.wrapping, ← hss]
        simpa only [Rule.wrapper, List.map_append, List.map_cons] using hsymbols
      · rw [t.construction_wrapper, Production.wrapping, hbefore.length_eq]

/-! ## The production after stratification -/

namespace Production

variable {before after : List Token} (x : Nat) (prec : Prec)

theorem isOperatorOn_wrapping (hbefore : before ≠ []) (y : Nat) :
    (wrapping before after x prec).isOperatorOn y = false := by
  obtain ⟨token, before, rfl⟩ := List.exists_cons_of_ne_nil hbefore
  rfl

theorem unitTarget?_wrapping (hbefore : before ≠ []) :
    (wrapping before after x prec).unitTarget? = none := by
  obtain ⟨token, before, rfl⟩ := List.exists_cons_of_ne_nil hbefore
  cases before <;> rfl

/-- Among the atoms nothing in it is limited, since the closing literals come after it. -/
theorem atomProduction_wrapping (hafter : after ≠ []) (ladder : Ladder) :
    ladder.atomProduction (wrapping before after x prec) = wrapping before after x prec := by
  obtain ⟨after, token, rfl⟩ := (List.eq_nil_or_concat' after).resolve_left hafter
  have hlast : (wrapping before (after ++ [token]) x prec).symbols.getLast? =
      some (.terminal token.terminal) := by
    rw [wrapping, List.map_append, List.map_singleton, ← List.cons_append, ← List.append_assoc]
    exact List.getLast?_concat ..
  rw [Ladder.atomProduction, hlast, if_neg (by simp)]

end Production

namespace Grammar

/-- A row of tokens derives from the row of its terminals. -/
theorem derivesRow_tokens (g : Grammar) (tokens : List Token) :
    g.DerivesRow (tokens.map fun token => .terminal token.terminal) (tokens.map .token) := by
  induction tokens with
  | nil => exact .nil
  | cons token tokens ih => exact .cons (Derives.token token) ih

variable {g : Grammar} {x : Nat} {before after : List Token} {prec : Prec}

/-- No step of stratification rewrites a wrapper. -/
theorem Staged.arranged_wrapping {types : Nat} (h : g.Staged types g.size) (hbefore : before ≠ [])
    {m i k y : Nat} (hk : k ≤ g.size)
    (hp : g.production? m i = some (Production.wrapping before after y prec)) :
    g.arranged k m i (Production.wrapping before after y prec) =
      Production.wrapping before after y prec := by
  rcases g.arranged_cases k m i (Production.wrapping before after y prec) with
    ⟨heq, -⟩ | ⟨z, hz, j, op, hfinds, -⟩
  · exact heq
  · obtain ⟨q, -, -, hq, hisop, -⟩ := h.exists_of_finds (Nat.lt_of_lt_of_le hz hk) hfinds
    obtain rfl := Option.some.inj (hp.symm.trans hq)
    rw [Production.isOperatorOn_wrapping y prec hbefore] at hisop
    exact absurd hisop Bool.false_ne_true

/-- After stratification the wrapper is a production of its non-terminal, or one of the atoms that the
non-terminal hands on. -/
theorem Staged.exists_into_of_wrapping {types : Nat} (h : g.Staged types g.size)
    (hg : g.stratify.WellFormed) (hbefore : before ≠ []) (hafter : after ≠ [])
    (hp : Production.wrapping before after x prec ∈ g.productionsOf x) :
    ∃ a, g.stratify.Into a x ∧
      Production.wrapping before after x prec ∈ g.stratify.productionsOf a := by
  obtain ⟨i, hi⟩ := mem_productionsOf_iff.1 hp
  have hx := lt_size_of_production? hi
  by_cases hladder : g.HasLadder x
  · -- Operators make a ladder of the non-terminal. The wrapper is none, so it is an atom of the ladder.
    have hatom : Production.wrapping before after x prec ∈ g.atomsAt x := by
      refine (h.mem_atomsAt_iff hx).2 (Or.inr ⟨x, self_mem_closureAt g x, .self g x, i, _, hi,
        Production.isOperatorOn_wrapping x prec hbefore x,
        Production.unitTarget?_wrapping x prec hbefore, ?_⟩)
      exact (h.arranged_wrapping hbefore (Nat.le_of_lt hx) hi).symm
    have hmem := h.mem_atom_of_mem_atomsAt hladder hx hatom
    rw [Production.atomProduction_wrapping x prec hafter] at hmem
    exact ⟨_, h.into_atom hg hladder hx hladder.height_pos, hmem⟩
  · refine ⟨x, .refl _ _, mem_productionsOf_iff.2 ⟨i, ?_⟩⟩
    rw [h.production?_stratify hx hladder, hi, Option.map_some,
      h.arranged_wrapping hbefore (Nat.le_refl _) hi]

/-- A tree between the tokens of a wrapper has the value that it has alone. -/
theorem exists_wrapped {a : Nat} (hinto : g.Into a x)
    (hp : Production.wrapping before after x prec ∈ g.productionsOf a) {t : ParseTree}
    (ht : g.Derives (.nonTerminal x) t) :
    ∃ t', g.Derives (.nonTerminal x) t' ∧ t'.tokens = before ++ t.tokens ++ after ∧
      t'.value g = t.value g := by
  obtain ⟨i, hi⟩ := mem_productionsOf_iff.1 hp
  have hrow : g.DerivesRow (Production.wrapping before after x prec).symbols
      (before.map .token ++ t :: after.map .token) :=
    List.rel_append (derivesRow_tokens g before) (.cons ht (derivesRow_tokens g after))
  obtain ⟨t', ht', htokens, hmeaning⟩ :=
    hinto.derives _ (t.value g) (Derives.node hi hrow) (by
      rw [ParseTree.meaning_node, constructionOf_eq hi]
      simp [Production.wrapping, Meaning.ofNode, Construction.apply, ParseTree.value])
  refine ⟨t', ht', ?_, ?_⟩
  · rw [htokens, ParseTree.tokens_node]
    simp [List.flatMap_append, List.flatMap_cons, List.flatMap_map, List.flatMap_singleton']
  · rw [ParseTree.value, hmeaning]
    rfl

end Grammar

namespace Language

variable {declared : List NodeType} {config : Config} {l : Language} {opening closing : List String}

/-- The start of a language is the one that lowering found. -/
theorem start_of_assemble {lowered : Lowered} (hlower : lower declared = .ok lowered)
    (hl : assemble declared config = .ok l) : l.start = lowered.start := by
  obtain ⟨lowered', hlower', h⟩ := Except.bind_eq_ok_iff.1 hl
  obtain ⟨compiled, -, h⟩ := Except.bind_eq_ok_iff.1 h
  obtain rfl := Except.ok.inj (hlower.symm.trans hlower')
  rw [← Except.ok.inj h]

theorem Spells.ne_nil {texts : List String} {tokens : List Token} (h : l.Spells texts tokens)
    (htexts : texts ≠ []) : tokens ≠ [] := by
  rintro rfl
  cases h
  exact htexts rfl

/-- Wrappers are transparent: what a language without decisions accepts, it accepts inside a wrapper of
its start type, with the same value. -/
theorem parseTokens_wrapped (hbuilt : ∀ t ∈ declared, t.Built)
    (hassemble : assemble declared config = .ok l)
    (hresolutions : l.compiled.table.resolutions = [])
    (hwrapper : l.HasWrapper opening closing) (hopening : opening ≠ []) (hclosing : closing ≠ [])
    {before after : List Token} (hbefore : l.Spells opening before) (hafter : l.Spells closing after)
    {tokens : List Token} {v : Value} (hparse : l.parseTokens tokens = .ok v) :
    l.parseTokens (before ++ tokens ++ after) = .ok v := by
  obtain ⟨lowered, hlower, htypes, -, hcompiled⟩ := assemble_eq_ok hassemble
  obtain ⟨ns, hmakes⟩ := lower_eq_ok hlower
  obtain ⟨hstaged, hlt, -⟩ := staged_of_lower hlower hbuilt
  have hg := hstaged.wellFormed_stratify hlt
  have hbefore' := hbefore.ne_nil hopening
  have hafter' := hafter.ne_nil hclosing
  rw [Spells, arena_of_assemble hlower hassemble] at hbefore hafter
  obtain ⟨t, ht, hname, prec, hr⟩ := hwrapper
  rw [htypes, hmakes.types] at ht
  have hp := hmakes.wrapping_mem ht (hname.trans (start_of_assemble hlower hassemble)) hr hbefore hafter
  obtain ⟨a, hinto, hp⟩ := hstaged.exists_into_of_wrapping hg hbefore' hafter' hp
  obtain ⟨tree, htree, rfl, rfl⟩ := (parseTokens_eq_ok_iff hcompiled hg hresolutions).1 hparse
  rw [Grammar.stratify_start] at htree
  -- Without decisions every derivation is parsed, so there is no need to follow the table.
  obtain ⟨tree', htree', htokens, hvalue⟩ := Grammar.exists_wrapped hinto hp htree
  refine (parseTokens_eq_ok_iff hcompiled hg hresolutions).2 ⟨tree', ?_, htokens, hvalue⟩
  rwa [Grammar.stratify_start]

/-- The tokens `1 + 2` of `sumTypes`. -/
def plusTokens : List Token := [sumNumber 1, ⟨3, "+", .token "+", .outside⟩, sumNumber 2]

theorem parseTokens_wrapped_of_sumTypes :
    ∃ l v, assemble sumTypes .quiet = .ok l ∧ l.compiled.table.resolutions = [] ∧
      l.HasWrapper ["("] [")"] ∧ l.parseTokens plusTokens = .ok v ∧
      l.parseTokens ([⟨0, "(", .token "(", .outside⟩] ++ plusTokens ++
        [⟨1, ")", .token ")", .outside⟩]) = .ok v := by
  have hcheck : (assemble sumTypes .quiet).toOption.any (fun l =>
      decide (l.compiled.table.resolutions = []) && decide (l.start = "Expr") &&
        decide (l.types = sumTypes) && decide (l.arena.indexOf? (.literal "(") = some 0) &&
        decide (l.arena.indexOf? (.literal ")") = some 1) &&
        (l.parseTokens plusTokens).toOption.isSome) = true := by
    cbv
  have hbuilt : ∀ t ∈ sumTypes, t.Built := by
    intro t ht
    simp only [sumTypes, List.mem_cons, List.not_mem_nil, or_false] at ht
    rcases ht with rfl | rfl | rfl
    · exact ((NodeType.Built.named _).skip _ _).start
    · exact ((NodeType.Built.named _).generates _ _).replaces _ _
    · exact ((NodeType.Built.named _).generates _ _).replaces _ _
  obtain ⟨l, hl, hcheck⟩ := exists_of_any_assemble hcheck
  simp only [Bool.and_eq_true, decide_eq_true_eq] at hcheck
  obtain ⟨⟨⟨⟨⟨hresolutions, hstart⟩, htypes⟩, hopen⟩, hclose⟩, hparse⟩ := hcheck
  have hwrapper : l.HasWrapper ["("] [")"] := by
    refine ⟨sumTypes[0], ?_, hstart.symm, Prec.default, ?_⟩
    · rw [htypes]
      exact List.getElem_mem _
    · exact List.mem_cons_self
  obtain ⟨v, hv⟩ := Option.isSome_iff_exists.1 hparse
  have hparse := Except.toOption_eq_some_iff.1 hv
  exact ⟨l, v, hl, hresolutions, hwrapper, hparse, parseTokens_wrapped hbuilt hl hresolutions hwrapper
    (by simp) (by simp) (.cons hopen .nil) (.cons hclose .nil) hparse⟩

end Language

end SmallLang
