import SmallLang.Proofs.Parsing.Earliest
import SmallLang.Proofs.Parsing.Termination
import SmallLang.Proofs.Scanning.Rebuilt

/-!
# Look-ups of the parser

The parser looks up terminals, non-terminals, productions and finished trees by number, also for the text of
an error. The machine with two stacks is given here once more with look-ups that may find nothing
(`Stacks.step?`), and it breaks where one does (`Stacks.Comes`).

In a grammar that refers to nothing that it does not have, the machine breaks in one case only: the next
token has a terminal that the grammar does not have, and an error about this token is to be described
(`Stacks.Flat.finds`). The machine always comes to an end, and it breaks exactly where it comes to such
a token (`Language.comes_treeOfTokens`). Tokens of the language itself never break it, whether they are made
by name or from a text. A token of another language may (`Language.exists_foreign_breaks`).
-/

set_option autoImplicit false

namespace SmallLang

namespace Parser

open Grammar
open Parser.Setup (lookahead)

namespace Stacks

/-! ## Steps with look-ups that may find nothing -/

/-- One step of the machine; none if a terminal, a non-terminal, a production or a tree that is looked up is
not there. -/
def step? (u : Setup) : Stacks → Option Outcome
  | ⟨.expect (.terminal i) :: _, _, []⟩ => do
      let expected ← u.grammar.arena.get? i
      pure (.failed (.unexpectedEnd expected.render u.endsAt))
  | ⟨.expect (.terminal i) :: frames, values, t :: rest⟩ =>
      if t.terminal = i then pure (.running ⟨frames, .token t :: values, rest⟩)
      else do
        let expected ← u.grammar.arena.get? i
        let found ← t.describe? u.grammar.arena
        pure (.failed (.mismatch expected.render found t.position))
  | ⟨.expect (.nonTerminal nt) :: frames, values, tokens⟩ => do
      let nonTerminal ← u.grammar.nonTerminals[nt]?
      match u.table.get? nt (lookahead tokens), tokens with
      | some p, tokens =>
          let production ← u.grammar.production? nt p
          pure (.running ⟨opening nt p production.symbols ++ frames, values, tokens⟩)
      | none, [] => pure (.failed (.unexpectedEnd nonTerminal.typeName u.endsAt))
      | none, t :: _ =>
          let found ← t.describe? u.grammar.arena
          pure (.failed (.unexpectedToken nonTerminal.typeName found t.position))
  | ⟨.reduce nt p count :: frames, values, tokens⟩ =>
      if count ≤ values.length then
        pure (.running ⟨frames, .node nt p (values.take count).reverse :: values.drop count, tokens⟩)
      else none
  | ⟨[], _, t :: _⟩ => do
      let found ← t.describe? u.grammar.arena
      pure (.failed (.unconsumedInput found t.position))
  | ⟨[], .node nt p children :: _, []⟩ => pure (.accepted (.node nt p children))
  | ⟨[], _, []⟩ => none

/-- The next token has a terminal that is not in the arena. -/
def FacesForeign (arena : Arena) (c : Stacks) : Prop :=
  ∃ t rest, c.tokens = t :: rest ∧ arena.size ≤ t.terminal

variable {u : Setup} {start : Nat} {input : List Token} {c c' : Stacks}

theorem describe?_of_foreign {arena : Arena} {t : Token} (ht : arena.size ≤ t.terminal) :
    t.describe? arena = none := by
  rw [Token.describe?, Arena.get?, List.getElem?_eq_none ht]
  rfl

/-- What a step looks up. Either everything is found and the step is that of the machine, or there is no
description for the next token, since its terminal is foreign. -/
inductive Finds (u : Setup) (c : Stacks) : Prop
  | all (hstep? : step? u c = some (step u c))
      (hown : ∀ i position, step u c ≠ .failed (.foreignToken i position))
  | notDescribed {t : Token} {rest : List Token} (hstep? : step? u c = none)
      (htokens : c.tokens = t :: rest) (hforeign : u.grammar.arena.size ≤ t.terminal)
      (hstep : step u c = .failed (.foreignToken t.terminal t.position))

/-- A step to an error about the next token finds a description for it, or its terminal is foreign. -/
theorem finds_of_described {t : Token} {rest : List Token} {e : String → ParseError}
    (hstep? : step? u c =
      (t.describe? u.grammar.arena).bind fun found => some (.failed (e found)))
    (hstep : step u c = .failed (u.about t e)) (htokens : c.tokens = t :: rest)
    (he : ∀ found i position, e found ≠ .foreignToken i position) : Finds u c := by
  by_cases ht : t.terminal < u.grammar.arena.size
  · obtain ⟨found, hfound, habout⟩ := exists_about u ht
    rw [hfound, Option.bind_some] at hstep?
    rw [habout] at hstep
    refine .all (hstep?.trans (congrArg some hstep.symm)) fun i position heq => ?_
    exact he found i position (Outcome.failed.inj (hstep.symm.trans heq))
  · have hforeign := Nat.le_of_not_lt ht
    have hnone := describe?_of_foreign hforeign
    rw [hnone, Option.bind_none] at hstep?
    rw [Setup.about, hnone] at hstep
    exact .notDescribed hstep? htokens hforeign hstep

/-- With no frame left, the tree is there, or a token is left. -/
theorem finds_finish {values : List ParseTree} {tokens : List Token}
    (hvalues : ∃ nt p children, values = [.node nt p children]) : Finds u ⟨[], values, tokens⟩ := by
  obtain ⟨nt, p, children, rfl⟩ := hvalues
  cases tokens with
  | nil => exact .all rfl fun _ _ => Outcome.noConfusion
  | cons t rest => exact finds_of_described rfl rfl rfl fun _ _ _ => ParseError.noConfusion

theorem finds_terminal {i : Nat} (hi : i < u.grammar.arena.size) (frames : List Frame)
    (values : List ParseTree) (tokens : List Token) :
    Finds u ⟨.expect (.terminal i) :: frames, values, tokens⟩ := by
  obtain ⟨expected, hexpected⟩ : ∃ expected, u.grammar.arena.get? i = some expected :=
    ⟨_, List.getElem?_eq_getElem hi⟩
  have hname : u.grammar.symbolName (.terminal i) = expected.render := by
    rw [symbolName, Arena.render, hexpected]
    rfl
  cases tokens with
  | nil =>
      refine .all ?_ fun _ _ => by simp [step, Setup.shift]
      rw [step?, hexpected, step, Setup.shift, hname]
      rfl
  | cons t rest =>
      by_cases ht : t.terminal = i
      · refine .all ?_ fun _ _ => by simp [step, Setup.shift, ht]
        rw [step?, if_pos ht, step, Setup.shift, if_pos ht]
        rfl
      · refine finds_of_described
          (e := fun found => .mismatch expected.render found t.position) ?_ ?_ rfl
          fun _ _ _ => ParseError.noConfusion
        · rw [step?, if_neg ht, hexpected]
          rfl
        · rw [step, Setup.shift, if_neg ht, hname]

theorem finds_nonTerminal (hfits : u.table.Fits u.grammar) {nt : Nat} (hnt : nt < u.grammar.size)
    (frames : List Frame) (values : List ParseTree) (tokens : List Token) :
    Finds u ⟨.expect (.nonTerminal nt) :: frames, values, tokens⟩ := by
  obtain ⟨nonTerminal, hnonTerminal⟩ : ∃ x, u.grammar.nonTerminals[nt]? = some x :=
    ⟨_, List.getElem?_eq_getElem hnt⟩
  have hname : u.typeName nt = nonTerminal.typeName := by
    rw [Setup.typeName, nameOf, hnonTerminal]
    rfl
  cases hget : u.table.get? nt (lookahead tokens) with
  | some p =>
      obtain ⟨production, hp⟩ := hfits _ _ _ hget
      refine .all ?_ fun _ _ => by simp [step, hget, hp]
      simp only [step?, step, hnonTerminal, hget, hp]
      rfl
  | none =>
      cases tokens with
      | nil =>
          refine .all ?_ fun _ _ => by simp [step, hget, Setup.cannotOpen]
          simp only [step?, step, Setup.cannotOpen, hnonTerminal, hget, hname]
          rfl
      | cons t rest =>
          refine finds_of_described
            (e := fun found => .unexpectedToken nonTerminal.typeName found t.position) ?_ ?_ rfl
            fun _ _ _ => ParseError.noConfusion
          · simp only [step?, hnonTerminal, hget]
            rfl
          · simp only [step, hget, Setup.cannotOpen, hname]

theorem finds_reduce {nt p count : Nat} {frames : List Frame} {values : List ParseTree}
    {tokens : List Token} (hcount : count ≤ values.length) :
    Finds u ⟨.reduce nt p count :: frames, values, tokens⟩ := by
  refine .all ?_ fun _ _ => by simp [step, hcount]
  rw [step?, step, if_pos hcount, if_pos hcount]
  rfl

/-- The symbol that a frame expects exists. -/
theorem Flat.hasSymbol (hg : u.grammar.WellFormed)
    (h : Flat u.grammar u.table u.grammar.start input c) {s : Symbol} {frames : List Frame}
    (hframes : c.frames = .expect s :: frames) : u.grammar.HasSymbol s := by
  cases h with
  | initial =>
      obtain ⟨hs, -⟩ := List.cons.inj hframes
      obtain rfl := Frame.expect.inj hs
      exact hg.1
  | @path s' hconsistent hguided =>
      rw [ofState, List.flatMap_cons, framesOf] at hframes
      cases htodo : s'.top.todo with
      | nil =>
          rw [htodo] at hframes
          exact Frame.noConfusion (List.cons.inj hframes).1
      | cons s'' todo =>
          rw [htodo] at hframes
          obtain rfl := Frame.expect.inj (List.cons.inj hframes).1
          exact hconsistent.hasSymbol hg.symbolsExist htodo
  | finished => exact absurd hframes ((List.cons_ne_nil _ _).symm)

/-- Where symbols exist, nothing is missing but the description of a foreign token. -/
theorem Flat.finds (hg : u.grammar.WellFormed) (hfits : u.table.Fits u.grammar)
    (h : Flat u.grammar u.table u.grammar.start input c) : Finds u c := by
  have hsupplied := h.supplied hfits
  have hsymbol := fun s frames => @Flat.hasSymbol u input c hg h s frames
  obtain ⟨frames, values, tokens⟩ := c
  cases frames with
  | nil => exact finds_finish (hsupplied.finish rfl)
  | cons frame frames =>
      cases frame with
      | expect s =>
          cases s with
          | terminal i => exact finds_terminal (hsymbol _ _ rfl) _ _ _
          | nonTerminal nt => exact finds_nonTerminal hfits (hsymbol _ _ rfl) _ _ _
      | reduce nt p count => exact finds_reduce (hsupplied.reduce _ _ _ _ rfl)

/-! ## Runs -/

/-- What the machine comes to, with look-ups that may find nothing: it breaks, or it ends as the machine
does. -/
inductive Comes (u : Setup) : Stacks → Option (Except ParseError ParseTree) → Prop
  | broken {c : Stacks} (h : step? u c = none) : Comes u c none
  | accepted {c : Stacks} {t : ParseTree} (h : step? u c = some (.accepted t)) : Comes u c (some (.ok t))
  | failed {c : Stacks} {e : ParseError} (h : step? u c = some (.failed e)) :
      Comes u c (some (.error e))
  | running {c c' : Stacks} {r : Option (Except ParseError ParseTree)}
      (h : step? u c = some (.running c')) (hrest : Comes u c' r) : Comes u c r

/-- A result of the parser, and none for an error about a foreign token, which cannot be described. -/
def described : Except ParseError ParseTree → Option (Except ParseError ParseTree)
  | .error (.foreignToken _ _) => none
  | r => some r

theorem described_eq_some {r : Except ParseError ParseTree}
    (h : ∀ i position, r ≠ .error (.foreignToken i position)) : described r = some r := by
  unfold described
  split
  · exact absurd rfl (h _ _)
  · rfl

/-- A step that finds everything does not fail with an error about a foreign token. -/
theorem described_of_own (hown : ∀ i position, step u c ≠ .failed (.foreignToken i position))
    {e : ParseError} (hstep : step u c = .failed e) : described (.error e) = some (.error e) := by
  apply described_eq_some
  intro i position he
  exact hown i position (hstep.trans (congrArg Outcome.failed (Except.error.inj he)))

/-- The machine comes to what it ends with, unless it cannot describe a token. -/
theorem Flat.comes (hg : u.grammar.WellFormed) (hfits : u.table.Fits u.grammar)
    {r : Except ParseError ParseTree} (h : Flat u.grammar u.table u.grammar.start input c)
    (hends : Ends u c r) : Comes u c (described r) := by
  induction hends with
  | @accepted c t hstep =>
      cases h.finds hg hfits with
      | all hstep? _ => exact .accepted (hstep?.trans (congrArg some hstep))
      | notDescribed _ _ _ hfailed => exact Outcome.noConfusion (hstep.symm.trans hfailed)
  | @failed c e hstep =>
      cases h.finds hg hfits with
      | all hstep? hown =>
          rw [described_of_own hown hstep]
          exact .failed (hstep?.trans (congrArg some hstep))
      | notDescribed hstep? _ _ hfailed =>
          obtain rfl := Outcome.failed.inj (hstep.symm.trans hfailed)
          exact .broken hstep?
  | @running c c' r hstep _ ih =>
      cases h.finds hg hfits with
      | all hstep? _ => exact .running (hstep?.trans (congrArg some hstep)) (ih (h.step hfits hstep))
      | notDescribed _ _ _ hfailed => exact Outcome.noConfusion (hstep.symm.trans hfailed)

/-! ## Foreign tokens -/

/-- The tokens not read are the last ones of the input. -/
theorem Flat.suffix (h : Flat u.grammar u.table start input c) : c.tokens <:+ input := by
  cases h with
  | initial => exact List.suffix_refl _
  | @path s hconsistent hguided => exact ⟨_, hconsistent.read⟩
  | finished _ htokens _ => exact ⟨_, htokens⟩

/-- An error about a foreign token is about one that the machine comes to. -/
theorem Flat.exists_facesForeign (hg : u.grammar.WellFormed) (hfits : u.table.Fits u.grammar)
    {r : Except ParseError ParseTree} (h : Flat u.grammar u.table u.grammar.start input c)
    (hends : Ends u c r) (hr : described r = none) :
    ∃ c', Reaches u c c' ∧ c'.FacesForeign u.grammar.arena := by
  induction hends with
  | accepted _ => exact absurd hr (by simp [described])
  | @failed c e hstep =>
      cases h.finds hg hfits with
      | all hstep? hown =>
          rw [described_of_own hown hstep] at hr
          exact absurd hr (by simp)
      | notDescribed _ htokens hforeign _ => exact ⟨c, .refl, _, _, htokens, hforeign⟩
  | running hstep _ ih =>
      -- The token is come to later in the run.
      obtain ⟨c'', hreaches, hfaces⟩ := ih (h.step hfits hstep) hr
      exact ⟨c'', .head hstep hreaches, hfaces⟩

/-- The table has no entry for a terminal that does not exist. -/
def Sparse (u : Setup) : Prop :=
  ∀ nt i, u.grammar.arena.size ≤ i → u.table.get? nt (.terminal i) = none

/-- At a foreign token the machine only takes trees together, until it fails. -/
theorem Flat.step_of_facesForeign (hg : u.grammar.WellFormed) (hfits : u.table.Fits u.grammar)
    (hsparse : Sparse u) (h : Flat u.grammar u.table u.grammar.start input c)
    (hfaces : c.FacesForeign u.grammar.arena) :
    (∃ i position, Stacks.step u c = .failed (.foreignToken i position)) ∨
      ∃ c', Stacks.step u c = .running c' ∧ c'.FacesForeign u.grammar.arena := by
  have hsupplied := h.supplied hfits
  have hsymbol := fun s frames => @Flat.hasSymbol u input c hg h s frames
  obtain ⟨t, rest, htokens, hforeign⟩ := hfaces
  have habout : ∀ e, u.about t e = .foreignToken t.terminal t.position := by
    intro e
    rw [Setup.about, describe?_of_foreign hforeign]
  obtain ⟨frames, values, tokens⟩ := c
  obtain rfl : tokens = t :: rest := htokens
  cases frames with
  | nil => exact Or.inl ⟨_, _, congrArg Outcome.failed (habout _)⟩
  | cons frame frames =>
      cases frame with
      | expect s =>
          refine Or.inl ⟨t.terminal, t.position, ?_⟩
          cases s with
          | terminal i =>
              -- The terminal that is expected exists, so the token is of another one.
              have hi : i < u.grammar.arena.size := hsymbol _ _ rfl
              rw [Stacks.step, Setup.shift, if_neg (by omega), habout]
          | nonTerminal nt =>
              have hget : u.table.get? nt (lookahead (t :: rest)) = none := hsparse nt _ hforeign
              rw [Stacks.step, hget, Setup.cannotOpen, habout]
      | reduce nt p count =>
          have hcount : count ≤ values.length := hsupplied.reduce _ _ _ _ rfl
          exact Or.inr ⟨_, by rw [Stacks.step, if_pos hcount], t, rest, rfl, hforeign⟩

/-- Where the machine comes to a foreign token, it ends with an error about one. -/
theorem Flat.described_eq_none (hg : u.grammar.WellFormed) (hfits : u.table.Fits u.grammar)
    (hsparse : Sparse u) {r : Except ParseError ParseTree}
    (h : Flat u.grammar u.table u.grammar.start input c) (hends : Ends u c r)
    (hfaces : c.FacesForeign u.grammar.arena) : described r = none := by
  induction hends with
  | @accepted c t hstep =>
      rcases h.step_of_facesForeign hg hfits hsparse hfaces with ⟨i, position, hfailed⟩ | ⟨c', hrunning, -⟩
      · exact Outcome.noConfusion (hstep.symm.trans hfailed)
      · exact Outcome.noConfusion (hstep.symm.trans hrunning)
  | @failed c e hstep =>
      rcases h.step_of_facesForeign hg hfits hsparse hfaces with ⟨i, position, hfailed⟩ | ⟨c', hrunning, -⟩
      · obtain rfl := Outcome.failed.inj (hstep.symm.trans hfailed)
        rfl
      · exact Outcome.noConfusion (hstep.symm.trans hrunning)
  | @running c c' r hstep _ ih =>
      rcases h.step_of_facesForeign hg hfits hsparse hfaces with ⟨i, position, hfailed⟩ | ⟨c'', hrunning, hfaces'⟩
      · exact Outcome.noConfusion (hstep.symm.trans hfailed)
      · obtain rfl := Outcome.running.inj (hstep.symm.trans hrunning)
        exact ih (h.step hfits hstep) hfaces'

/-- The machine is deterministic. -/
theorem Ends.of_reaches {r : Except ParseError ParseTree} (h : Ends u c r) (hreaches : Reaches u c c') :
    Ends u c' r := by
  induction hreaches with
  | refl => exact h
  | tail _ hstep ih =>
      cases ih with
      | accepted haccepted => exact Outcome.noConfusion (haccepted.symm.trans hstep)
      | failed hfailed => exact Outcome.noConfusion (hfailed.symm.trans hstep)
      | running hrunning hrest =>
          obtain rfl := Outcome.running.inj (hrunning.symm.trans hstep)
          exact hrest

end Stacks

end Parser

open SmallLang.Parser

namespace Language

/-- What the parser looks things up in for a row of tokens. -/
def setup (l : Language) (tokens : List Token) : Setup :=
  ⟨l.grammar, l.compiled.table, endPosition tokens⟩

variable {declared : List NodeType} {config : Config} {l : Language}

theorem sparse_of_assemble (hl : assemble declared config = .ok l) (tokens : List Token) :
    Stacks.Sparse (l.setup tokens) := by
  obtain ⟨-, -, htable⟩ := Compiled.ofGrammar_eq_ok (compiled_of_assemble hl)
  intro nt i hi
  rw [setup, (Grammar.parseTable_eq_ok htable).1]
  apply Grammar.get?_allCells_of_not
  rintro ⟨-, hcolumn⟩
  exact absurd hi (Nat.not_le.2 hcolumn)

/-- The machine of a language always comes to an end, with the result of the parser. -/
theorem ends_of_assemble (hl : assemble declared config = .ok l) (tokens : List Token) :
    Stacks.Ends (l.setup tokens) (Stacks.initial l.grammar tokens) (l.treeOfTokens tokens) := by
  obtain ⟨-, hrecursion, -⟩ := Compiled.ofGrammar_eq_ok (compiled_of_assemble hl)
  obtain ⟨rank, hrank⟩ := Grammar.exists_rank_of_checkLeftRecursion hrecursion
  apply Stacks.ends_parse (fits_of_assemble hl)
  intro s hs nt todo htodo hnt
  exact hs.depth_lt hrank htodo hnt

/-- What look-ups find while a row of tokens is parsed. Every token of the language, made by name or from a
text, is of a terminal of the language. For any row of tokens, the machine with look-ups that may find nothing
comes to what the parser returns, or it breaks, and then the parser returns an error about a foreign token. It
breaks if and only if the machine comes to a token of a terminal that the language does not have; so it never
does with tokens of the language. In a tree that is returned, the production of each node exists. -/
theorem comes_treeOfTokens (hbuilt : ∀ t ∈ declared, t.Built)
    (hl : assemble declared config = .ok l) :
    (∀ name text t, l.token name text = .ok t → t.terminal < l.arena.size) ∧
    (∀ text tokens, l.tokenize text = .ok tokens → ∀ t ∈ tokens, t.terminal < l.arena.size) ∧
    ∀ tokens,
      Stacks.Comes (l.setup tokens) (Stacks.initial l.grammar tokens)
        (Stacks.described (l.treeOfTokens tokens)) ∧
      (Stacks.described (l.treeOfTokens tokens) = none ↔
        ∃ c, Stacks.Reaches (l.setup tokens) (Stacks.initial l.grammar tokens) c ∧
          c.FacesForeign l.arena) ∧
      ((∀ t ∈ tokens, t.terminal < l.arena.size) →
        Stacks.described (l.treeOfTokens tokens) = some (l.treeOfTokens tokens)) ∧
      ∀ t, l.treeOfTokens tokens = .ok t → t.IsDerivation l.grammar := by
  refine ⟨fun _ _ _ => lt_size_of_token, fun _ _ => lt_size_of_tokenize hl, fun tokens => ?_⟩
  have hg := wellFormed_of_assemble hbuilt hl
  have hfits := fits_of_assemble hl
  have hends := ends_of_assemble hl tokens
  have hflat : Stacks.Flat l.grammar l.compiled.table l.grammar.start tokens
      (Stacks.initial l.grammar tokens) := .initial
  have hbreaks : Stacks.described (l.treeOfTokens tokens) = none ↔
      ∃ c, Stacks.Reaches (l.setup tokens) (Stacks.initial l.grammar tokens) c ∧
        c.FacesForeign l.arena := by
    constructor
    · exact hflat.exists_facesForeign (u := l.setup tokens) hg hfits hends
    · rintro ⟨c, hreaches, hfaces⟩
      have hc := Stacks.flat_of_reaches hfits hreaches
      exact Stacks.Flat.described_eq_none (u := l.setup tokens) hg hfits (sparse_of_assemble hl tokens)
        hc (hends.of_reaches hreaches) hfaces
  refine ⟨hflat.comes (u := l.setup tokens) hg hfits hends, hbreaks, fun hown => ?_, fun t ht => ?_⟩
  · apply Stacks.described_eq_some
    intro i position herror
    -- The machine would come to a foreign token, but what is not read is part of the row.
    obtain ⟨c, hreaches, t, rest, htokens, hforeign⟩ := hbreaks.1 (by rw [herror]; rfl)
    have hsuffix := Stacks.Flat.suffix (u := l.setup tokens) (Stacks.flat_of_reaches hfits hreaches)
    have hmem : t ∈ tokens := hsuffix.subset (htokens ▸ List.mem_cons_self)
    exact Nat.not_lt.2 hforeign (hown t hmem)
  · exact (derives_of_parse hfits ht).1.2

/-- A statement that is one of the given words. -/
def wordTypes (words : List String) : List NodeType :=
  [(words.foldl (fun t word => t.generates [.literal word] Prec.default) (NodeType.named "P")).start]

theorem wordTypes_built (words : List String) : ∀ t ∈ wordTypes words, t.Built := by
  intro t ht
  rw [List.mem_singleton.1 ht]
  apply NodeType.Built.start
  generalize hnone : NodeType.named "P" = none
  have hbuilt : none.Built := hnone ▸ NodeType.Built.named "P"
  clear hnone ht
  induction words generalizing none with
  | nil => exact hbuilt
  | cons word words ih => exact ih _ (hbuilt.generates _ _)

/-- A token for the word of that number. -/
def wordToken (i : Nat) (word : String) : Token := ⟨i, word, .token word, .outside⟩

set_option maxRecDepth 20000 in
theorem assemble_wordTypes : ∃ l, assemble (wordTypes ["x"]) .quiet = .ok l ∧
    l.arena = ⟨[.literal "x"]⟩ ∧
      (Stacks.step? (l.setup [wordToken 1 "y"]) (Stacks.initial l.grammar [wordToken 1 "y"])).isNone := by
  have hcheck : (assemble (wordTypes ["x"]) .quiet).toOption.any (fun l =>
      decide (l.arena = ⟨[.literal "x"]⟩) && (Stacks.step? (l.setup [wordToken 1 "y"])
        (Stacks.initial l.grammar [wordToken 1 "y"])).isNone) = true := by
    cbv
  obtain ⟨l, hl, hcheck⟩ := exists_of_any_assemble hcheck
  rw [Bool.and_eq_true, decide_eq_true_eq] at hcheck
  exact ⟨l, hl, hcheck⟩

/-- Two words in place of one do not break the machine. -/
theorem comes_treeOfTokens_wordTypes : ∃ l, assemble (wordTypes ["x"]) .quiet = .ok l ∧
    Stacks.Comes (l.setup [wordToken 0 "x", wordToken 0 "x"])
      (Stacks.initial l.grammar [wordToken 0 "x", wordToken 0 "x"])
      (some (l.treeOfTokens [wordToken 0 "x", wordToken 0 "x"])) := by
  obtain ⟨l, hl, harena, -⟩ := assemble_wordTypes
  obtain ⟨-, -, hrows⟩ := comes_treeOfTokens (wordTypes_built _) hl
  obtain ⟨hcomes, -, hown, -⟩ := hrows [wordToken 0 "x", wordToken 0 "x"]
  rw [hown] at hcomes
  · exact ⟨l, hl, hcomes⟩
  · rw [harena]
    decide

set_option maxRecDepth 20000 in
/-- A language of two words makes a token that a language of one word cannot describe, so the machine
breaks. -/
theorem exists_foreign_breaks : ∃ l l' t, assemble (wordTypes ["x"]) .quiet = .ok l ∧
    assemble (wordTypes ["x", "y"]) .quiet = .ok l' ∧ l'.token "y" "y" = .ok t ∧
      Stacks.Comes (l.setup [t]) (Stacks.initial l.grammar [t]) none := by
  have hcheck : (assemble (wordTypes ["x", "y"]) .quiet).toOption.any (fun l' =>
      (l'.token "y" "y").toOption == some (wordToken 1 "y")) = true := by
    cbv
  obtain ⟨l, hl, -, hbreaks⟩ := assemble_wordTypes
  obtain ⟨l', hl', hcheck⟩ := exists_of_any_assemble hcheck
  exact ⟨l, l', wordToken 1 "y", hl, hl', Except.eq_ok_of_beq hcheck,
    .broken (Option.isNone_iff_eq_none.1 hbreaks)⟩

end Language

end SmallLang
