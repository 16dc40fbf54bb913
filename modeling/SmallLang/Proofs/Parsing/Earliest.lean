import SmallLang.Proofs.Assembly.Extend
import SmallLang.Proofs.Language
import SmallLang.Proofs.Operator.Staged
import SmallLang.Proofs.Parsing.Placed
import SmallLang.Proofs.Parsing.Replay
import SmallLang.Proofs.Parsing.Unambiguous

/-!
# Errors at the earliest token

Where the table decides nothing by priority and every non-terminal that the start reaches derives
something, the parser never reads a token too many. What it has read is viable: the symbols still to
come on the path of open nodes derive something, which completes the tokens read to a sentence
(`Parser.Consistent.viable`). And the token at which it stops cannot come next: on any other input
with the same lookahead there it would stop as well, while sentences are accepted.

The parser stops for no other reason. More nodes than non-terminals at one place would be a path of
left corners that meets itself (`Parser.Placed.depth_lt`), which a grammar that was assembled does
not have.

`Grammar.ShownBy` says which errors show a row of tokens to be no sentence, and where;
`Language.shownBy_of_parseTokens` is the result.
-/

set_option autoImplicit false

namespace SmallLang

open SmallLang.Parser
open Parser.Setup (lookahead)

namespace Grammar

/-- Every non-terminal that the start reaches derives something. -/
def Productive (g : Grammar) : Prop :=
  ∀ nt ∈ g.reachable, ∃ t, g.Derives (.nonTerminal nt) t

/-- The error tells of the first token with which the tokens before it are not the beginning of a
sentence, or of the end of the tokens if these are the beginning of longer sentences only. -/
inductive ShownBy (g : Grammar) (tokens : List Token) : ParseError → Prop
  | unexpectedToken {before after : List Token} {t : Token} {found : String} (typeName : String)
      (htokens : tokens = before ++ t :: after) (hfound : t.describe? g.arena = some found)
      (hbefore : g.Viable before) (ht : ¬ g.Viable (before ++ [t])) :
      ShownBy g tokens (.unexpectedToken typeName found t.position)
  | mismatch {before after : List Token} {t : Token} {found : String} (expected : String)
      (htokens : tokens = before ++ t :: after) (hfound : t.describe? g.arena = some found)
      (hbefore : g.Viable before) (ht : ¬ g.Viable (before ++ [t])) :
      ShownBy g tokens (.mismatch expected found t.position)
  | unconsumedInput {before after : List Token} {t : Token} {found : String}
      (htokens : tokens = before ++ t :: after) (hfound : t.describe? g.arena = some found)
      (hbefore : g.Sentence before) (ht : ¬ g.Viable (before ++ [t])) :
      ShownBy g tokens (.unconsumedInput found t.position)
  | unexpectedEnd {rest : List Token} (expected : String) (hrest : rest ≠ [])
      (hviable : g.Sentence (tokens ++ rest)) (htokens : ¬ g.Sentence tokens) :
      ShownBy g tokens (.unexpectedEnd expected (endPosition tokens))

end Grammar

namespace Parser

open Grammar

variable {g : Grammar} {table : ParseTable} {endsAt : Position} {start : Nat}
  {input ts : List Token} {u : Setup}

/-! ## Symbols still to come -/

/-- Where each symbol of a row derives something, the row does. -/
theorem exists_derivesRow {ss : List Symbol} (h : ∀ s ∈ ss, ∃ t, g.Derives s t) :
    ∃ ts, g.DerivesRow ss ts := by
  induction ss with
  | nil => exact ⟨[], .nil⟩
  | cons s ss ih =>
      obtain ⟨hhead, htail⟩ := List.forall_mem_cons.1 h
      obtain ⟨t, ht⟩ := hhead
      obtain ⟨ts, hts⟩ := ih htail
      exact ⟨t :: ts, .cons ht hts⟩

/-- A node completed with trees of its symbols still to come. -/
theorem Open.Consistent.exists_tree {o : Open} {pending : List Symbol} (h : o.Consistent g pending)
    {ts : List ParseTree} (hts : g.DerivesRow pending ts) :
    ∃ t, g.Derives (.nonTerminal o.nonTerminal) t ∧
      t.tokens = o.children.reverse.flatMap ParseTree.tokens ++ ts.flatMap ParseTree.tokens := by
  obtain ⟨production, done, hp, hsymbols, hdone⟩ := h
  refine ⟨.node o.nonTerminal o.production (o.children.reverse ++ ts), ?_, ?_⟩
  · apply Derives.node hp
    rw [hsymbols]
    exact List.rel_append hdone hts
  · rw [ParseTree.tokens_node, List.flatMap_append]

/-- Where the symbols still to come on a path derive something, a tree for the innermost node extends
to one for the outermost node. -/
theorem exists_tree_of_path {nt : Nat} {os : List Open} (hpath : PathConsistent g nt os)
    (hpending : ∀ o ∈ os, ∀ s ∈ o.todo, ∃ t, g.Derives s t) {t : ParseTree}
    (ht : g.Derives (.nonTerminal nt) t) :
    ∃ t' rest, g.Derives (.nonTerminal (outermost nt os)) t' ∧
      t'.tokens = pathTokens os ++ t.tokens ++ rest := by
  induction os generalizing nt t with
  | nil =>
      refine ⟨t, [], ht, ?_⟩
      rw [pathTokens, List.nil_append, List.append_nil]
  | cons o os ih =>
      obtain ⟨ho, hos⟩ := hpath
      obtain ⟨hhead, htail⟩ := List.forall_mem_cons.1 hpending
      obtain ⟨ts, hts⟩ := exists_derivesRow hhead
      obtain ⟨t₁, ht₁, htokens₁⟩ := ho.exists_tree (.cons ht hts)
      obtain ⟨t', rest, ht', htokens'⟩ := ih hos htail ht₁
      refine ⟨t', ts.flatMap ParseTree.tokens ++ rest, ht', ?_⟩
      rw [htokens', htokens₁, pathTokens]
      simp only [List.flatMap_cons, List.append_assoc]

/-- All nodes of a path are of non-terminals that the start reaches. -/
theorem reachable_of_path (hg : g.WellFormed) {nt : Nat} {os : List Open}
    (hpath : PathConsistent g nt os) (hstart : outermost nt os ∈ g.reachable) :
    nt ∈ g.reachable ∧ ∀ o ∈ os, o.nonTerminal ∈ g.reachable := by
  induction os generalizing nt with
  | nil => exact ⟨hstart, fun o ho => absurd ho List.not_mem_nil⟩
  | cons o os ih =>
      obtain ⟨⟨production, done, hp, hsymbols, -⟩, hos⟩ := hpath
      obtain ⟨ho, hall⟩ := ih hos hstart
      have hmem : .nonTerminal nt ∈ production.symbols := by simp [hsymbols]
      refine ⟨?_, List.forall_mem_cons.2 ⟨ho, hall⟩⟩
      exact mem_reachable_of_symbol ho (List.mem_of_getElem? hp) hmem (hg.hasSymbol hp hmem)

/-- The symbols still to come in a node of a reachable non-terminal derive something. -/
theorem Open.Consistent.exists_derives (hg : g.WellFormed) (hproductive : g.Productive) {o : Open}
    {pending : List Symbol} (h : o.Consistent g pending) (ho : o.nonTerminal ∈ g.reachable) :
    ∀ s ∈ pending, ∃ t, g.Derives s t := by
  intro s hs
  obtain ⟨production, done, hp, hsymbols, -⟩ := h
  have hmem : s ∈ production.symbols := by
    rw [hsymbols]
    exact List.mem_append_right _ hs
  cases s with
  | terminal i => exact ⟨.token ⟨i, "", .token "", .outside⟩, Derives.token _⟩
  | nonTerminal i =>
      apply hproductive
      exact mem_reachable_of_symbol ho (List.mem_of_getElem? hp) hmem (hg.hasSymbol hp hmem)

/-- The tokens that a run has read are the beginning of a sentence. -/
theorem Consistent.viable (hg : g.WellFormed) (hproductive : g.Productive) {s : State}
    (hs : Consistent g g.start input s) : g.Viable (pathTokens (s.top :: s.below)) := by
  have hstart : Parser.outermost s.top.nonTerminal s.below ∈ g.reachable := by
    rw [hs.outermost]
    exact start_mem_reachable hg.1
  obtain ⟨htop, hbelow⟩ := reachable_of_path hg hs.below hstart
  obtain ⟨ts, hts⟩ := exists_derivesRow (hs.top.exists_derives hg hproductive htop)
  obtain ⟨t, ht, htokens⟩ := hs.top.exists_tree hts
  -- A node below waits for one more symbol than those that come after it.
  have hpending : ∀ o ∈ s.below, ∀ x ∈ o.todo, ∃ t, g.Derives x t := by
    have hpath := hs.below
    generalize s.top.nonTerminal = nt at hpath
    generalize s.below = os at hpath hbelow
    induction os generalizing nt with
    | nil => exact fun o ho => absurd ho List.not_mem_nil
    | cons o os ih =>
        obtain ⟨hhead, htail⟩ := List.forall_mem_cons.1 hbelow
        refine List.forall_mem_cons.2 ⟨?_, ih _ hpath.2 htail⟩
        intro x hx
        exact hpath.1.exists_derives hg hproductive hhead x (List.mem_cons_of_mem _ hx)
  obtain ⟨t', rest, ht', htokens'⟩ := exists_tree_of_path hs.below hpending ht
  rw [hs.outermost] at ht'
  refine ⟨ts.flatMap ParseTree.tokens ++ rest, t', ht', ?_⟩
  rw [htokens', htokens, pathTokens]
  simp only [List.append_assoc]

/-! ## Why the parser stops -/

/-- The error says that the next token does not fit, or that there is none. -/
inductive Setup.Refuses (u : Setup) : List Token → ParseError → Prop
  | unexpectedEnd (expected : String) : Refuses u [] (.unexpectedEnd expected u.endsAt)
  | unexpectedToken (typeName : String) (t : Token) (after : List Token) :
      Refuses u (t :: after)
        (u.about t fun found => .unexpectedToken typeName found t.position)
  | mismatch (expected : String) (t : Token) (after : List Token) :
      Refuses u (t :: after) (u.about t fun found => .mismatch expected found t.position)

theorem refuses_of_expand {nt position depth : Nat} {tokens : List Token} {e : ParseError}
    (h : u.expand nt tokens position depth = .error e) (hdepth : depth < u.grammar.size) :
    u.Refuses tokens e := by
  unfold Setup.expand at h
  split at h
  · obtain rfl := Except.error.inj h
    cases tokens with
    | nil => exact .unexpectedEnd _
    | cons t after => exact .unexpectedToken _ t after
  · split at h
    · simp at h
    · rename_i hmany
      exact absurd hdepth hmany

theorem refuses_of_shift {terminal : Nat} {tokens : List Token} {e : ParseError}
    (h : u.shift terminal tokens = .error e) : u.Refuses tokens e := by
  unfold Setup.shift at h
  split at h
  · obtain rfl := Except.error.inj h
    exact .unexpectedEnd _
  · split at h
    · simp at h
    · obtain rfl := Except.error.inj h
      exact .mismatch _ _ _

/-- A step fails at the tokens not read. -/
theorem refuses_of_step {s : State} {e : ParseError} (h : Parser.step u s = .failed e)
    (hdepth : ∀ nt todo, s.top.todo = .nonTerminal nt :: todo →
      s.top.depthAt s.position < u.grammar.size) : u.Refuses s.tokens e := by
  unfold Parser.step at h
  split at h
  · split at h <;> simp at h
  · split at h
    · rename_i hshift
      obtain rfl := Outcome.failed.inj h
      exact refuses_of_shift hshift
    · simp at h
  · rename_i htodo
    split at h
    · rename_i hexpand
      obtain rfl := Outcome.failed.inj h
      exact refuses_of_expand hexpand (hdepth _ _ htodo)
    · simp at h

/-- Tokens of the grammar have a description. -/
theorem exists_about (u : Setup) {t : Token} (ht : t.terminal < u.grammar.arena.size) :
    ∃ found, t.describe? u.grammar.arena = some found ∧ ∀ e, u.about t e = e found := by
  obtain ⟨terminal, hget⟩ : ∃ terminal, u.grammar.arena.get? t.terminal = some terminal :=
    ⟨_, List.getElem?_eq_getElem ht⟩
  cases hfound : t.describe? u.grammar.arena with
  | none => simp [Token.describe?, hget] at hfound
  | some found =>
      refine ⟨found, rfl, fun e => ?_⟩
      rw [Setup.about, hfound]

/-- A refusal shows a row of tokens to be no sentence, where the tokens before it are viable and no
sentence goes on from them with the same lookahead. -/
theorem Setup.Refuses.shownBy {tokens before rest : List Token} {e : ParseError}
    (h : Setup.Refuses ⟨g, table, endPosition tokens⟩ rest e) (htokens : before ++ rest = tokens)
    (hterminals : ∀ t ∈ tokens, t.terminal < g.arena.size) (hbefore : g.Viable before)
    (hnot : ∀ ts, lookahead rest = lookahead ts → ¬ g.Sentence (before ++ ts)) :
    g.ShownBy tokens e := by
  have hnext : ∀ {t : Token} {after : List Token}, rest = t :: after →
      t.terminal < g.arena.size ∧ ¬ g.Viable (before ++ [t]) := by
    intro t after hrest
    refine ⟨?_, ?_⟩
    · apply hterminals
      rw [← htokens, hrest]
      exact List.mem_append_right _ List.mem_cons_self
    · rintro ⟨more, hmore⟩
      rw [List.append_assoc] at hmore
      exact hnot (t :: more) (by rw [hrest]; rfl) hmore
  cases h with
  | unexpectedEnd expected =>
      rw [List.append_nil] at htokens
      obtain ⟨rest, hrest⟩ := hbefore
      have hlonger : ¬ g.Sentence before := by
        have hends := hnot [] rfl
        rwa [List.append_nil] at hends
      refine Grammar.ShownBy.unexpectedEnd expected ?_ (htokens ▸ hrest) (htokens ▸ hlonger)
      rintro rfl
      rw [List.append_nil] at hrest
      exact hlonger hrest
  | unexpectedToken typeName t after =>
      obtain ⟨hterminal, hbad⟩ := hnext rfl
      obtain ⟨found, hfound, habout⟩ := exists_about ⟨g, table, endPosition tokens⟩ hterminal
      rw [habout]
      exact .unexpectedToken typeName htokens.symm hfound hbefore hbad
  | mismatch expected t after =>
      obtain ⟨hterminal, hbad⟩ := hnext rfl
      obtain ⟨found, hfound, habout⟩ := exists_about ⟨g, table, endPosition tokens⟩ hterminal
      rw [habout]
      exact .mismatch expected htokens.symm hfound hbefore hbad

/-! ## Runs -/

theorem exists_run_of_parse {tokens : List Token} {t : ParseTree}
    (h : parse g table tokens = .ok t) :
    ∃ top, Setup.expand ⟨g, table, endPosition tokens⟩ g.start tokens 0 0 = .ok top ∧
      run ⟨g, table, endPosition tokens⟩ ⟨top, [], tokens, 0⟩ = .ok (t, []) := by
  unfold parse at h
  simp only at h
  split at h
  · simp at h
  · rename_i top hexpand
    split at h
    · simp at h
    · rename_i tree hrun
      obtain rfl := Except.ok.inj h
      exact ⟨top, hexpand, hrun⟩
    · simp at h

/-- Where the run for some tokens comes to a state, the run for other tokens that are accepted comes
to the same path, as long as they begin like those read and go on with the same lookahead. -/
theorem exists_run_of_leads {tokens : List Token} {top : Open} {s : State}
    (hexpand : Setup.expand ⟨g, table, endPosition tokens⟩ g.start tokens 0 0 = .ok top)
    (hleads : Leads ⟨g, table, endPosition tokens⟩ ⟨top, [], tokens, 0⟩ s)
    (hlookahead : lookahead s.tokens = lookahead ts) {before : List Token}
    (hbefore : before ++ s.tokens = tokens) {t : ParseTree}
    (ht : parse g table (before ++ ts) = .ok t) :
    run ⟨g, table, endPosition (before ++ ts)⟩ (s.withTokens ts) = .ok (t, []) := by
  obtain ⟨top', hexpand', hrun⟩ := exists_run_of_parse ht
  obtain ⟨read, hread, hleads'⟩ :=
    exists_read_of_leads (endPosition (before ++ ts)) hleads hlookahead
  obtain rfl : before = read := List.append_cancel_right (hbefore.trans hread)
  have hfirst : lookahead tokens = lookahead (before ++ ts) := by
    rw [← hbefore]
    cases before with
    | nil => exact hlookahead
    | cons t before => rfl
  obtain rfl : top = top' := by
    have hsame := expand_congr (endPosition (before ++ ts)) hexpand hfirst
    exact Except.ok.inj (hsame.symm.trans hexpand')
  exact (run_eq_of_leads hleads').symm.trans hrun

section Shown

variable {tokens : List Token} {top : Open} {s : State} {e : ParseError} (hg : g.WellFormed)
  (hundecided : g.Undecided g.firstTable (g.followTable g.firstTable) table)
  (hterminals : ∀ t ∈ tokens, t.terminal < g.arena.size)
include hg hundecided hterminals

/-- Not even the start can be opened. -/
theorem shownBy_of_expand (hproductive : g.Productive)
    (h : Setup.expand ⟨g, table, endPosition tokens⟩ g.start tokens 0 0 = .error e) :
    g.ShownBy tokens e := by
  have hrefuses : Setup.Refuses ⟨g, table, endPosition tokens⟩ tokens e :=
    refuses_of_expand h (Nat.lt_of_le_of_lt (Nat.zero_le _) hg.1)
  have hbefore : g.Viable [] := by
    obtain ⟨t, ht⟩ := hproductive _ (start_mem_reachable hg.1)
    exact ⟨t.tokens, t, ht, rfl⟩
  refine hrefuses.shownBy (List.nil_append tokens) hterminals hbefore ?_
  intro ts hlookahead hsentence
  obtain ⟨t, ht⟩ := (hundecided.sentence_iff hg).1 hsentence
  obtain ⟨top, htop, -⟩ := exists_run_of_parse ht
  obtain ⟨e', he'⟩ := exists_expand_error (endPosition ts) h hlookahead
  exact absurd (he'.symm.trans htop) (by simp)

/-- The run comes to a state where a step fails. -/
theorem shownBy_of_failed (hproductive : g.Productive)
    (hexpand : Setup.expand ⟨g, table, endPosition tokens⟩ g.start tokens 0 0 = .ok top)
    (hleads : Leads ⟨g, table, endPosition tokens⟩ ⟨top, [], tokens, 0⟩ s)
    (hs : Consistent g g.start tokens s)
    (hdepth : ∀ nt todo, s.top.todo = .nonTerminal nt :: todo → s.top.depthAt s.position < g.size)
    (h : step ⟨g, table, endPosition tokens⟩ s = .failed e) : g.ShownBy tokens e := by
  refine (refuses_of_step h hdepth).shownBy hs.read hterminals (hs.viable hg hproductive) ?_
  intro ts hlookahead hsentence
  obtain ⟨t, ht⟩ := (hundecided.sentence_iff hg).1 hsentence
  have hrun := exists_run_of_leads hexpand hleads hlookahead hs.read ht
  obtain ⟨e', he'⟩ :=
    exists_failed_of_step (endPosition (pathTokens (s.top :: s.below) ++ ts)) h hlookahead
  rw [run_eq_of_failed he'] at hrun
  simp at hrun

/-- The run completes a tree, and a token is left. -/
theorem shownBy_of_finished {tree : ParseTree} {t : Token} {after : List Token}
    (hexpand : Setup.expand ⟨g, table, endPosition tokens⟩ g.start tokens 0 0 = .ok top)
    (hleads : Leads ⟨g, table, endPosition tokens⟩ ⟨top, [], tokens, 0⟩ s)
    (hs : Consistent g g.start tokens s)
    (h : step ⟨g, table, endPosition tokens⟩ s = .finished tree (t :: after)) :
    g.ShownBy tokens (Setup.about ⟨g, table, endPosition tokens⟩ t fun found =>
      .unconsumedInput found t.position) := by
  obtain ⟨hderives, htokens⟩ := hs.derives_of_finished h
  have hterminal : t.terminal < g.arena.size := by
    apply hterminals
    rw [← htokens]
    exact List.mem_append_right _ List.mem_cons_self
  obtain ⟨found, hfound, habout⟩ := exists_about ⟨g, table, endPosition tokens⟩ hterminal
  rw [habout]
  refine .unconsumedInput htokens.symm hfound ⟨tree, hderives, rfl⟩ ?_
  rintro ⟨more, hmore⟩
  rw [List.append_assoc] at hmore
  obtain ⟨t', ht'⟩ := (hundecided.sentence_iff hg).1 hmore
  -- The same tree is completed whatever comes after the token.
  obtain ⟨hrest, hfinished⟩ :=
    finished_of_step (endPosition (tree.tokens ++ ([t] ++ more))) h ([t] ++ more)
  have hbefore : tree.tokens ++ s.tokens = tokens := by
    rw [← hrest]
    exact htokens
  have hlookahead : lookahead s.tokens = lookahead ([t] ++ more) := by
    rw [← hrest]
    rfl
  have hrun := exists_run_of_leads hexpand hleads hlookahead hbefore ht'
  rw [run_eq_of_finished hfinished] at hrun
  simp at hrun

end Shown

/-- The parser refuses a row of tokens with an error that shows it to be no sentence. -/
theorem shownBy_of_parse (hg : g.WellFormed)
    (hrecursion : g.checkLeftRecursion g.firstTable = .ok ())
    (hundecided : g.Undecided g.firstTable (g.followTable g.firstTable) table)
    (hproductive : g.Productive) {tokens : List Token}
    (hterminals : ∀ t ∈ tokens, t.terminal < g.arena.size) {e : ParseError}
    (h : parse g table tokens = .error e) : g.ShownBy tokens e := by
  have hfits : table.Fits g := hundecided.table ▸ fits_allCells g _ _
  obtain ⟨rank, hrank⟩ := exists_rank_of_checkLeftRecursion hrecursion
  unfold parse at h
  simp only at h
  split at h
  · rename_i hexpand
    obtain rfl := Except.error.inj h
    exact shownBy_of_expand hg hundecided hterminals hproductive hexpand
  · rename_i top hexpand
    have hplaced := placed_of_expand (u := ⟨g, table, endPosition tokens⟩) hfits hexpand
    split at h
    · rename_i hrun
      obtain rfl := Except.error.inj h
      obtain ⟨s, hleads, hfailed⟩ := exists_leads_of_run_error hrun
      have hs := hplaced.of_leads hfits hleads
      refine shownBy_of_failed hg hundecided hterminals hproductive hexpand hleads hs.consistent ?_
        hfailed
      intro nt todo htodo
      exact hs.depth_lt hrank htodo (hs.consistent.hasSymbol hg.symbolsExist htodo)
    · simp at h
    · rename_i tree t after hrun
      obtain rfl := Except.error.inj h
      obtain ⟨s, hleads, hfinished⟩ := exists_leads_of_run_ok hrun
      have hs := hplaced.of_leads hfits hleads
      exact shownBy_of_finished hg hundecided hterminals hexpand hleads hs.consistent hfinished

end Parser

namespace Language

variable {declared : List NodeType} {config : Config} {l : Language}

/-- The grammar of an assembled language refers to nothing that it does not have. -/
theorem wellFormed_of_assemble (hbuilt : ∀ t ∈ declared, t.Built)
    (h : assemble declared config = .ok l) : l.grammar.WellFormed := by
  obtain ⟨lowered, hlower, -, -, hcompiled⟩ := assemble_eq_ok h
  obtain ⟨ns, hmakes⟩ := lower_eq_ok hlower
  have hmem := Upgrades.mem_of_settle hmakes.ofTypes hmakes.settle
  have hstaged := Grammar.staged_of_lowered hmakes fun t ht => hbuilt t (hmem t ht)
  rw [grammar, (Compiled.ofGrammar_eq_ok hcompiled).1]
  exact hstaged.wellFormed_stratify hmakes.wellFormed.1

/-- An assembled language whose table decides nothing by priority, and where every non-terminal that
the start reaches derives something, refuses a row of its tokens with an error that shows the row to be
no sentence at the earliest token possible. -/
theorem shownBy_of_parseTokens (hbuilt : ∀ t ∈ declared, t.Built)
    (h : assemble declared config = .ok l) (hresolutions : l.compiled.table.resolutions = [])
    (hproductive : l.grammar.Productive) {tokens : List Token}
    (hterminals : ∀ t ∈ tokens, t.terminal < l.arena.size) {e : ParseError}
    (hparse : l.parseTokens tokens = .error e) : l.grammar.ShownBy tokens e := by
  have hg := wellFormed_of_assemble hbuilt h
  obtain ⟨lowered, -, -, -, hcompiled⟩ := assemble_eq_ok h
  obtain ⟨hgrammar, hrecursion, htable⟩ := Compiled.ofGrammar_eq_ok hcompiled
  rw [← hgrammar] at hrecursion htable
  have hundecided := Grammar.undecided_of_resolutions htable hresolutions
  apply Parser.shownBy_of_parse hg hrecursion hundecided hproductive hterminals
  rw [parseTokens, treeOfTokens] at hparse
  cases htree : Parser.parse l.grammar l.compiled.table tokens with
  | error e' =>
      rw [htree] at hparse
      obtain rfl : e' = e := Except.error.inj hparse
      rfl
  | ok t => simp [htree, Except.map] at hparse

/-- Two rows in brackets of different kinds. -/
def pairTypes : List NodeType :=
  let row (name : String) : Sym := .field name (.node "Row") none
  [((NodeType.named "Pair").generates [.literal "(", row "first", .literal ")", .literal "[",
      row "second", .literal "]"] .default).start,
    (NodeType.named "Row").makeList (.literal "x") "," true]

/-- A token for a literal of the pairs, by number. -/
def pairToken (terminal : Nat) (text : String) : Token :=
  ⟨terminal, text, .token text, .outside⟩

/-- A derivation tree for each non-terminal of the pairs. -/
def pairTree : Nat → ParseTree
  | 0 =>
      .node 0 0 [.token (pairToken 0 "("), .node 1 0 [], .token (pairToken 1 ")"),
        .token (pairToken 2 "["), .node 1 0 [], .token (pairToken 3 "]")]
  | 1 => .node 1 0 []
  | _ => .node 2 1 []

/-- The tokens `( x ]`. The rest of the row is empty before the bracket, since some row ends there. -/
def brokenPair : List Token := [pairToken 0 "(", pairToken 4 "x", pairToken 3 "]"]

set_option maxRecDepth 4000 in
theorem shownBy_of_parseTokens_of_pairTypes :
    ∃ l e, assemble pairTypes .quiet = .ok l ∧ l.compiled.table.resolutions = [] ∧
      l.grammar.Productive ∧ l.parseTokens brokenPair = .error e ∧
      e = .mismatch "\")\"" "\"]\"" .outside ∧ l.grammar.ShownBy brokenPair e := by
  have hcheck : (assemble pairTypes .quiet).toOption.any (fun l =>
      l.compiled.table.resolutions.isEmpty &&
        l.grammar.reachable.all (fun nt =>
          decide (l.grammar.Derives (.nonTerminal nt) (pairTree nt))) &&
        brokenPair.all (fun t => decide (t.terminal < l.arena.size)) &&
        match l.parseTokens brokenPair with
        | .ok _ => false
        | .error e => decide (e = .mismatch "\")\"" "\"]\"" .outside)) = true := by
    cbv
  have hbuilt : ∀ t ∈ pairTypes, t.Built := by
    intro t ht
    simp only [pairTypes, List.mem_cons, List.not_mem_nil, or_false] at ht
    rcases ht with rfl | rfl
    · exact ((NodeType.Built.named _).generates _ _).start
    · exact (NodeType.Built.named _).makeList _ _ _
  obtain ⟨l, hl, hcheck⟩ := exists_of_any_assemble hcheck
  simp only [Bool.and_eq_true, List.isEmpty_iff, List.all_eq_true, decide_eq_true_eq] at hcheck
  obtain ⟨⟨⟨hresolutions, htrees⟩, hterminals⟩, herror⟩ := hcheck
  have hproductive : l.grammar.Productive := fun nt hnt => ⟨pairTree nt, htrees nt hnt⟩
  cases hparse : l.parseTokens brokenPair with
  | ok v => simp [hparse] at herror
  | error e =>
      simp only [hparse, decide_eq_true_eq] at herror
      exact ⟨l, e, hl, hresolutions, hproductive, hparse, herror,
        shownBy_of_parseTokens hbuilt hl hresolutions hproductive hterminals hparse⟩

end Language

end SmallLang
