import Mathlib.Data.List.Basic
import Mathlib.Data.Finset.Card
import Mathlib.Logic.Relation
import SmallLang.Proofs.Parsing.Soundness

/-!
# Trees that a table leads to

A derivation tree is guided by a table if each of its nodes is over the production that the table
gives for the tokens from the start of the node on. `ParseTree.Guided table t rest` says this of a
tree `t` with the tokens `rest` after it.

A table leads to one tree at most (`ParseTree.Guided.unique`): where two guided trees of one symbol
begin at the same tokens, they are equal. So no guided tree has a node of a non-terminal right inside
another one of the same non-terminal, with no token before it, and the parser never reports an
endless expansion on its way through a guided tree. It returns exactly that tree
(`Parser.parse_eq_ok_of_guided`), and what it returns is guided (`Parser.parse_eq_ok_iff_guided`).
-/

set_option autoImplicit false

namespace SmallLang

open List (Forall₂)
open Grammar
open Parser.Setup (lookahead)

namespace ParseTree

variable {g : Grammar} {table : ParseTable}

mutual

/-- Every node of the tree is over the production that the table gives for the tokens from the start
of the node on, where `rest` comes after the tree. -/
def Guided (table : ParseTable) : ParseTree → List Token → Prop
  | token _, _ => True
  | node nt p children, rest =>
      table.get? nt (lookahead (tokensAll children ++ rest)) = some p ∧
        GuidedAll table children rest

/-- The trees of a row are guided, where `rest` comes after the last one. -/
def GuidedAll (table : ParseTable) : List ParseTree → List Token → Prop
  | [], _ => True
  | t :: ts, rest => Guided table t (tokensAll ts ++ rest) ∧ GuidedAll table ts rest

end

theorem guided_node_iff {nt p : Nat} {children : List ParseTree} {rest : List Token} :
    Guided table (node nt p children) rest ↔
      table.get? nt (lookahead (children.flatMap tokens ++ rest)) = some p ∧
        GuidedAll table children rest := by
  rw [Guided, tokensAll_eq_flatMap]

theorem guidedAll_cons_iff {t : ParseTree} {ts : List ParseTree} {rest : List Token} :
    GuidedAll table (t :: ts) rest ↔
      Guided table t (ts.flatMap tokens ++ rest) ∧ GuidedAll table ts rest := by
  rw [GuidedAll, tokensAll_eq_flatMap]

theorem guidedAll_append_iff {ts ts' : List ParseTree} {rest : List Token} :
    GuidedAll table (ts ++ ts') rest ↔
      GuidedAll table ts (ts'.flatMap tokens ++ rest) ∧ GuidedAll table ts' rest := by
  induction ts with
  | nil => simp [GuidedAll]
  | cons t ts ih =>
      rw [List.cons_append, guidedAll_cons_iff, guidedAll_cons_iff, ih, List.flatMap_append,
        List.append_assoc, and_assoc]

/-! ## A table leads to one tree -/

/-- Any guided tree of the symbol that begins where `t` does is `t`. -/
def OnlyGuided (g : Grammar) (table : ParseTable) (s : Symbol) (t : ParseTree) : Prop :=
  ∀ t' rest rest', g.Derives s t' → Guided table t rest → Guided table t' rest' →
    t.tokens ++ rest = t'.tokens ++ rest' → t = t' ∧ rest = rest'

theorem GuidedAll.unique {ss : List Symbol} {ts ts' : List ParseTree} {rest rest' : List Token}
    (h : Forall₂ (OnlyGuided g table) ss ts) (h' : g.DerivesRow ss ts')
    (ht : GuidedAll table ts rest) (ht' : GuidedAll table ts' rest')
    (heq : ts.flatMap tokens ++ rest = ts'.flatMap tokens ++ rest') : ts = ts' ∧ rest = rest' := by
  induction h generalizing ts' with
  | nil =>
      cases h'
      exact ⟨rfl, by simpa using heq⟩
  | @cons s t ss ts hone _ ih =>
      cases h' with
      | @cons _ t' _ ts' hs hss =>
          rw [guidedAll_cons_iff] at ht ht'
          simp only [List.flatMap_cons, List.append_assoc] at heq
          obtain ⟨rfl, htail⟩ := hone t' _ _ hs ht.1 ht'.1 heq
          obtain ⟨rfl, hrest⟩ := ih hss ht.2 ht'.2 htail
          exact ⟨rfl, hrest⟩

/-- Two guided trees of one symbol that begin at the same tokens are equal, and so are the tokens
after them. -/
theorem Guided.unique {s : Symbol} {t t' : ParseTree} {rest rest' : List Token}
    (h : g.Derives s t) (h' : g.Derives s t') (ht : Guided table t rest)
    (ht' : Guided table t' rest') (heq : t.tokens ++ rest = t'.tokens ++ rest') :
    t = t' ∧ rest = rest' := by
  suffices honly : OnlyGuided g table s t from honly t' rest rest' h' ht ht' heq
  clear h' ht ht' heq
  induction h using Derives.rec_on with
  | token token =>
      intro t' rest rest' h' _ _ heq
      obtain ⟨token', rfl, -⟩ := derives_terminal_iff.1 h'
      simp only [tokens_token, List.cons_append, List.nil_append, List.cons.injEq] at heq
      exact ⟨by rw [heq.1], heq.2⟩
  | node nt p production children hp hc ih =>
      intro t' rest rest' h' ht ht' heq
      obtain ⟨p', production', children', rfl, hp', hc'⟩ := derives_nonTerminal_iff.1 h'
      rw [guided_node_iff] at ht ht'
      rw [tokens_node, tokens_node] at heq
      -- Both nodes begin at the same tokens, so they are over the same production.
      obtain rfl : p = p' := Option.some.inj ((heq ▸ ht.1).symm.trans ht'.1)
      obtain rfl : production = production' := Option.some.inj (hp.symm.trans hp')
      have hones : Forall₂ (OnlyGuided g table) production.symbols children :=
        ih.imp fun _ _ hone => hone.choose_spec
      obtain ⟨rfl, hrest⟩ := GuidedAll.unique hones hc' ht.2 ht'.2 heq
      exact ⟨rfl, hrest⟩

end ParseTree

namespace Parser

open ParseTree

variable {g : Grammar} {u : Setup}

/-! ## Runs -/

/-- A run goes on from one state to another one. -/
abbrev Leads (u : Setup) : State → State → Prop :=
  Relation.ReflTransGen fun s s' => step u s = .running s'

theorem run_eq_of_step {s s' : State} (h : step u s = .running s') : run u s = run u s' := by
  rw [run]
  split
  · rename_i hstep
    rw [h] at hstep
    exact Outcome.noConfusion hstep
  · rename_i hstep
    rw [h] at hstep
    exact Outcome.noConfusion hstep
  · rename_i s'' hstep
    rw [h] at hstep
    rw [Outcome.running.inj hstep]

theorem run_eq_of_leads {s s' : State} (h : Leads u s s') : run u s = run u s' := by
  induction h with
  | refl => rfl
  | tail _ hstep ih => rw [ih, run_eq_of_step hstep]

theorem run_eq_of_finished {s : State} {tree : ParseTree} {rest : List Token}
    (h : step u s = .finished tree rest) : run u s = .ok (tree, rest) := by
  rw [run]
  split
  · rename_i hstep
    rw [h] at hstep
    exact Outcome.noConfusion hstep
  · rename_i hstep
    rw [h] at hstep
    obtain ⟨rfl, rfl⟩ := Outcome.finished.inj hstep
    rfl
  · rename_i hstep
    rw [h] at hstep
    exact Outcome.noConfusion hstep

/-! ## Nodes at one place -/

/-- The non-terminals `nts` are those of different nodes around the trees `ts`, which come next, and
no token stands between the starts of these nodes and the trees. -/
structure Enclosed (g : Grammar) (table : ParseTable) (nts : List Nat) (ts : List ParseTree)
    (rest : List Token) : Prop where
  nodup : nts.Nodup
  outer : ∀ nt ∈ nts, ∃ t after, g.Derives (.nonTerminal nt) t ∧ Guided table t after ∧
    t.tokens ++ after = ts.flatMap tokens ++ rest ∧ ∀ c ∈ ts, sizeOf c < sizeOf t

theorem enclosed_nil (g : Grammar) (table : ParseTable) (ts : List ParseTree) (rest : List Token) :
    Enclosed g table [] ts rest :=
  ⟨List.nodup_nil, fun _ hnt => absurd hnt List.not_mem_nil⟩

theorem Enclosed.lt_size {table : ParseTable} {nts : List Nat} {ts : List ParseTree}
    {rest : List Token} (h : Enclosed g table nts ts rest) {nt : Nat} (hnt : nt ∈ nts) :
    nt < g.size := by
  obtain ⟨t, _, ht, -⟩ := h.outer nt hnt
  exact lt_size_of_derives ht

/-- A guided tree is not inside one of the same non-terminal that begins at the same place. -/
theorem Enclosed.not_mem {table : ParseTable} {nts : List Nat} {nt : Nat} {t : ParseTree}
    {rest : List Token} (h : Enclosed g table nts [t] rest) (ht : g.Derives (.nonTerminal nt) t)
    (hguided : Guided table t rest) : nt ∉ nts := by
  intro hnt
  obtain ⟨t', after, ht', hguided', htokens, hsize⟩ := h.outer nt hnt
  rw [List.flatMap_singleton] at htokens
  obtain ⟨rfl, -⟩ := hguided'.unique ht' ht hguided htokens
  exact Nat.lt_irrefl _ (hsize t' List.mem_cons_self)

/-- Different numbers below a bound are no more than the bound. -/
theorem length_le_of_nodup {n : Nat} {xs : List Nat} (hnodup : xs.Nodup) (h : ∀ x ∈ xs, x < n) :
    xs.length ≤ n := by
  have hsub : xs ⊆ List.range n := fun x hx => List.mem_range.2 (h x hx)
  have hlength := (List.subperm_of_subset hnodup hsub).length_le
  rwa [List.length_range] at hlength

/-- Fewer nodes than non-terminals begin where a guided tree begins. -/
theorem Enclosed.length_lt {table : ParseTable} {nts : List Nat} {nt : Nat} {t : ParseTree}
    {rest : List Token} (h : Enclosed g table nts [t] rest) (ht : g.Derives (.nonTerminal nt) t)
    (hguided : Guided table t rest) : nts.length < g.size := by
  have hnodup : (nt :: nts).Nodup := List.nodup_cons.2 ⟨h.not_mem ht hguided, h.nodup⟩
  refine length_le_of_nodup hnodup (List.forall_mem_cons.2 ⟨lt_size_of_derives ht, ?_⟩)
  intro m hm
  exact h.lt_size hm

/-- Inside a node, the node is one more around its children. -/
theorem Enclosed.node {table : ParseTable} {nts : List Nat} {nt p : Nat}
    {children : List ParseTree} {rest : List Token}
    (h : Enclosed g table nts [.node nt p children] rest)
    (ht : g.Derives (.nonTerminal nt) (.node nt p children))
    (hguided : Guided table (.node nt p children) rest) :
    Enclosed g table (nt :: nts) children rest := by
  have hsize : ∀ c ∈ children, sizeOf c < sizeOf (ParseTree.node nt p children) := by
    intro c hc
    have := List.sizeOf_lt_of_mem hc
    simp only [ParseTree.node.sizeOf_spec]
    omega
  refine ⟨List.nodup_cons.2 ⟨h.not_mem ht hguided, h.nodup⟩, ?_⟩
  intro m hm
  rcases List.mem_cons.1 hm with rfl | hm
  · exact ⟨_, rest, ht, hguided, by rw [tokens_node], hsize⟩
  · obtain ⟨t, after, hderives, hg, htokens, hlt⟩ := h.outer m hm
    refine ⟨t, after, hderives, hg, ?_, fun c hc => ?_⟩
    · rw [htokens, List.flatMap_singleton, tokens_node]
    · exact Nat.lt_trans (hsize c hc) (hlt _ List.mem_cons_self)

theorem Enclosed.head {table : ParseTable} {nts : List Nat} {c : ParseTree}
    {cs : List ParseTree} {rest : List Token} (h : Enclosed g table nts (c :: cs) rest) :
    Enclosed g table nts [c] (cs.flatMap tokens ++ rest) := by
  refine ⟨h.nodup, fun nt hnt => ?_⟩
  obtain ⟨t, after, ht, hg, htokens, hlt⟩ := h.outer nt hnt
  refine ⟨t, after, ht, hg, ?_, ?_⟩
  · rw [htokens, List.flatMap_cons, List.flatMap_singleton, List.append_assoc]
  · intro d hd
    rw [List.mem_singleton.1 hd]
    exact hlt c List.mem_cons_self

theorem Enclosed.tail {table : ParseTable} {nts : List Nat} {c : ParseTree}
    {cs : List ParseTree} {rest : List Token} (h : Enclosed g table nts (c :: cs) rest)
    (hc : c.tokens = []) : Enclosed g table nts cs rest := by
  refine ⟨h.nodup, fun nt hnt => ?_⟩
  obtain ⟨t, after, ht, hg, htokens, hlt⟩ := h.outer nt hnt
  refine ⟨t, after, ht, hg, ?_, fun d hd => hlt d (List.mem_cons_of_mem _ hd)⟩
  rw [htokens, List.flatMap_cons, hc, List.nil_append]

/-! ## The parser on a guided tree -/

/-- The node after its children were added. -/
def Open.addAll (o : Open) (children : List ParseTree) : Open :=
  { o with children := children.reverse ++ o.children, todo := [] }

/-- From a node that expects a symbol the parser gets to the node with a guided tree of the symbol as
one more child. -/
def Passes (u : Setup) (s : Symbol) (t : ParseTree) : Prop :=
  ∀ rest, Guided u.table t rest → ∀ (o : Open) (todo : List Symbol) (below : List Open)
    (position : Nat) (nts : List Nat), o.todo = s :: todo →
    Enclosed u.grammar u.table nts [t] rest → nts.length = o.depthAt position →
    Leads u ⟨o, below, t.tokens ++ rest, position⟩
      ⟨o.add t todo, below, rest, position + t.tokens.length⟩

theorem passes_token (u : Setup) (t : Token) : Passes u (.terminal t.terminal) (.token t) := by
  intro rest _ o todo below position nts htodo _ _
  refine Relation.ReflTransGen.single ?_
  simp [step, htodo, Setup.shift]

/-- The parser passes through the children of a node, one after the other. -/
theorem leads_of_row {ss : List Symbol} {cs : List ParseTree} (h : Forall₂ (Passes u) ss cs)
    {rest : List Token} (hguided : GuidedAll u.table cs rest) {o : Open} (htodo : o.todo = ss)
    {position : Nat} (hsince : o.since ≤ position) {nts : List Nat}
    (henclosed : Enclosed u.grammar u.table nts cs rest)
    (hdepth : nts.length = o.depthAt position) (below : List Open) :
    Leads u ⟨o, below, cs.flatMap tokens ++ rest, position⟩
      ⟨o.addAll cs, below, rest, position + (cs.flatMap tokens).length⟩ := by
  induction h generalizing o position nts with
  | nil =>
      have ho : o.addAll [] = o := by simp [Open.addAll, ← htodo]
      rw [ho]
      exact Relation.ReflTransGen.refl
  | @cons s c ss cs hpass _ ih =>
      rw [guidedAll_cons_iff] at hguided
      have hhead := hpass _ hguided.1 o ss below position nts htodo henclosed.head hdepth
      have hadd : (o.add c ss).addAll cs = o.addAll (c :: cs) := by
        simp [Open.addAll, Open.add]
      have htail : Leads u ⟨o.add c ss, below, cs.flatMap tokens ++ rest,
          position + c.tokens.length⟩ ⟨(o.add c ss).addAll cs, below, rest,
          position + c.tokens.length + (cs.flatMap tokens).length⟩ := by
        by_cases hc : c.tokens = []
        · -- No token was read, so the nodes of this place are the same.
          refine ih hguided.2 rfl ?_ (henclosed.tail hc) ?_
          · rw [hc]
            exact hsince
          · rw [hc]
            exact hdepth
        · -- A token was read, so no node begins at the new place yet.
          have hpos := List.length_pos_iff.2 hc
          refine ih hguided.2 rfl ?_ (enclosed_nil _ _ _ _) ?_
          · show o.since ≤ position + c.tokens.length
            omega
          · have hne : o.since ≠ position + c.tokens.length := by omega
            simp [Open.depthAt, Open.add, hne]
      rw [hadd] at htail
      rw [List.flatMap_cons, List.append_assoc, List.length_append, ← Nat.add_assoc]
      exact hhead.trans htail

theorem expand_eq_ok {nt p : Nat} {production : Production} {tokens : List Token}
    {position depth : Nat} (hget : u.table.get? nt (lookahead tokens) = some p)
    (hp : u.grammar.production? nt p = some production) (hdepth : depth < u.grammar.size) :
    u.expand nt tokens position depth =
      .ok ⟨nt, p, [], production.symbols, position, depth + 1⟩ := by
  unfold Setup.expand
  rw [hget]
  simp [Setup.maxDepth, hdepth, hp]

theorem passes_node {nt p : Nat} {production : Production} {children : List ParseTree}
    (hp : u.grammar.production? nt p = some production)
    (hc : u.grammar.DerivesRow production.symbols children)
    (ih : Forall₂ (Passes u) production.symbols children) :
    Passes u (.nonTerminal nt) (.node nt p children) := by
  intro rest hguided o todo below position nts htodo henclosed hdepth
  have hderives := Derives.node hp hc
  have hlt : o.depthAt position < u.grammar.size :=
    hdepth ▸ henclosed.length_lt hderives hguided
  obtain ⟨hget, hall⟩ := guided_node_iff.1 hguided
  let opened : Open :=
    ⟨nt, p, [], production.symbols, position, o.depthAt position + 1⟩
  rw [tokens_node]
  have hopen : Leads u ⟨o, below, children.flatMap tokens ++ rest, position⟩
      ⟨opened, o.await todo :: below, children.flatMap tokens ++ rest, position⟩ := by
    refine Relation.ReflTransGen.single ?_
    simp only [step, htodo, expand_eq_ok hget hp hlt]
    rfl
  have hrow := leads_of_row ih hall (o := opened) rfl (Nat.le_refl position)
    (henclosed.node hderives hguided) (by simp [Open.depthAt, opened, hdepth])
    (o.await todo :: below)
  have hclose : step u ⟨opened.addAll children, o.await todo :: below, rest,
      position + (children.flatMap tokens).length⟩ =
      .running ⟨o.add (.node nt p children) todo, below, rest,
        position + (children.flatMap tokens).length⟩ := by
    simp [step, Open.addAll, Open.tree, Open.add, Open.await, opened]
  exact (hopen.trans hrow).tail hclose

theorem passes_of_derives {s : Symbol} {t : ParseTree} (h : u.grammar.Derives s t) :
    Passes u s t := by
  induction h using Derives.rec_on with
  | token t => exact passes_token u t
  | node nt p production children hp hc ih =>
      exact passes_node hp hc (ih.imp fun _ _ hpass => hpass.choose_spec)

/-- The parser returns the guided tree of the start symbol. -/
theorem parse_eq_ok_of_guided {table : ParseTable} {t : ParseTree}
    (h : g.Derives (.nonTerminal g.start) t) (hguided : Guided table t []) :
    parse g table t.tokens = .ok t := by
  obtain ⟨p, production, children, rfl, hp, hc⟩ := derives_nonTerminal_iff.1 h
  obtain ⟨hget, hall⟩ := guided_node_iff.1 hguided
  rw [tokens_node]
  rw [List.append_nil] at hget
  let u : Setup := ⟨g, table, endPosition (children.flatMap tokens)⟩
  let opened : Open := ⟨g.start, p, [], production.symbols, 0, 1⟩
  have hexpand : u.expand g.start (children.flatMap tokens) 0 0 = .ok opened :=
    expand_eq_ok hget hp (Nat.lt_of_le_of_lt (Nat.zero_le _) (lt_size_of_derives h))
  have hpasses : Forall₂ (Passes u) production.symbols children :=
    hc.imp fun s c hs => passes_of_derives hs
  have hrow := leads_of_row hpasses hall (o := opened) rfl (Nat.le_refl 0)
    ((enclosed_nil g table _ []).node h hguided) (by simp [Open.depthAt, opened]) []
  have hfinish : step u ⟨opened.addAll children, [], [],
      0 + (children.flatMap tokens).length⟩ = .finished (.node g.start p children) [] := by
    simp [step, Open.addAll, Open.tree, opened]
  have hrun : run u ⟨opened, [], children.flatMap tokens, 0⟩ =
      .ok (.node g.start p children, []) := by
    rw [List.append_nil] at hrow
    rw [run_eq_of_leads hrow, run_eq_of_finished hfinish]
  unfold parse
  simp only
  rw [show Setup.expand ⟨g, table, endPosition (children.flatMap tokens)⟩ g.start
    (children.flatMap tokens) 0 0 = .ok opened from hexpand]
  simp only
  rw [show run ⟨g, table, endPosition (children.flatMap tokens)⟩
    ⟨opened, [], children.flatMap tokens, 0⟩ = .ok (.node g.start p children, []) from hrun]

/-! ## What the parser returns is guided -/

/-- Each node of a path, which is given from the inside out, is over the production that the table
gives for the tokens from the start of the node on, and its finished children are guided. The tokens
`rest` are not read. -/
def PathGuided (table : ParseTable) : List Open → List Token → Prop
  | [], _ => True
  | o :: os, rest =>
      table.get? o.nonTerminal (lookahead (o.children.reverse.flatMap tokens ++ rest)) =
          some o.production ∧
        GuidedAll table o.children.reverse rest ∧
        PathGuided table os (o.children.reverse.flatMap tokens ++ rest)

section PathGuided

variable {table : ParseTable} {o : Open} {os : List Open} {rest : List Token}

/-- A guided child for the next tokens. -/
theorem PathGuided.add {c : ParseTree} (h : PathGuided table (o :: os) (c.tokens ++ rest))
    (hc : Guided table c rest) (todo : List Symbol) :
    PathGuided table (o.add c todo :: os) rest := by
  obtain ⟨hget, hchildren, hbelow⟩ := h
  have htokens : (o.add c todo).children.reverse.flatMap tokens ++ rest =
      o.children.reverse.flatMap tokens ++ (c.tokens ++ rest) := by
    simp [Open.add]
  refine ⟨?_, ?_, ?_⟩
  · rw [htokens]
    exact hget
  · show GuidedAll table (c :: o.children).reverse rest
    rw [List.reverse_cons, guidedAll_append_iff, List.flatMap_singleton]
    exact ⟨hchildren, guidedAll_cons_iff.2 ⟨hc, trivial⟩⟩
  · rw [htokens]
    exact hbelow

/-- The tree of the innermost node is guided, and the path around it goes on with its tokens. -/
theorem PathGuided.tree (h : PathGuided table (o :: os) rest) :
    Guided table o.tree rest ∧ PathGuided table os (o.tree.tokens ++ rest) := by
  obtain ⟨hget, hchildren, hbelow⟩ := h
  rw [Open.tree, guided_node_iff, tokens_node]
  exact ⟨⟨hget, hchildren⟩, hbelow⟩

theorem PathGuided.step {s s' : State} (h : PathGuided u.table (s.top :: s.below) s.tokens)
    (hstep : Parser.step u s = .running s') :
    PathGuided u.table (s'.top :: s'.below) s'.tokens := by
  unfold Parser.step at hstep
  split at hstep
  · -- A complete node becomes a child of the node around it.
    split at hstep
    · simp at hstep
    · rename_i o below hpath
      obtain rfl := Outcome.running.inj hstep
      rw [hpath] at h
      exact h.tree.2.add h.tree.1 o.todo
  · -- A token is read.
    split at hstep
    · simp at hstep
    · rename_i token rest hshift
      obtain rfl := Outcome.running.inj hstep
      rw [shift_ok hshift] at h
      exact PathGuided.add (c := .token token) h trivial _
  · -- A node is opened with what the table gives for the tokens not read.
    split at hstep
    · simp at hstep
    · rename_i nt todo htodo _ o hexpand
      obtain rfl := Outcome.running.inj hstep
      unfold Setup.expand at hexpand
      split at hexpand
      · simp at hexpand
      · rename_i p hget
        split at hexpand
        · obtain rfl := Except.ok.inj hexpand
          exact ⟨hget, trivial, h⟩
        · simp at hexpand

theorem PathGuided.guided_of_finished {s : State} {t : ParseTree}
    (h : PathGuided u.table (s.top :: s.below) s.tokens)
    (hstep : Parser.step u s = .finished t rest) : Guided u.table t rest := by
  unfold Parser.step at hstep
  split at hstep
  · split at hstep
    · obtain ⟨rfl, rfl⟩ := Outcome.finished.inj hstep
      exact h.tree.1
    · simp at hstep
  · split at hstep <;> simp at hstep
  · split at hstep <;> simp at hstep

theorem PathGuided.guided_of_run {s : State} {t : ParseTree}
    (h : PathGuided u.table (s.top :: s.below) s.tokens) (hrun : run u s = .ok (t, rest)) :
    Guided u.table t rest := by
  fun_induction run u s with
  | case1 s e hstep => simp at hrun
  | case2 s t' rest' hstep =>
      obtain ⟨rfl, rfl⟩ := Prod.mk.inj (Except.ok.inj hrun)
      exact h.guided_of_finished hstep
  | case3 s s' hstep _ ih => exact ih (h.step hstep) hrun

end PathGuided

theorem guided_of_parse {table : ParseTable} {tokens : List Token} {t : ParseTree}
    (h : parse g table tokens = .ok t) : Guided table t [] := by
  unfold parse at h
  simp only at h
  split at h
  · simp at h
  · rename_i top hexpand
    have hstart : PathGuided table [top] tokens := by
      unfold Setup.expand at hexpand
      split at hexpand
      · simp at hexpand
      · rename_i p hget
        split at hexpand
        · obtain rfl := Except.ok.inj hexpand
          exact ⟨hget, trivial, trivial⟩
        · simp at hexpand
    split at h
    · simp at h
    · rename_i t' hrun
      obtain rfl := Except.ok.inj h
      exact PathGuided.guided_of_run hstart hrun
    · simp at h

/-- The parser returns the derivation trees of the start symbol that its table leads to, and nothing
else. -/
theorem parse_eq_ok_iff_guided {table : ParseTable} (ht : table.Fits g) {tokens : List Token}
    {t : ParseTree} :
    parse g table tokens = .ok t ↔
      g.Derives (.nonTerminal g.start) t ∧ t.tokens = tokens ∧ Guided table t [] := by
  constructor
  · intro h
    obtain ⟨hderives, htokens⟩ := derives_of_parse ht h
    exact ⟨hderives, htokens, guided_of_parse h⟩
  · rintro ⟨hderives, rfl, hguided⟩
    exact parse_eq_ok_of_guided hderives hguided

end Parser

end SmallLang
