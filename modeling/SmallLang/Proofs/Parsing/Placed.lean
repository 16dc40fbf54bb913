import SmallLang.Proofs.Lookahead.LeftRecursion
import SmallLang.Proofs.Parsing.Guided

/-!
# Nodes that are opened at one place

A node that is opened before anything is read in the node around it is a left corner of that node: the
children before it have no tokens, and symbols that derive no tokens are those that the FIRST sets call
nullable (`Grammar.empty_of_derives`). So the nodes on a path that were opened at one place are a path of
left corners (`Parser.PathPlaced`). Where the grammar is not left recursive, a rank falls along it, all of
its non-terminals are different, and there are no more of these nodes than non-terminals
(`Parser.Placed.depth_lt`). The bound on the depth of nodes is never met.

None of this asks for the symbols of the grammar to exist. A run that stands before a symbol that does
not exist fails there, since no table entry fits.
-/

set_option autoImplicit false

namespace SmallLang.Parser

open Grammar

variable {g : Grammar} {start : Nat} {input : List Token} {u : Setup}

/-- The nodes of a path, from the inside out, where `position` tokens have been read: each knows where
it was opened, counts the nodes that were opened there, and is a left corner of the node around it if
that one was opened there as well. -/
def PathPlaced (g : Grammar) : Nat → List Open → Prop
  | _, [] => True
  | position, o :: os =>
      o.since + (o.children.flatMap ParseTree.tokens).length = position ∧
        o.depth = ((os.head?.map fun outer => outer.depthAt o.since).getD 0) + 1 ∧
        (∀ outer, os.head? = some outer → outer.since = o.since →
          o.nonTerminal ∈ g.leftCornersOf g.firstTable outer.nonTerminal) ∧
        PathPlaced g o.since os

/-- A consistent state whose nodes know their places. -/
structure Placed (g : Grammar) (start : Nat) (input : List Token) (s : State) : Prop where
  consistent : Consistent g start input s
  path : PathPlaced g s.position (s.top :: s.below)

/-! ## Left corners -/

/-- A symbol after symbols that derive the empty text can come first. -/
theorem mem_leftCorners_of_derivesRow {done : List Symbol} {ts : List ParseTree}
    (h : g.DerivesRow done ts) (hempty : ts.flatMap ParseTree.tokens = []) (nt : Nat)
    (after : List Symbol) :
    nt ∈ leftCorners g.firstTable (done ++ .nonTerminal nt :: after) := by
  induction h with
  | nil => exact List.mem_cons_self
  | @cons s t done ts hs _ ih =>
      rw [List.flatMap_cons, List.append_eq_nil_iff] at hempty
      have hfirst := empty_of_derives hs hempty.1
      cases s with
      | terminal i => exact absurd hfirst Bool.false_ne_true
      | nonTerminal i =>
          have hnullable : g.firstTable.nullable i = true := hfirst
          rw [List.cons_append, leftCorners, if_pos hnullable]
          exact List.mem_cons_of_mem _ (ih hempty.2)

/-- What is opened in a node without a token in between is a left corner of it. -/
theorem Open.Consistent.mem_leftCornersOf {o : Open} {nt : Nat} {todo : List Symbol}
    (h : o.Consistent g (.nonTerminal nt :: todo))
    (hempty : o.children.flatMap ParseTree.tokens = []) :
    nt ∈ g.leftCornersOf g.firstTable o.nonTerminal := by
  obtain ⟨production, done, hp, hsymbols, hdone⟩ := h
  have hreverse : o.children.reverse.flatMap ParseTree.tokens = [] := by
    rw [List.flatMap_eq_nil_iff] at hempty ⊢
    intro c hc
    exact hempty c (List.mem_reverse.1 hc)
  refine List.mem_flatMap.2 ⟨production, List.mem_of_getElem? hp, ?_⟩
  rw [hsymbols]
  exact mem_leftCorners_of_derivesRow hdone hreverse nt todo

/-! ## Runs -/

/-- A node is opened without children, where the parser stands, and one deeper. -/
theorem opened_of_expand {nt position depth : Nat} {o : Open}
    (h : u.expand nt input position depth = .ok o) :
    o.nonTerminal = nt ∧ o.children = [] ∧ o.since = position ∧ o.depth = depth + 1 := by
  unfold Setup.expand at h
  split at h
  · simp at h
  · split at h
    · obtain rfl := Except.ok.inj h
      exact ⟨rfl, rfl, rfl, rfl⟩
    · simp at h

/-- Before the first step there is one node. -/
theorem placed_of_expand (hfits : u.table.Fits u.grammar) {top : Open}
    (h : u.expand start input 0 0 = .ok top) : Placed u.grammar start input ⟨top, [], input, 0⟩ := by
  obtain ⟨-, -, htop⟩ := Open.consistent_of_expand hfits h
  obtain ⟨hnt, hchildren, hsince, hdepth⟩ := opened_of_expand h
  refine ⟨⟨htop, trivial, hnt, by simp [pathTokens, hchildren]⟩, ?_, hdepth, ?_, trivial⟩
  · rw [hsince, hchildren]
    rfl
  · intro outer houter
    simp at houter

theorem PathPlaced.step {s s' : State} (hs : Consistent u.grammar start input s)
    (h : PathPlaced u.grammar s.position (s.top :: s.below)) (hstep : Parser.step u s = .running s') :
    PathPlaced u.grammar s'.position (s'.top :: s'.below) := by
  obtain ⟨hsince, hdepth, hcorner, hbelow⟩ := h
  unfold Parser.step at hstep
  split at hstep
  · -- The tokens of a complete node count for the node around it from now on.
    split at hstep
    · simp at hstep
    · rename_i o below hpath
      obtain rfl := Outcome.running.inj hstep
      rw [hpath] at hbelow
      obtain ⟨hsince', hdepth', hcorner', hbelow'⟩ := hbelow
      refine ⟨?_, hdepth', hcorner', hbelow'⟩
      have htokens : s.top.tree.tokens.length =
          (s.top.children.flatMap ParseTree.tokens).length := by
        rw [Open.tree, ParseTree.tokens_node]
        exact (List.Perm.flatMap_right _ (List.reverse_perm _)).length_eq
      show o.since + ((s.top.tree :: o.children).flatMap ParseTree.tokens).length = s.position
      rw [List.flatMap_cons, List.length_append, htokens]
      omega
  · -- A token is read.
    split at hstep
    · simp at hstep
    · rename_i token rest hshift
      obtain rfl := Outcome.running.inj hstep
      refine ⟨?_, hdepth, hcorner, hbelow⟩
      show s.top.since + ((.token token :: s.top.children).flatMap ParseTree.tokens).length =
        s.position + 1
      rw [List.flatMap_cons, List.length_append, ParseTree.tokens_token, List.length_singleton]
      omega
  · -- A node is opened, which is a left corner if nothing was read before it in its node.
    rename_i nt todo htodo
    split at hstep
    · simp at hstep
    · rename_i o hexpand
      obtain rfl := Outcome.running.inj hstep
      obtain ⟨hnt', hchildren', hsince', hdepth'⟩ := opened_of_expand hexpand
      refine ⟨?_, ?_, ?_, ?_, hdepth, hcorner, hbelow⟩
      · rw [hsince', hchildren']
        rfl
      · rw [hdepth', hsince']
        rfl
      · intro outer houter hplace
        obtain rfl := Option.some.inj houter
        have hplace' : s.top.since = s.position := hplace.trans hsince'
        have hempty : s.top.children.flatMap ParseTree.tokens = [] := by
          apply List.eq_nil_of_length_eq_zero
          omega
        rw [hnt']
        exact (htodo ▸ hs.top : s.top.Consistent u.grammar _).mem_leftCornersOf hempty
      · rw [hsince']
        exact hsince

theorem Placed.step (hfits : u.table.Fits u.grammar) {s s' : State}
    (h : Placed u.grammar start input s) (hstep : Parser.step u s = .running s') :
    Placed u.grammar start input s' :=
  ⟨h.consistent.step hfits hstep, h.path.step h.consistent hstep⟩

theorem Placed.of_leads (hfits : u.table.Fits u.grammar) {s s' : State}
    (h : Placed u.grammar start input s) (hleads : Leads u s s') :
    Placed u.grammar start input s' := by
  induction hleads with
  | refl => exact h
  | tail _ hstep ih => exact ih.step hfits hstep

/-! ## How many nodes there are at one place -/

/-- The nodes that were opened where a node was, this one included, are of different non-terminals,
and a rank that falls along left corners is lowest at this one. -/
theorem PathPlaced.exists_nonTerminals {rank : Nat → Nat}
    (hrank : ∀ v, ∀ w ∈ g.leftCornersOf g.firstTable v, w < g.size → rank w < rank v)
    {position : Nat} {o : Open} {os : List Open} (h : PathPlaced g position (o :: os))
    (hsize : ∀ x ∈ o :: os, x.nonTerminal < g.size) :
    ∃ nts : List Nat, nts.length = o.depth ∧ nts.Nodup ∧
      ∀ m ∈ nts, m < g.size ∧ rank o.nonTerminal ≤ rank m := by
  induction os generalizing o position with
  | nil =>
      obtain ⟨-, hdepth, -, -⟩ := h
      refine ⟨[o.nonTerminal], hdepth.symm, List.nodup_singleton _, ?_⟩
      intro m hm
      rw [List.mem_singleton.1 hm]
      exact ⟨hsize o List.mem_cons_self, Nat.le_refl _⟩
  | cons outer os ih =>
      obtain ⟨-, hdepth, hcorner, hbelow⟩ := h
      have hdepth' : o.depth = outer.depthAt o.since + 1 := hdepth
      have ho := hsize o List.mem_cons_self
      by_cases hplace : outer.since = o.since
      · obtain ⟨nts, hlength, hnodup, hall⟩ := ih hbelow fun x hx =>
          hsize x (List.mem_cons_of_mem _ hx)
        have hlt := hrank _ _ (hcorner outer rfl hplace) ho
        refine ⟨o.nonTerminal :: nts, ?_, ?_, ?_⟩
        · rw [List.length_cons, hlength, hdepth', Open.depthAt, if_pos hplace]
        · refine List.nodup_cons.2 ⟨?_, hnodup⟩
          intro hmem
          exact absurd (hall _ hmem).2 (Nat.not_le_of_lt hlt)
        · refine List.forall_mem_cons.2 ⟨⟨ho, Nat.le_refl _⟩, ?_⟩
          intro m hm
          exact ⟨(hall m hm).1, Nat.le_trans (Nat.le_of_lt hlt) (hall m hm).2⟩
      · rw [Open.depthAt, if_neg hplace] at hdepth'
        refine ⟨[o.nonTerminal], hdepth'.symm, List.nodup_singleton _, ?_⟩
        intro m hm
        rw [List.mem_singleton.1 hm]
        exact ⟨ho, Nat.le_refl _⟩

theorem PathConsistent.lt_size {nt : Nat} {os : List Open} (h : PathConsistent g nt os) :
    ∀ o ∈ os, o.nonTerminal < g.size := by
  induction os generalizing nt with
  | nil => exact fun o ho => absurd ho List.not_mem_nil
  | cons o os ih =>
      obtain ⟨⟨production, _, hp, -⟩, hos⟩ := h
      exact List.forall_mem_cons.2 ⟨lt_size_of_production? hp, ih hos⟩

/-- Without left recursion a further node can be opened in every node. -/
theorem Placed.depth_lt {rank : Nat → Nat}
    (hrank : ∀ v, ∀ w ∈ g.leftCornersOf g.firstTable v, w < g.size → rank w < rank v) {s : State}
    (h : Placed g start input s) {nt : Nat} {todo : List Symbol}
    (htodo : s.top.todo = .nonTerminal nt :: todo) (hnt : nt < g.size) :
    s.top.depthAt s.position < g.size := by
  by_cases hplace : s.top.since = s.position
  · have hsize : ∀ o ∈ s.top :: s.below, o.nonTerminal < g.size := by
      obtain ⟨production, _, hp, -⟩ := h.consistent.top
      exact List.forall_mem_cons.2 ⟨lt_size_of_production? hp, h.consistent.below.lt_size⟩
    obtain ⟨nts, hlength, hnodup, hall⟩ := h.path.exists_nonTerminals hrank hsize
    have htop : s.top.Consistent g (.nonTerminal nt :: todo) := htodo ▸ h.consistent.top
    have hempty : s.top.children.flatMap ParseTree.tokens = [] := by
      apply List.eq_nil_of_length_eq_zero
      have hsince := h.path.1
      omega
    have hlt := hrank _ _ (htop.mem_leftCornersOf hempty) hnt
    -- The next non-terminal is different from those that were opened here.
    have hmore : (nt :: nts).Nodup := by
      refine List.nodup_cons.2 ⟨?_, hnodup⟩
      intro hmem
      exact absurd (hall nt hmem).2 (Nat.not_le_of_lt hlt)
    have hle := length_le_of_nodup hmore (List.forall_mem_cons.2 ⟨hnt, fun m hm => (hall m hm).1⟩)
    rw [List.length_cons, hlength] at hle
    rw [Open.depthAt, if_pos hplace]
    exact hle
  · rw [Open.depthAt, if_neg hplace]
    exact Nat.lt_of_le_of_lt (Nat.zero_le nt) hnt

/-- The next symbol of a consistent state exists if all symbols of the grammar do. -/
theorem Consistent.hasSymbol (hg : g.SymbolsExist) {s : State} (hs : Consistent g start input s)
    {symbol : Symbol} {todo : List Symbol} (htodo : s.top.todo = symbol :: todo) :
    g.HasSymbol symbol := by
  obtain ⟨production, done, hp, hsymbols, -⟩ := hs.top
  apply hg.of_production hp
  rw [hsymbols, htodo]
  exact List.mem_append_right _ List.mem_cons_self

end SmallLang.Parser
