import SmallLang.Parsing.Parser
import SmallLang.Proofs.Parsing.Derivation

/-!
# What the parser returns

While the parser runs, each open node holds derivation trees of the first symbols of its production,
and its symbols still to come are the others. A node that waits for the node inside it has that
node's non-terminal before these. The tokens of the path, from the outermost node to the innermost
one, are the tokens read (`Parser.Consistent`). A step keeps this (`Parser.Consistent.step`), so a
tree that the parser returns derives the start symbol and has exactly the tokens of the input
(`Parser.derives_of_parse`).
-/

set_option autoImplicit false

namespace SmallLang

/-- Every production that the table gives exists in the grammar. -/
def ParseTable.Fits (table : ParseTable) (g : Grammar) : Prop :=
  ∀ nt la p, table.get? nt la = some p → ∃ production, g.production? nt p = some production

namespace Parser

open Grammar

/-- The finished children of a node derive the first symbols of its production, and the other symbols
are `pending`. -/
def Open.Consistent (g : Grammar) (o : Open) (pending : List Symbol) : Prop :=
  ∃ production done, g.production? o.nonTerminal o.production = some production ∧
    production.symbols = done ++ pending ∧ g.DerivesRow done o.children.reverse

/-- The nodes around a node of the non-terminal `nt`, from the inside out: each waits for the node
inside it. -/
def PathConsistent (g : Grammar) : Nat → List Open → Prop
  | _, [] => True
  | nt, o :: os => o.Consistent g (.nonTerminal nt :: o.todo) ∧ PathConsistent g o.nonTerminal os

/-- The non-terminal of the outermost node around a node of the non-terminal `nt`. -/
def outermost : Nat → List Open → Nat
  | nt, [] => nt
  | _, o :: os => outermost o.nonTerminal os

/-- The tokens of the finished children on a path, which is given from the inside out. -/
def pathTokens : List Open → List Token
  | [] => []
  | o :: os => pathTokens os ++ o.children.reverse.flatMap ParseTree.tokens

/-- A state of a run that parses `input` as the non-terminal `start`. -/
structure Consistent (g : Grammar) (start : Nat) (input : List Token) (s : State) : Prop where
  top : s.top.Consistent g s.top.todo
  below : PathConsistent g s.top.nonTerminal s.below
  outermost : outermost s.top.nonTerminal s.below = start
  read : pathTokens (s.top :: s.below) ++ s.tokens = input

variable {g : Grammar} {start : Nat} {input : List Token}

/-! ## Steps -/

/-- A child for the next pending symbol. -/
theorem Open.Consistent.add {o : Open} {s : Symbol} {pending : List Symbol}
    (h : o.Consistent g (s :: pending)) {c : ParseTree} (hc : g.Derives s c) :
    (o.add c pending).Consistent g pending := by
  obtain ⟨production, done, hp, hsymbols, hdone⟩ := h
  refine ⟨production, done ++ [s], hp, by rw [hsymbols, List.append_assoc]; rfl, ?_⟩
  show g.DerivesRow (done ++ [s]) (c :: o.children).reverse
  rw [List.reverse_cons]
  exact List.rel_append hdone (.cons hc .nil)

/-- A complete node is a derivation tree of its non-terminal. -/
theorem Open.Consistent.derives_tree {o : Open} (h : o.Consistent g []) :
    g.Derives (.nonTerminal o.nonTerminal) o.tree := by
  obtain ⟨production, done, hp, hsymbols, hdone⟩ := h
  rw [List.append_nil] at hsymbols
  exact Derives.node hp (hsymbols ▸ hdone)

/-- A node that was just opened. -/
theorem Open.consistent_of_expand {u : Setup} (hu : u.table.Fits u.grammar) {nt : Nat}
    {tokens : List Token} {position depth : Nat} {o : Open}
    (h : u.expand nt tokens position depth = .ok o) :
    o.nonTerminal = nt ∧ o.children = [] ∧ o.Consistent u.grammar o.todo := by
  unfold Setup.expand at h
  split at h
  · simp at h
  · rename_i p hget
    split at h
    · simp only [Except.ok.injEq] at h
      subst h
      obtain ⟨production, hp⟩ := hu _ _ _ hget
      exact ⟨rfl, rfl, production, [], hp, by simp [hp], .nil⟩
    · simp at h

theorem terminal_of_shift {u : Setup} {terminal : Nat} {tokens rest : List Token} {token : Token}
    (h : u.shift terminal tokens = .ok (token, rest)) : token.terminal = terminal := by
  unfold Setup.shift at h
  split at h
  · simp at h
  · split at h
    · rename_i heq
      simp only [Except.ok.injEq, Prod.mk.injEq] at h
      rw [← h.1, heq]
    · simp at h

theorem pathTokens_add (o : Open) (c : ParseTree) (todo : List Symbol) (os : List Open) :
    pathTokens (o.add c todo :: os) = pathTokens (o :: os) ++ c.tokens := by
  simp [pathTokens, Open.add]

/-- A step keeps the state consistent. -/
theorem Consistent.step {u : Setup} (hu : u.table.Fits u.grammar) {s s' : State}
    (hs : Consistent u.grammar start input s) (h : step u s = .running s') :
    Consistent u.grammar start input s' := by
  obtain ⟨htop, hbelow, hgoal, hread⟩ := hs
  unfold Parser.step at h
  split at h
  · -- A complete node becomes a child of the node around it.
    rename_i htodo
    split at h
    · simp at h
    · rename_i o below hpath
      simp only [Outcome.running.injEq] at h
      subst h
      rw [htodo] at htop
      rw [hpath] at hbelow hgoal hread
      refine ⟨hbelow.1.add htop.derives_tree, hbelow.2, hgoal, ?_⟩
      show pathTokens (o.add s.top.tree o.todo :: below) ++ s.tokens = input
      rw [pathTokens_add, ← hread]
      simp [pathTokens, Open.tree]
  · -- A token is read.
    rename_i terminal todo htodo
    split at h
    · simp at h
    · rename_i token rest hshift
      simp only [Outcome.running.injEq] at h
      subst h
      rw [htodo] at htop
      have hderives : u.grammar.Derives (.terminal terminal) (.token token) := by
        rw [← terminal_of_shift hshift]
        exact Derives.token token
      refine ⟨htop.add hderives, hbelow, hgoal, ?_⟩
      show pathTokens (s.top.add (.token token) todo :: s.below) ++ rest = input
      rw [pathTokens_add, ← hread, shift_ok hshift]
      simp
  · -- A non-terminal is opened, and the node waits for it.
    rename_i nt todo htodo
    split at h
    · simp at h
    · rename_i o hexpand
      simp only [Outcome.running.injEq] at h
      subst h
      obtain ⟨hnt, hchildren, ho⟩ := Open.consistent_of_expand hu hexpand
      rw [htodo] at htop
      refine ⟨ho, ⟨?_, hbelow⟩, ?_, ?_⟩
      · rw [hnt]
        exact htop
      · exact hgoal
      · rw [← hread]
        simp [pathTokens, hchildren, Open.await]

/-- A finished tree derives the start symbol, and its tokens are those read. -/
theorem Consistent.derives_of_finished {u : Setup} {s : State} {tree : ParseTree}
    {rest : List Token} (hs : Consistent u.grammar start input s)
    (h : Parser.step u s = .finished tree rest) :
    u.grammar.Derives (.nonTerminal start) tree ∧ tree.tokens ++ rest = input := by
  obtain ⟨htop, hbelow, hgoal, hread⟩ := hs
  unfold Parser.step at h
  split at h
  · rename_i htodo
    split at h
    · rename_i hpath
      simp only [Outcome.finished.injEq] at h
      obtain ⟨rfl, rfl⟩ := h
      rw [htodo] at htop
      rw [hpath] at hgoal hread
      refine ⟨?_, ?_⟩
      · rw [← hgoal]
        exact htop.derives_tree
      · rw [← hread]
        simp [pathTokens, Open.tree]
    · simp at h
  · split at h <;> simp at h
  · split at h <;> simp at h

/-! ## Runs -/

theorem Consistent.derives_of_run {u : Setup} (hu : u.table.Fits u.grammar) {s : State}
    {tree : ParseTree} {rest : List Token} (hs : Consistent u.grammar start input s)
    (h : run u s = .ok (tree, rest)) :
    u.grammar.Derives (.nonTerminal start) tree ∧ tree.tokens ++ rest = input := by
  fun_induction run u s with
  | case1 s e hstep => simp at h
  | case2 s tree' rest' hstep =>
      simp only [Except.ok.injEq, Prod.mk.injEq] at h
      obtain ⟨rfl, rfl⟩ := h
      exact hs.derives_of_finished hstep
  | case3 s s' hstep _ ih => exact ih (hs.step hu hstep) h

/-- A tree that the parser returns derives the start symbol, and its tokens are exactly those of the
input. -/
theorem derives_of_parse {table : ParseTable} (ht : table.Fits g) {tokens : List Token}
    {tree : ParseTree} (h : parse g table tokens = .ok tree) :
    g.Derives (.nonTerminal g.start) tree ∧ tree.tokens = tokens := by
  unfold parse at h
  simp only at h
  split at h
  · simp at h
  · rename_i top hexpand
    obtain ⟨hnt, hchildren, htop⟩ := Open.consistent_of_expand ht hexpand
    have hstart : Consistent g g.start tokens { top, below := [], tokens, position := 0 } :=
      ⟨htop, trivial, hnt, by simp [pathTokens, hchildren]⟩
    split at h
    · simp at h
    · rename_i tree' hrun
      simp only [Except.ok.injEq] at h
      subst h
      obtain ⟨hderives, htokens⟩ := hstart.derives_of_run ht hrun
      rw [List.append_nil] at htokens
      exact ⟨hderives, htokens⟩
    · simp at h

end Parser

end SmallLang
