import SmallLang.Grammar.Render
import SmallLang.Lookahead.ParseTable
import SmallLang.Parsing.Tree

/-!
# The predictive parser

The parser builds a tree from the top. Its state is the path of nodes that are not complete yet, each
with its finished children and the symbols still to come, and the tokens not read. A step looks at
the next symbol of the innermost node: a terminal has to be the next token, a non-terminal is opened
with the production that the table gives for the next token, and a node with no symbol left becomes a
child of the node around it.

A node remembers how many tokens had been read when it was opened, and how many nodes above it were
opened at the same place. More of these than there are non-terminals means that some non-terminal is
inside itself with no token in between, so opening would never end; the parser reports this instead
(`ParseError.endlessExpansion`). Since each token is read once and only so many nodes fit between two
tokens, every run ends (`Parser.weight`).
-/

set_option autoImplicit false

namespace SmallLang.Parser

/-- A node that is not complete. -/
structure Open where
  nonTerminal : Nat
  production : Nat
  /-- The finished children, the last one first. -/
  children : List ParseTree
  /-- The symbols still to come. -/
  todo : List Symbol
  /-- How many tokens had been read when the node was opened. -/
  since : Nat
  /-- How many nodes on the path up to this one were opened without a token in between. -/
  depth : Nat

/-- The state of a run: the innermost incomplete node, those around it from the inside out, the
tokens not read and the number of those read. -/
structure State where
  top : Open
  below : List Open
  tokens : List Token
  position : Nat

/-- What a run has to look up: the grammar, its table, and where the input ends. -/
structure Setup where
  grammar : Grammar
  table : ParseTable
  endsAt : Position

namespace Setup

variable (u : Setup)

/-- The lookahead for the tokens not read. -/
def lookahead : List Token → Lookahead
  | [] => .endOfInput
  | t :: _ => .terminal t.terminal

/-- The place of the next token, or the end of the input. -/
def nextPosition : List Token → Position
  | [] => u.endsAt
  | t :: _ => t.position

/-- An error about a token, given the text that describes it. -/
def about (t : Token) (e : String → ParseError) : ParseError :=
  match t.describe? u.grammar.arena with
  | some found => e found
  | none => .foreignToken t.terminal t.position

/-- The name by which messages call a non-terminal. -/
def typeName (nt : Nat) : String := typeNameOf (u.grammar.nameOf nt)

/-- The error when no production fits the next token. -/
def cannotOpen (nt : Nat) : List Token → ParseError
  | [] => .unexpectedEnd (u.typeName nt) u.endsAt
  | t :: _ => u.about t fun found => .unexpectedToken (u.typeName nt) found t.position

/-- The most nodes that are opened without reading a token. -/
def maxDepth : Nat := u.grammar.size

/-- Opens a non-terminal below `depth` nodes of the same place. -/
def expand (nt : Nat) (tokens : List Token) (position depth : Nat) : Except ParseError Open :=
  match u.table.get? nt (lookahead tokens) with
  | none => .error (u.cannotOpen nt tokens)
  | some p =>
      if depth < u.maxDepth then
        .ok
          { nonTerminal := nt
            production := p
            children := []
            todo := ((u.grammar.production? nt p).map Production.symbols).getD []
            since := position
            depth := depth + 1 }
      else .error (.endlessExpansion (u.typeName nt) (u.nextPosition tokens))

/-- Reads the next token, which has to be of the given terminal. -/
def shift (terminal : Nat) : List Token → Except ParseError (Token × List Token)
  | [] => .error (.unexpectedEnd (u.grammar.symbolName (.terminal terminal)) u.endsAt)
  | t :: ts =>
      if t.terminal = terminal then .ok (t, ts)
      else
        .error <| u.about t fun found =>
          .mismatch (u.grammar.symbolName (.terminal terminal)) found t.position

end Setup

namespace Open

/-- The tree of a complete node. -/
def tree (o : Open) : ParseTree := .node o.nonTerminal o.production o.children.reverse

/-- The node with one more child, and the symbols after it still to come. -/
def add (o : Open) (child : ParseTree) (todo : List Symbol) : Open :=
  { o with children := child :: o.children, todo }

/-- The node with other symbols still to come. -/
def await (o : Open) (todo : List Symbol) : Open := { o with todo }

/-- The number of nodes up to this one that were opened at the given place. -/
def depthAt (o : Open) (position : Nat) : Nat := if o.since = position then o.depth else 0

end Open

/-- What a step leads to: another state, a finished tree with the tokens after it, or an error. -/
inductive Outcome where
  | running (s : State)
  | finished (tree : ParseTree) (rest : List Token)
  | failed (e : ParseError)

/-- One step of the parser. -/
def step (u : Setup) (s : State) : Outcome :=
  match s.top.todo with
  -- A complete node becomes a child of the node around it, or is the whole tree.
  | [] =>
      match s.below with
      | [] => .finished s.top.tree s.tokens
      | o :: below => .running { s with top := o.add s.top.tree o.todo, below }
  -- A terminal has to be the next token.
  | .terminal t :: todo =>
      match u.shift t s.tokens with
      | .error e => .failed e
      | .ok (token, rest) =>
          .running
            { s with
              top := s.top.add (.token token) todo
              tokens := rest
              position := s.position + 1 }
  -- A non-terminal is opened inside the node, which waits for it.
  | .nonTerminal nt :: todo =>
      match u.expand nt s.tokens s.position (s.top.depthAt s.position) with
      | .error e => .failed e
      | .ok o => .running { s with top := o, below := s.top.await todo :: s.below }

/-! ## Every run ends -/

/-- The length of the longest production. -/
def maxLength (g : Grammar) : Nat :=
  (g.nonTerminals.flatMap fun nt => nt.productions.map fun p => p.symbols.length).foldl max 0

/-- A bound for the steps spent on one symbol without reading a token, where `n` more nodes can be
opened inside each other and productions have at most `m` symbols. -/
def symbolCost (m : Nat) : Nat → Nat
  | 0 => 1
  | n + 1 => 2 + m * symbolCost m n

/-- A bound for the steps spent on a node at a place without reading a token. -/
def nodeCost (u : Setup) (position : Nat) (o : Open) : Nat :=
  1 + o.todo.length * symbolCost (maxLength u.grammar) (u.maxDepth - o.depthAt position)

/-- A bound for the steps spent on all nodes of a path at a place without reading a token. -/
def pathCost (u : Setup) (position : Nat) : List Open → Nat
  | [] => 0
  | o :: os => nodeCost u position o + pathCost u position os

/-- A bound for the steps of a run until it reads a token. -/
def weight (u : Setup) (s : State) : Nat := pathCost u s.position (s.top :: s.below)

theorem le_foldl_max (l : List Nat) (a x : Nat) (h : x ≤ a ∨ x ∈ l) : x ≤ l.foldl max a := by
  induction l generalizing a with
  | nil => simpa using h
  | cons y ys ih =>
      rw [List.foldl_cons]
      apply ih
      rcases h with h | h
      · exact Or.inl (Nat.le_trans h (Nat.le_max_left _ _))
      · rcases List.mem_cons.1 h with rfl | h
        · exact Or.inl (Nat.le_max_right _ _)
        · exact Or.inr h

theorem length_le_maxLength {g : Grammar} {nt p : Nat} {production : Production}
    (h : g.production? nt p = some production) : production.symbols.length ≤ maxLength g := by
  apply le_foldl_max
  right
  unfold Grammar.production? Grammar.productionsOf at h
  have hmem := List.mem_of_getElem? h
  cases hnt : g.nonTerminals[nt]? with
  | none => simp [hnt] at hmem
  | some n =>
      simp only [hnt, Option.map_some, Option.getD_some] at hmem
      exact List.mem_flatMap.2
        ⟨n, List.mem_of_getElem? hnt, List.mem_map.2 ⟨production, hmem, rfl⟩⟩

theorem expand_ok {u : Setup} {nt : Nat} {tokens : List Token} {position depth : Nat} {o : Open}
    (h : u.expand nt tokens position depth = .ok o) :
    depth < u.maxDepth ∧ o.depthAt position = depth + 1 ∧
      o.todo.length ≤ maxLength u.grammar := by
  unfold Setup.expand at h
  split at h
  · simp at h
  · rename_i p _
    split at h
    · rename_i hlt
      simp only [Except.ok.injEq] at h
      subst h
      refine ⟨hlt, by simp [Open.depthAt], ?_⟩
      cases hp : u.grammar.production? nt p with
      | none => simp
      | some production => simpa using length_le_maxLength hp
    · simp at h

theorem shift_ok {u : Setup} {terminal : Nat} {tokens rest : List Token} {token : Token}
    (h : u.shift terminal tokens = .ok (token, rest)) : tokens = token :: rest := by
  unfold Setup.shift at h
  split at h
  · simp at h
  · split at h
    · simp only [Except.ok.injEq, Prod.mk.injEq] at h
      rw [h.1, h.2]
    · simp at h

/-- Every step reads a token or lowers the weight. -/
theorem step_decreases {u : Setup} {s s' : State} (h : step u s = .running s') :
    s'.tokens.length < s.tokens.length ∨
      s'.tokens.length = s.tokens.length ∧ weight u s' < weight u s := by
  unfold step at h
  split at h
  · -- A complete node leaves the path, and the node around it weighs what it did before.
    rename_i htodo
    split at h
    · simp at h
    · rename_i o below hbelow
      simp only [Outcome.running.injEq] at h
      subst h
      right
      refine ⟨rfl, ?_⟩
      simp only [weight, hbelow, pathCost]
      have : nodeCost u s.position (o.add s.top.tree o.todo) = nodeCost u s.position o := rfl
      rw [this]
      simp only [nodeCost, htodo, List.length_nil, Nat.zero_mul]
      omega
  · -- A token is read.
    split at h
    · simp at h
    · rename_i hshift
      simp only [Outcome.running.injEq] at h
      subst h
      left
      rw [shift_ok hshift]
      exact Nat.lt_succ_self _
  · -- The opened node weighs less than the symbol that it is opened for.
    rename_i nt todo htodo
    split at h
    · simp at h
    · rename_i o hexpand
      simp only [Outcome.running.injEq] at h
      subst h
      right
      refine ⟨rfl, ?_⟩
      obtain ⟨hdepth, hat, hlen⟩ := expand_ok hexpand
      have hcost : symbolCost (maxLength u.grammar)
          (u.maxDepth - s.top.depthAt s.position) =
          2 + maxLength u.grammar *
            symbolCost (maxLength u.grammar) (u.maxDepth - (s.top.depthAt s.position + 1)) := by
        have : u.maxDepth - s.top.depthAt s.position =
            (u.maxDepth - (s.top.depthAt s.position + 1)) + 1 := by omega
        rw [this, symbolCost]
      have htop : nodeCost u s.position s.top =
          nodeCost u s.position (s.top.await todo) +
            symbolCost (maxLength u.grammar) (u.maxDepth - s.top.depthAt s.position) := by
        have hdep : (s.top.await todo).depthAt s.position = s.top.depthAt s.position := rfl
        have hlen : (s.top.await todo).todo.length = todo.length := rfl
        simp only [nodeCost, htodo, List.length_cons, Nat.add_mul, Nat.one_mul, hdep, hlen]
        omega
      have hnew : nodeCost u s.position o ≤ 1 + maxLength u.grammar *
          symbolCost (maxLength u.grammar) (u.maxDepth - (s.top.depthAt s.position + 1)) := by
        simp only [nodeCost, hat]
        exact Nat.add_le_add_left (Nat.mul_le_mul_right _ hlen) 1
      simp only [weight, pathCost]
      omega

/-- Runs the parser until the tree is complete. -/
def run (u : Setup) (s : State) : Except ParseError (ParseTree × List Token) :=
  match h : step u s with
  | .failed e => .error e
  | .finished tree rest => .ok (tree, rest)
  | .running s' =>
      have : s'.tokens.length < s.tokens.length ∨
          s'.tokens.length = s.tokens.length ∧ weight u s' < weight u s := step_decreases h
      run u s'
termination_by (s.tokens.length, weight u s)
decreasing_by
  rcases this with hlt | ⟨heq, hlt⟩
  · exact Prod.Lex.left _ _ hlt
  · rw [heq]
    exact Prod.Lex.right _ hlt

/-- Parses a row of tokens as the start of the grammar. No token may be left. -/
def parse (g : Grammar) (table : ParseTable) (tokens : List Token) : Except ParseError ParseTree :=
  let u : Setup := ⟨g, table, endPosition tokens⟩
  match u.expand g.start tokens 0 0 with
  | .error e => .error e
  | .ok top =>
      match run u { top, below := [], tokens, position := 0 } with
      | .error e => .error e
      | .ok (tree, []) => .ok tree
      | .ok (_, t :: _) => .error (u.about t fun found => .unconsumedInput found t.position)

end SmallLang.Parser
