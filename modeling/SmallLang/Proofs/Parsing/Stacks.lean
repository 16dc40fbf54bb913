import Mathlib
import SmallLang.Proofs.Parsing.Guided
import SmallLang.Proofs.Lookahead.ParseTable

/-!
# The parser as a machine with two stacks

The path of open nodes that the parser keeps can be stored flat: one stack for what is still to be done
(`Frame`), one for the trees that are finished. A frame either expects a symbol, or takes the last
finished trees off and makes them the children of a node. The flat machine has no bound for the nodes
that are opened at one place, so it may run forever, and it could get stuck where trees are missing
(`Stacks.Outcome.stuck`).

Every state that it comes to is the path of open nodes of some consistent state of the parser, written
flat, or the one tree at the end (`Stacks.Flat`). So it is never stuck, whatever table it is given, and it
accepts the tree that the parser returns and no other one (`Parser.parse_sound`).
-/

set_option autoImplicit false

namespace SmallLang.Parser

open Grammar ParseTree
open Parser.Setup (lookahead)

/-! ## The machine -/

/-- What is still to be done. -/
inductive Frame where
  /-- Read a terminal, or open a non-terminal. -/
  | expect (s : Symbol)
  /-- All symbols of the production are matched: the last `count` trees are its children. -/
  | reduce (nonTerminal production count : Nat)

/-- The frames, the next one first, the finished trees, the last one first, and the tokens not
read. -/
structure Stacks where
  frames : List Frame
  values : List ParseTree
  tokens : List Token

namespace Stacks

/-- What a step of the machine leads to. -/
inductive Outcome where
  | running (c : Stacks)
  | accepted (tree : ParseTree)
  | failed (e : ParseError)
  /-- A frame misses trees, a production does not exist, or what is left is no node. -/
  | stuck

/-- The machine before its first step. -/
def initial (g : Grammar) (tokens : List Token) : Stacks :=
  ⟨[.expect (.nonTerminal g.start)], [], tokens⟩

/-- The frames for a production. -/
def opening (nonTerminal production : Nat) (symbols : List Symbol) : List Frame :=
  symbols.map .expect ++ [.reduce nonTerminal production symbols.length]

/-- One step of the machine. -/
def step (u : Setup) : Stacks → Outcome
  | ⟨.expect (.terminal t) :: frames, values, tokens⟩ =>
      match u.shift t tokens with
      | .error e => .failed e
      | .ok (read, rest) => .running ⟨frames, .token read :: values, rest⟩
  | ⟨.expect (.nonTerminal nt) :: frames, values, tokens⟩ =>
      match u.table.get? nt (lookahead tokens) with
      | none => .failed (u.cannotOpen nt tokens)
      | some p =>
          match u.grammar.production? nt p with
          | none => .stuck
          | some production =>
              .running ⟨opening nt p production.symbols ++ frames, values, tokens⟩
  | ⟨.reduce nt p count :: frames, values, tokens⟩ =>
      if count ≤ values.length then
        .running ⟨frames, .node nt p (values.take count).reverse :: values.drop count, tokens⟩
      else .stuck
  | ⟨[], _, t :: _⟩ => .failed (u.about t fun found => .unconsumedInput found t.position)
  | ⟨[], .node nt p children :: _, []⟩ => .accepted (.node nt p children)
  | ⟨[], _, []⟩ => .stuck

/-- The machine comes from one state to another one. -/
abbrev Reaches (u : Setup) : Stacks → Stacks → Prop :=
  Relation.ReflTransGen fun c c' => step u c = .running c'

/-! ## Paths of open nodes, written flat -/

/-- The number of symbols of a production. -/
def arity (g : Grammar) (nt p : Nat) : Nat :=
  ((g.production? nt p).map fun production => production.symbols.length).getD 0

theorem arity_eq {g : Grammar} {nt p : Nat} {production : Production}
    (h : g.production? nt p = some production) : arity g nt p = production.symbols.length := by
  rw [arity, h]
  rfl

/-- The frames of an open node. -/
def framesOf (g : Grammar) (o : Open) : List Frame :=
  o.todo.map .expect ++ [.reduce o.nonTerminal o.production (arity g o.nonTerminal o.production)]

/-- A node that was just opened has the frames of its production. -/
theorem framesOf_opened {g : Grammar} {nt p : Nat} {production : Production}
    (h : g.production? nt p = some production) (children : List ParseTree) (since depth : Nat) :
    framesOf g ⟨nt, p, children, production.symbols, since, depth⟩ =
      opening nt p production.symbols := by
  rw [framesOf, opening, arity_eq h]

/-- The two stacks of a path of open nodes. -/
def ofState (g : Grammar) (s : State) : Stacks :=
  ⟨(s.top :: s.below).flatMap (framesOf g), (s.top :: s.below).flatMap Open.children, s.tokens⟩

/-- The state with the node on top as the first one of its place. -/
def freshened (s : State) : State := { s with top := { s.top with depth := 0 } }

theorem ofState_freshened (g : Grammar) (s : State) : ofState g (freshened s) = ofState g s := rfl

theorem consistent_freshened {g : Grammar} {start : Nat} {input : List Token} {s : State}
    (h : Consistent g start input s) : Consistent g start input (freshened s) :=
  ⟨h.top, h.below, h.outermost, h.read⟩

theorem pathGuided_freshened {table : ParseTable} {s : State}
    (h : PathGuided table (s.top :: s.below) s.tokens) :
    PathGuided table ((freshened s).top :: (freshened s).below) (freshened s).tokens := h

/-- The number of finished children of a complete node is that of its symbols. -/
theorem length_children_of_complete {g : Grammar} {o : Open} (h : o.Consistent g []) :
    arity g o.nonTerminal o.production = o.children.length := by
  obtain ⟨production, done, hp, hsymbols, hdone⟩ := h
  rw [arity_eq hp, hsymbols, List.append_nil, hdone.length_eq, List.length_reverse]

/-- The frame of a complete node finds its children. -/
theorem step_complete {u : Setup} {o : Open} (h : o.Consistent u.grammar []) (htodo : o.todo = [])
    (frames : List Frame) (values : List ParseTree) (tokens : List Token) :
    step u ⟨framesOf u.grammar o ++ frames, o.children ++ values, tokens⟩ =
      .running ⟨frames, o.tree :: values, tokens⟩ := by
  have hlength := length_children_of_complete h
  rw [framesOf, htodo]
  show (if _ then _ else _) = _
  rw [hlength, if_pos (by simp), List.take_left, List.drop_left]
  rfl

variable {g : Grammar} {start : Nat} {input : List Token}

/-- The state of the machine before its first step, the path of a consistent state of the parser,
written flat, or nothing but the finished tree. -/
inductive Flat (g : Grammar) (table : ParseTable) (start : Nat) (input : List Token) :
    Stacks → Prop
  | initial : Flat g table start input ⟨[.expect (.nonTerminal start)], [], input⟩
  | path {s : State} (hconsistent : Consistent g start input s)
      (hguided : PathGuided table (s.top :: s.below) s.tokens) :
      Flat g table start input (ofState g s)
  | finished {tree : ParseTree} {rest : List Token} (hderives : g.Derives (.nonTerminal start) tree)
      (htokens : tree.tokens ++ rest = input) (hguided : Guided table tree rest) :
      Flat g table start input ⟨[], [tree], rest⟩

/-- What a step of the parser leads to, written flat. -/
def ofOutcome (g : Grammar) : Parser.Outcome → Outcome
  | .running s => .running (ofState g s)
  | .finished tree rest => .running ⟨[], [tree], rest⟩
  | .failed e => .failed e

/-- A step of the parser is a step of the machine, as long as another node may be opened. -/
theorem step_ofState {u : Setup} (hfits : u.table.Fits u.grammar) {s : State}
    (hs : Consistent u.grammar start input s)
    (hdepth : ∀ nt todo, s.top.todo = .nonTerminal nt :: todo → nt < u.grammar.size →
      s.top.depthAt s.position < u.maxDepth) :
    step u (ofState u.grammar s) = ofOutcome u.grammar (Parser.step u s) := by
  unfold Parser.step
  split
  · -- A complete node becomes a child of the node around it.
    rename_i htodo
    have htop : s.top.Consistent u.grammar [] := htodo ▸ hs.top
    have hstep := step_complete htop htodo (s.below.flatMap (framesOf u.grammar))
      (s.below.flatMap Open.children) s.tokens
    rw [← List.flatMap_cons, ← List.flatMap_cons] at hstep
    rw [ofState, hstep]
    split
    · rename_i hpath
      rw [hpath]
      rfl
    · rename_i o below hpath
      rw [hpath]
      rfl
  · -- A token is read.
    rename_i t todo htodo
    have hstate : ofState u.grammar s = ⟨.expect (.terminal t) :: (s.top.await todo ::
        s.below).flatMap (framesOf u.grammar), (s.top :: s.below).flatMap Open.children,
        s.tokens⟩ := by
      rw [ofState, List.flatMap_cons, framesOf, htodo]
      rfl
    rw [hstate, step]
    cases u.shift t s.tokens with
    | error e => rfl
    | ok read => rfl
  · -- A node is opened.
    rename_i nt todo htodo
    have hstate : ofState u.grammar s = ⟨.expect (.nonTerminal nt) :: (s.top.await todo ::
        s.below).flatMap (framesOf u.grammar), (s.top :: s.below).flatMap Open.children,
        s.tokens⟩ := by
      rw [ofState, List.flatMap_cons, framesOf, htodo]
      rfl
    rw [hstate, step, Setup.expand]
    cases hget : u.table.get? nt (lookahead s.tokens) with
    | none => rfl
    | some p =>
        obtain ⟨production, hp⟩ := hfits _ _ _ hget
        have hroom := hdepth nt todo htodo (lt_size_of_production? hp)
        simp only [hp, hroom, if_true, Option.map_some, Option.getD_some]
        have hframes := framesOf_opened hp [] s.position (s.top.depthAt s.position + 1)
        simp only [ofOutcome, ofState, List.flatMap_cons, hframes]
        rfl

/-- A step of the parser from the state whose node on top counts as the first one of its place is a step
of the machine, however many nodes there are. -/
theorem step_ofState_freshened {u : Setup} (hfits : u.table.Fits u.grammar) {s : State}
    (hs : Consistent u.grammar start input s) :
    step u (ofState u.grammar s) = ofOutcome u.grammar (Parser.step u (freshened s)) := by
  rw [← ofState_freshened]
  refine step_ofState hfits (consistent_freshened hs) fun nt todo _ hnt => ?_
  have hdepth : (freshened s).top.depthAt (freshened s).position = 0 := ite_self 0
  rw [hdepth]
  exact Nat.lt_of_le_of_lt (Nat.zero_le nt) hnt

/-! ## Runs -/

/-- Each frame that makes a node finds the trees for it, and when no frame is left, there is one node and
nothing else. -/
structure Supplied (c : Stacks) : Prop where
  reduce : ∀ nt p count frames, c.frames = .reduce nt p count :: frames → count ≤ c.values.length
  finish : c.frames = [] → ∃ nt p children, c.values = [.node nt p children]

variable {u : Setup} {c c' : Stacks}

/-- What is left on the stacks never runs short. -/
theorem Flat.step_ne_stuck (hfits : u.table.Fits u.grammar)
    (h : Flat u.grammar u.table start input c) : step u c ≠ .stuck := by
  cases h with
  | initial =>
      rw [Stacks.step]
      cases hget : u.table.get? start (lookahead input) with
      | none => exact Outcome.noConfusion
      | some p =>
          obtain ⟨production, hp⟩ := hfits _ _ _ hget
          simp only [hp]
          exact Outcome.noConfusion
  | @path s hconsistent hguided =>
      rw [step_ofState_freshened hfits hconsistent]
      cases Parser.step u (freshened s) <;> exact Outcome.noConfusion
  | @finished tree rest hderives htokens hguided =>
      obtain ⟨p, production, children, rfl, -, -⟩ := derives_nonTerminal_iff.1 hderives
      cases rest <;> exact Outcome.noConfusion

theorem Flat.supplied (hfits : u.table.Fits u.grammar)
    (h : Flat u.grammar u.table start input c) : Supplied c := by
  refine ⟨?_, ?_⟩
  · intro nt p count frames hframes
    by_contra hshort
    obtain ⟨_, values, tokens⟩ := c
    obtain rfl := hframes
    exact h.step_ne_stuck hfits (if_neg hshort)
  · intro hframes
    cases h with
    | initial => exact absurd hframes (List.cons_ne_nil _ _)
    | @path s hconsistent hguided =>
        have hne : framesOf u.grammar s.top ≠ [] := by simp [framesOf]
        exact absurd (List.append_eq_nil_iff.1 hframes).1 hne
    | @finished tree rest hderives htokens hguided =>
        obtain ⟨p, production, children, rfl, -, -⟩ := derives_nonTerminal_iff.1 hderives
        exact ⟨_, _, _, rfl⟩

theorem Flat.step (hfits : u.table.Fits u.grammar) (h : Flat u.grammar u.table start input c)
    (hstep : Stacks.step u c = .running c') : Flat u.grammar u.table start input c' := by
  cases h with
  | initial =>
      rw [Stacks.step] at hstep
      cases hget : u.table.get? start (lookahead input) with
      | none =>
          rw [hget] at hstep
          exact Outcome.noConfusion hstep
      | some p =>
          obtain ⟨production, hp⟩ := hfits _ _ _ hget
          simp only [hget, hp] at hstep
          obtain rfl := Outcome.running.inj hstep
          rw [← framesOf_opened hp [] 0 0]
          exact .path (s := ⟨⟨start, p, [], production.symbols, 0, 0⟩, [], input, 0⟩)
            ⟨⟨production, [], hp, rfl, .nil⟩, trivial, rfl, rfl⟩ ⟨hget, trivial, trivial⟩
  | @path s hconsistent hguided =>
      have hfresh := consistent_freshened hconsistent
      rw [step_ofState_freshened hfits hconsistent] at hstep
      cases hnext : Parser.step u (freshened s) with
      | running s' =>
          rw [hnext] at hstep
          obtain rfl := Outcome.running.inj hstep
          exact .path (hfresh.step hfits hnext) (PathGuided.step (pathGuided_freshened hguided) hnext)
      | finished tree rest =>
          rw [hnext] at hstep
          obtain rfl := Outcome.running.inj hstep
          obtain ⟨hderives, htokens⟩ := hfresh.derives_of_finished hnext
          exact .finished hderives htokens (PathGuided.guided_of_finished (pathGuided_freshened hguided) hnext)
      | failed e =>
          rw [hnext] at hstep
          exact Outcome.noConfusion hstep
  | @finished tree rest hderives htokens hguided =>
      obtain ⟨p, production, children, rfl, -, -⟩ := derives_nonTerminal_iff.1 hderives
      cases rest <;> exact Outcome.noConfusion hstep

/-- Whatever the machine comes to is the path of a consistent state, or what it begins or ends
with. -/
theorem flat_of_reaches {table : ParseTable} {endsAt : Position} (hfits : table.Fits g)
    {tokens : List Token} {c : Stacks} (h : Reaches ⟨g, table, endsAt⟩ (initial g tokens) c) :
    Flat g table g.start tokens c := by
  induction h with
  | refl => exact .initial
  | tail _ hstep ih => exact ih.step hfits hstep

/-- What the machine accepts is a guided tree of the start symbol. -/
theorem Flat.guided_of_accepted {t : ParseTree} (h : Flat u.grammar u.table start input c)
    (hfits : u.table.Fits u.grammar) (hstep : Stacks.step u c = .accepted t) :
    u.grammar.Derives (.nonTerminal start) t ∧ t.tokens = input ∧ Guided u.table t [] := by
  cases h with
  | initial =>
      rw [Stacks.step] at hstep
      split at hstep
      · exact Outcome.noConfusion hstep
      · split at hstep <;> exact Outcome.noConfusion hstep
  | @path s hconsistent hguided =>
      rw [step_ofState_freshened hfits hconsistent] at hstep
      cases hnext : Parser.step u (freshened s) <;> rw [hnext] at hstep <;>
        exact Outcome.noConfusion hstep
  | @finished tree rest hderives htokens hguided =>
      obtain ⟨p, production, children, rfl, -, -⟩ := derives_nonTerminal_iff.1 hderives
      cases rest with
      | nil =>
          obtain rfl := Outcome.accepted.inj hstep
          exact ⟨hderives, by rw [← htokens, List.append_nil], hguided⟩
      | cons token rest => exact Outcome.noConfusion hstep

/-! ## The machine on a guided tree -/

/-- From a frame that expects a symbol the machine gets to a guided tree of the symbol. -/
def Builds (u : Setup) (s : Symbol) (t : ParseTree) : Prop :=
  ∀ rest, Guided u.table t rest → ∀ (frames : List Frame) (values : List ParseTree),
    Reaches u ⟨.expect s :: frames, values, t.tokens ++ rest⟩ ⟨frames, t :: values, rest⟩

theorem builds_token (u : Setup) (t : Token) : Builds u (.terminal t.terminal) (.token t) := by
  intro rest _ frames values
  apply Relation.ReflTransGen.single
  rw [tokens_token, List.singleton_append, step, Setup.shift, if_pos rfl]

theorem reaches_of_row {ss : List Symbol} {cs : List ParseTree}
    (h : List.Forall₂ (Builds u) ss cs) {rest : List Token} (hguided : GuidedAll u.table cs rest)
    (frames : List Frame) (values : List ParseTree) :
    Reaches u ⟨ss.map .expect ++ frames, values, cs.flatMap ParseTree.tokens ++ rest⟩
      ⟨frames, cs.reverse ++ values, rest⟩ := by
  induction h generalizing values with
  | nil => exact .refl
  | @cons s c ss cs hbuilds _ ih =>
      obtain ⟨hhead, htail⟩ := guidedAll_cons_iff.1 hguided
      have hfirst := hbuilds _ hhead (ss.map .expect ++ frames) values
      have hothers := ih htail (c :: values)
      rw [List.flatMap_cons, List.append_assoc, List.reverse_cons, List.append_assoc]
      exact hfirst.trans hothers

theorem builds_node {nt p : Nat} {production : Production} {children : List ParseTree}
    (hp : u.grammar.production? nt p = some production)
    (h : List.Forall₂ (Builds u) production.symbols children) :
    Builds u (.nonTerminal nt) (.node nt p children) := by
  intro rest hguided frames values
  obtain ⟨hget, hall⟩ := guided_node_iff.1 hguided
  have hopen : step u ⟨.expect (.nonTerminal nt) :: frames, values,
      children.flatMap ParseTree.tokens ++ rest⟩ = .running ⟨opening nt p production.symbols ++
        frames, values, children.flatMap ParseTree.tokens ++ rest⟩ := by
    rw [step, hget]
    simp only [hp]
  have hrow := reaches_of_row h hall
    (.reduce nt p production.symbols.length :: frames) values
  have hclose : step u ⟨.reduce nt p production.symbols.length :: frames,
      children.reverse ++ values, rest⟩ = .running ⟨frames, .node nt p children :: values, rest⟩ := by
    have hlength : production.symbols.length = children.reverse.length := by
      rw [List.length_reverse, h.length_eq]
    rw [step, hlength, if_pos (by simp), List.take_left, List.drop_left, List.reverse_reverse]
  rw [tokens_node]
  refine Relation.ReflTransGen.head hopen (Relation.ReflTransGen.tail ?_ hclose)
  rw [opening, List.append_assoc]
  exact hrow

theorem builds_of_derives {s : Symbol} {t : ParseTree} (h : u.grammar.Derives s t) :
    Builds u s t := by
  induction h using Derives.rec_on with
  | token t => exact builds_token u t
  | node nt p production children hp _ ih =>
      exact builds_node hp (ih.imp fun _ _ hbuilds => hbuilds.choose_spec)

/-- The machine accepts what the parser returns. -/
theorem parse_eq_ok_iff_accepted {table : ParseTable} (hfits : table.Fits g) {tokens : List Token}
    {t : ParseTree} :
    parse g table tokens = .ok t ↔
      ∃ c, Reaches ⟨g, table, endPosition tokens⟩ (initial g tokens) c ∧
        step ⟨g, table, endPosition tokens⟩ c = .accepted t := by
  rw [parse_eq_ok_iff_guided hfits]
  constructor
  · rintro ⟨hderives, rfl, hguided⟩
    have hbuilds := builds_of_derives (u := ⟨g, table, endPosition t.tokens⟩) hderives [] hguided
      [] []
    rw [List.append_nil] at hbuilds
    refine ⟨_, hbuilds, ?_⟩
    obtain ⟨p, production, children, rfl, -, -⟩ := derives_nonTerminal_iff.1 hderives
    rfl
  · rintro ⟨c, hreaches, hstep⟩
    exact (flat_of_reaches hfits hreaches).guided_of_accepted hfits hstep

end Stacks

/-- Every table that is made for a grammar fits it. Whatever fitting table the parser runs with, a tree
that it returns derives the start symbol and has exactly the tokens of the input. It is the tree that the
two stacks accept, and these never run short. -/
theorem parse_sound (g : Grammar) :
    (∀ first follow table, g.parseTable first follow = .ok table → table.Fits g) ∧
    ∀ table, table.Fits g → ∀ tokens,
      (∀ t, parse g table tokens = .ok t →
        g.Derives (.nonTerminal g.start) t ∧ t.tokens = tokens ∧
        ∃ c, Stacks.Reaches ⟨g, table, endPosition tokens⟩ (Stacks.initial g tokens) c ∧
          Stacks.step ⟨g, table, endPosition tokens⟩ c = .accepted t) ∧
      ∀ c, Stacks.Reaches ⟨g, table, endPosition tokens⟩ (Stacks.initial g tokens) c →
        c.Supplied ∧ Stacks.step ⟨g, table, endPosition tokens⟩ c ≠ .stuck ∧
        ∀ t, Stacks.step ⟨g, table, endPosition tokens⟩ c = .accepted t →
          parse g table tokens = .ok t := by
  refine ⟨?_, ?_⟩
  · intro first follow table htable
    rw [(parseTable_eq_ok htable).1]
    exact fits_allCells g first follow
  · intro table hfits tokens
    refine ⟨?_, ?_⟩
    · intro t hparse
      obtain ⟨hderives, htokens⟩ := derives_of_parse hfits hparse
      exact ⟨hderives, htokens, (Stacks.parse_eq_ok_iff_accepted hfits).1 hparse⟩
    · intro c hreaches
      have hflat := Stacks.flat_of_reaches hfits hreaches
      have hsupplied := Stacks.Flat.supplied (u := ⟨g, table, endPosition tokens⟩) hfits hflat
      refine ⟨hsupplied, hflat.step_ne_stuck hfits, fun t hstep => ?_⟩
      exact (Stacks.parse_eq_ok_iff_accepted hfits).2 ⟨c, hreaches, hstep⟩

/-- Nested and chained brackets. -/
def bracketGrammar : Grammar :=
  { nonTerminals :=
      [⟨"Chain", [⟨[.terminal 0, .nonTerminal 0, .terminal 1, .nonTerminal 0], .child 1, .default⟩,
        ⟨[], .emptyList, .lowest⟩]⟩]
    arena := ⟨[.literal "(", .literal ")"]⟩
    start := 0 }

/-- The tokens `( ( ) ) ( )`. -/
def bracketTokens : List Token :=
  [0, 0, 1, 1, 0, 1].map fun i =>
    ⟨i, if i = 0 then "(" else ")", .token (if i = 0 then "(" else ")"), .outside⟩

theorem parse_sound_brackets :
    ∃ table t, bracketGrammar.parseTable bracketGrammar.firstTable
        (bracketGrammar.followTable bracketGrammar.firstTable) = .ok table ∧
      parse bracketGrammar table bracketTokens = .ok t ∧
      bracketGrammar.Derives (.nonTerminal 0) t ∧ t.tokens = bracketTokens := by
  have hcheck : (bracketGrammar.parseTable bracketGrammar.firstTable
      (bracketGrammar.followTable bracketGrammar.firstTable)).toOption.any (fun table =>
        (parse bracketGrammar table bracketTokens).toOption.isSome) = true := by
    cbv
  cases htable : bracketGrammar.parseTable bracketGrammar.firstTable
      (bracketGrammar.followTable bracketGrammar.firstTable) with
  | error e => exact absurd hcheck (by simp [htable, Except.toOption])
  | ok table =>
      cases hparse : parse bracketGrammar table bracketTokens with
      | error e => exact absurd hcheck (by simp [htable, hparse, Except.toOption])
      | ok t =>
          have hfits := (parse_sound bracketGrammar).1 _ _ _ htable
          obtain ⟨hderives, htokens, -⟩ :=
            ((parse_sound bracketGrammar).2 table hfits bracketTokens).1 t hparse
          exact ⟨table, t, rfl, hparse, hderives, htokens⟩

end SmallLang.Parser
