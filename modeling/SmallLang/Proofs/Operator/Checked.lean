import SmallLang.Proofs.Nodes
import SmallLang.Proofs.Operator.OneStep
import SmallLang.Proofs.Operator.Origin

/-!
# A fold that makes up for nothing

Where a child is missing, a construction falls back on a default or on the empty list. The checked fold
does not: `Construction.applyTaken` takes children out of their places and fails where there is none, or
none any more, and `ParseTree.run` also fails where an operand has no tail, and where a tail has none
of the forms of a tail. It records the steps that it takes, each with what the children were parsed as.

Whatever the checked fold of a construction yields is what the construction yields
(`Construction.apply_of_applyTaken`). On the trees of a stratified grammar it does not fail, if it does
not for the declared productions; each step is then one of a declared production, whose symbols the
children were parsed for (`Grammar.Staged.exists_run`).
-/

set_option autoImplicit false

namespace SmallLang

open List (Forall₂)

/-! ## One step -/

/-- Takes children by their numbers, one after the other. None can be taken where there is none, and
where one was taken before. -/
def takeAll (children : List (Option Value)) : List Nat → Option (List Value)
  | [] => some []
  | i :: is => do
      let v ← children[i]?.join
      let vs ← takeAll (children.set i none) is
      return v :: vs

namespace Construction

/-- The children that a construction takes, in order. -/
def taken : Construction → List Nat
  | node _ slots => slots.map Slot.child
  | child i => [i]
  | listHead => [0, 1]
  | listNext => [1, 2]
  | _ => []

/-- What is built from the children that were taken. The rest of a list has to be a list, and the parts
of operator levels build nothing. -/
def build? : Construction → List Value → Option Value
  | node kind slots, vs => some (.node kind ((slots.map Slot.field).zip vs))
  | child _, [v] => some v
  | emptyList, _ => some .empty
  | listHead, [element, .list rest] => some (.list (element :: rest))
  | listNext, [element, .list rest] => some (.list (element :: rest))
  | _, _ => none

/-- One step of construction without defaults and without empty lists in the place of children. -/
def applyTaken (c : Construction) (children : List Value) : Option Value :=
  (takeAll (children.map some) c.taken).bind c.build?

end Construction

/-- What was taken cannot be taken again, all else can. -/
theorem join_getElem?_set_none {children : List (Option Value)} {i j : Nat} {v : Value} :
    (children.set i none)[j]?.join = some v ↔ j ≠ i ∧ children[j]?.join = some v := by
  rw [List.getElem?_set]
  by_cases hij : i = j
  · rw [if_pos hij]
    split <;> simp [hij]
  · rw [if_neg hij]
    exact ⟨fun h => ⟨Ne.symm hij, h⟩, And.right⟩

theorem takeAll_eq_some_iff {children : List (Option Value)} {is : List Nat} {vs : List Value} :
    takeAll children is = some vs ↔
      is.Nodup ∧ Forall₂ (fun i v => children[i]?.join = some v) is vs := by
  induction is generalizing children vs with
  | nil =>
      rw [takeAll, Option.some.injEq, List.forall₂_nil_left_iff]
      exact ⟨fun h => ⟨List.nodup_nil, h.symm⟩, fun h => h.2.symm⟩
  | cons i is ih =>
      have hrest : ∀ ws, takeAll (children.set i none) is = some ws ↔
          is.Nodup ∧ (∀ j ∈ is, j ≠ i) ∧ Forall₂ (fun j v => children[j]?.join = some v) is ws := by
        intro ws
        simp only [ih, join_getElem?_set_none, List.forall₂_and_left]
      simp only [takeAll, Option.bind_eq_bind, Option.pure_def, Option.bind_eq_some_iff,
        Option.some.injEq, hrest, List.nodup_cons, List.forall₂_cons_left_iff]
      constructor
      · rintro ⟨v, hv, ws, ⟨hnodup, hne, hws⟩, rfl⟩
        exact ⟨⟨fun hmem => hne i hmem rfl, hnodup⟩, v, ws, hv, hws, rfl⟩
      · rintro ⟨⟨hnot, hnodup⟩, v, ws, hv, hws, rfl⟩
        exact ⟨v, hv, ws, ⟨hnodup, fun j hj => ne_of_mem_of_not_mem hj hnot, hws⟩, rfl⟩

theorem takeAll_map_some_iff {vs ws : List Value} {is : List Nat} :
    takeAll (vs.map some) is = some ws ↔ is.Nodup ∧ Forall₂ (fun i w => vs[i]? = some w) is ws := by
  rw [takeAll_eq_some_iff]
  have hget : ∀ i : Nat, (vs.map some)[i]?.join = vs[i]? := by
    intro i
    rw [List.getElem?_map]
    cases vs[i]? <;> rfl
  simp only [hget]

namespace Construction

variable {c : Construction} {vs : List Value} {v : Value}

theorem applyTaken_eq_some_iff :
    c.applyTaken vs = some v ↔
      ∃ ws, c.taken.Nodup ∧ Forall₂ (fun i w => vs[i]? = some w) c.taken ws ∧ c.build? ws = some v := by
  rw [applyTaken, Option.bind_eq_some_iff]
  simp only [takeAll_map_some_iff, and_assoc]

/-- Where nothing has to be made up for, the checked step is the step. -/
theorem apply_of_applyTaken (h : c.applyTaken vs = some v) : c.apply vs = v := by
  obtain ⟨ws, -, hws, hbuild⟩ := applyTaken_eq_some_iff.1 h
  cases c with
  | node kind slots =>
      obtain rfl := Option.some.inj hbuild
      rw [taken, List.forall₂_map_left_iff] at hws
      rw [apply, Value.node.injEq]
      refine ⟨rfl, ?_⟩
      clear h hbuild
      induction hws with
      | nil => rfl
      | @cons slot w _ _ hw _ ih =>
          rw [List.map_cons, List.map_cons, List.zip_cons_cons, ih, Slot.value, hw]
          rfl
  | child i =>
      cases hws with
      | @cons _ w _ _ hw hws =>
          cases hws
          rw [apply, hw]
          exact Option.some.inj hbuild
  | emptyList => exact Option.some.inj hbuild
  | listHead | listNext =>
      obtain ⟨element, rest, rfl, helement, hrest⟩ := forall₂_pair hws
      cases rest with
      | list items =>
          obtain rfl := Option.some.inj hbuild
          rw [apply, helement, hrest]
          rfl
      | _ => exact absurd hbuild (by simp [build?])
  | climb | operator _ _ | endOfTail => exact absurd hbuild (by simp [build?])

/-- The nodes of what is built are those of the children, and the node that is built itself. -/
theorem allNodes_of_applyTaken {N : String → List (String × Value) → Prop}
    (h : c.applyTaken vs = some v) (hvs : ∀ w ∈ vs, w.AllNodes N)
    (hnode : ∀ kind slots, c = .node kind slots → ∀ fields, v = .node kind fields → N kind fields) :
    v.AllNodes N := by
  obtain ⟨ws, -, hws, hbuild⟩ := applyTaken_eq_some_iff.1 h
  have htaken : ∀ w ∈ ws, w.AllNodes N := by
    intro w hw
    obtain ⟨i, -, hi⟩ := exists_of_forall₂_right hws hw
    exact hvs w (List.mem_of_getElem? hi)
  -- A list holds the element that was taken, and the items of the list that was taken after it.
  have hlist : ∀ element rest, ws = [element, .list rest] →
      (Value.list (element :: rest)).AllNodes N := by
    rintro element rest rfl
    obtain ⟨helement, hrest⟩ := List.forall_mem_cons.1 htaken
    have hitems := Value.allNodes_list_iff.1 (List.forall_mem_singleton.1 hrest)
    exact Value.allNodes_list_iff.2 (List.forall_mem_cons.2 ⟨helement, hitems⟩)
  clear hws
  unfold build? at hbuild
  split at hbuild
  · obtain rfl := Option.some.inj hbuild
    refine Value.allNodes_node_iff.2 ⟨hnode _ _ rfl _ rfl, fun f hf => ?_⟩
    exact htaken f.2 (List.of_mem_zip hf).2
  · obtain rfl := Option.some.inj hbuild
    exact htaken _ List.mem_cons_self
  · obtain rfl := Option.some.inj hbuild
    exact Value.allNodes_empty
  · exact Option.some.inj hbuild ▸ hlist _ _ rfl
  · exact Option.some.inj hbuild ▸ hlist _ _ rfl
  · exact absurd hbuild (by simp)

end Construction

/-! ## The fold -/

/-- A step of the fold: a construction, its operands and what is built. With the value of each operand
comes the symbol that it was parsed as. What the operators before have built stands in the place of the
operand that the level began with. -/
structure FoldStep where
  construction : Construction
  operands : List (Symbol × Value)
  result : Value

/-- The step builds a node of its own. -/
def FoldStep.Builds (b : FoldStep) (kind : String) (fields : List (String × Value)) : Prop :=
  (∃ slots, b.construction = .node kind slots) ∧ b.result = .node kind fields

/-- What the checked fold makes of a tree: its value, and what it makes of the value before it as the
tail of an operator level, each with the steps that were taken. -/
structure Run where
  root : Symbol
  value : Option (Value × List FoldStep)
  after : Symbol → Value → Option (Value × List FoldStep)

namespace Run

/-- The operands of a row of children, and the steps to their values. -/
def row : List Run → Option (List (Symbol × Value) × List FoldStep)
  | [] => some ([], [])
  | r :: rs => do
      let (v, steps) ← r.value
      let (operands, steps') ← row rs
      return ((r.root, v) :: operands, steps ++ steps')

/-- One step over operands, after the steps to their values. -/
def step (c : Construction) (operands : List (Symbol × Value)) (steps : List FoldStep) :
    Option (Value × List FoldStep) := do
  let v ← c.applyTaken (operands.map Prod.snd)
  return (v, steps ++ [⟨c, operands, v⟩])

/-- An operand, and then its tail. -/
def climb : List Run → Option (Value × List FoldStep)
  | [operand, tail] => do
      let (left, steps) ← operand.value
      let (v, steps') ← tail.after operand.root left
      return (v, steps ++ steps')
  | _ => none

/-- An operator over the value before it, and then the rest of the tail where it goes on. -/
def operate (inner : Construction) (looping : Bool) (children : List Run) (root : Symbol)
    (left : Value) : Option (Value × List FoldStep) := do
  let (operands, steps) ← row (if looping then children.dropLast else children)
  let (v, steps) ← step inner ((root, left) :: operands) steps
  if looping then
    let tail ← children.getLast?
    let (w, steps') ← tail.after root v
    return (w, steps ++ steps')
  else return (v, steps)

/-- The run of a node, by the runs of its children. -/
def ofNode (root : Symbol) (construction : Construction) (children : List Run) : Run :=
  match construction with
  | .climb => ⟨root, climb children, fun _ _ => none⟩
  | .operator inner looping => ⟨root, none, operate inner looping children⟩
  | .endOfTail => ⟨root, none, fun _ left => some (left, [])⟩
  | c => ⟨root, (row children).bind fun (operands, steps) => step c operands steps, fun _ _ => none⟩

theorem step_eq_some {c : Construction} {operands : List (Symbol × Value)} {v : Value}
    (h : c.applyTaken (operands.map Prod.snd) = some v) (steps : List FoldStep) :
    step c operands steps = some (v, steps ++ [⟨c, operands, v⟩]) := by
  rw [step, h]
  rfl

/-- A step that succeeds is no part of an operator level, so it stands for the node. -/
theorem value_ofNode {c : Construction} {rs : List Run} {operands : List (Symbol × Value)}
    {steps : List FoldStep} {v : Value} (hrow : row rs = some (operands, steps))
    (h : c.applyTaken (operands.map Prod.snd) = some v) (root : Symbol) :
    (ofNode root c rs).value = some (v, steps ++ [⟨c, operands, v⟩]) := by
  obtain ⟨ws, -, -, hbuild⟩ := Construction.applyTaken_eq_some_iff.1 h
  have hvalue : (ofNode root c rs).value =
      (row rs).bind fun (operands, steps) => step c operands steps := by
    cases c with
    | climb | operator _ _ | endOfTail => exact absurd hbuild (by simp [Construction.build?])
    | _ => rfl
  rw [hvalue, hrow]
  exact step_eq_some h steps

theorem operate_ending {inner : Construction} {rs : List Run} {operands : List (Symbol × Value)}
    {steps : List FoldStep} {root : Symbol} {left v : Value} (hrow : row rs = some (operands, steps))
    (h : inner.applyTaken (left :: operands.map Prod.snd) = some v) :
    operate inner false rs root left =
      some (v, steps ++ [⟨inner, (root, left) :: operands, v⟩]) := by
  have hstep : step inner ((root, left) :: operands) steps = _ := step_eq_some h steps
  simp [operate, hrow, hstep]

theorem operate_looping {inner : Construction} {rs : List Run} {tail : Run}
    {operands : List (Symbol × Value)} {steps steps' : List FoldStep} {root : Symbol} {left v w : Value}
    (hrow : row rs = some (operands, steps))
    (h : inner.applyTaken (left :: operands.map Prod.snd) = some v)
    (htail : tail.after root v = some (w, steps')) :
    operate inner true (rs ++ [tail]) root left =
      some (w, steps ++ [⟨inner, (root, left) :: operands, v⟩] ++ steps') := by
  have hstep : step inner ((root, left) :: operands) steps = _ := step_eq_some h steps
  simp [operate, hrow, hstep, htail]

end Run

namespace ParseTree

mutual

/-- The checked fold of a tree. -/
def run (g : Grammar) : ParseTree → Run
  | token t => ⟨.terminal t.terminal, some (t.value, []), fun _ _ => none⟩
  | node nt p children => .ofNode (.nonTerminal nt) (g.constructionOf nt p) (runAll g children)

/-- The checked fold of each of some trees. -/
def runAll (g : Grammar) : List ParseTree → List Run
  | [] => []
  | t :: ts => run g t :: runAll g ts

end

theorem runAll_eq_map (g : Grammar) (ts : List ParseTree) : runAll g ts = ts.map (run g) := by
  induction ts with
  | nil => rfl
  | cons t ts ih => simp only [runAll, List.map_cons, ih]

theorem run_node {g : Grammar} {nt p : Nat} {children : List ParseTree} :
    (node nt p children).run g =
      .ofNode (.nonTerminal nt) (g.constructionOf nt p) (children.map (run g)) := by
  rw [run, runAll_eq_map]

@[simp] theorem root_run (g : Grammar) (t : ParseTree) : (t.run g).root = t.root := by
  cases t with
  | token t => rfl
  | node nt p children =>
      rw [run_node, root]
      unfold Run.ofNode
      split <;> rfl

end ParseTree

/-! ## What the steps account for -/

namespace Grammar

/-- The operand was parsed for the symbol. In the place of the rest of a list it is a list. -/
def Fits (g : Grammar) (types : Nat) (s : Symbol) (o : Symbol × Value) : Prop :=
  g.ParsedFor s o.1 ∧ ∀ n, types ≤ n → s = .nonTerminal n → ∃ items, o.2 = .list items

/-- The step is one of a declared production, over an operand for each of its symbols, and takes only
what is there. -/
def Justifies (g : Grammar) (types : Nat) (b : FoldStep) : Prop :=
  ∃ m, ∃ q ∈ g.productionsOf m, b.construction = q.construction ∧
    Forall₂ (g.Fits types) q.symbols b.operands ∧
    b.construction.applyTaken (b.operands.map Prod.snd) = some b.result

/-- The declared productions take what is there. -/
def TakesAll (g : Grammar) (types : Nat) : Prop :=
  ∀ m, ∀ q ∈ g.productionsOf m, ∀ operands : List (Symbol × Value),
    Forall₂ (g.Fits types) q.symbols operands →
      ∃ v, q.construction.applyTaken (operands.map Prod.snd) = some v

/-- The steps are justified, and lead from some values to others: every node of these is one of the
former values, or is built by a step. -/
structure Accounts (g : Grammar) (types : Nat) (steps : List FoldStep) (given values : List Value) :
    Prop where
  justified : ∀ b ∈ steps, g.Justifies types b
  nodes : ∀ N : String → List (String × Value) → Prop, (∀ w ∈ given, w.AllNodes N) →
    (∀ b ∈ steps, ∀ kind fields, b.Builds kind fields → N kind fields) →
    ∀ v ∈ values, v.AllNodes N

namespace Accounts

variable {g : Grammar} {types : Nat} {steps steps' : List FoldStep} {given vs ws : List Value}
  {v w : Value}

theorem nil (g : Grammar) (types : Nat) (vs : List Value) : g.Accounts types [] vs vs :=
  ⟨fun _ hb => absurd hb List.not_mem_nil, fun _ hvs _ => hvs⟩

theorem of_subset (h : g.Accounts types steps given vs) {given' : List Value}
    (hsub : given ⊆ given') : g.Accounts types steps given' vs :=
  ⟨h.justified, fun N hgiven hsteps => h.nodes N (fun w hw => hgiven w (hsub hw)) hsteps⟩

theorem trans (h : g.Accounts types steps given vs) (h' : g.Accounts types steps' vs ws) :
    g.Accounts types (steps ++ steps') given ws := by
  refine ⟨List.forall_mem_append.2 ⟨h.justified, h'.justified⟩, fun N hgiven hsteps => ?_⟩
  obtain ⟨hleft, hright⟩ := List.forall_mem_append.1 hsteps
  exact h'.nodes N (h.nodes N hgiven hleft) hright

theorem cons (h : g.Accounts types steps given [v]) (h' : g.Accounts types steps' given vs) :
    g.Accounts types (steps ++ steps') given (v :: vs) := by
  refine ⟨List.forall_mem_append.2 ⟨h.justified, h'.justified⟩, fun N hgiven hsteps => ?_⟩
  obtain ⟨hleft, hright⟩ := List.forall_mem_append.1 hsteps
  exact List.forall_mem_cons.2
    ⟨h.nodes N hgiven hleft v List.mem_cons_self, h'.nodes N hgiven hright⟩

/-- One step leads from its operands to its result. -/
theorem step {c : Construction} {operands : List (Symbol × Value)}
    (hjustified : g.Justifies types ⟨c, operands, v⟩)
    (htakes : c.applyTaken (operands.map Prod.snd) = some v) :
    g.Accounts types [⟨c, operands, v⟩] (operands.map Prod.snd) [v] := by
  refine ⟨List.forall_mem_singleton.2 hjustified, fun N hgiven hsteps => ?_⟩
  refine List.forall_mem_singleton.2 (Construction.allNodes_of_applyTaken htakes hgiven ?_)
  intro kind slots hc fields hv
  exact hsteps _ (List.mem_singleton_self _) kind fields ⟨⟨slots, hc⟩, hv⟩

end Accounts

/-- The checked fold of the tree finds its value, by steps that account for it. -/
def HasRun (g : Grammar) (types : Nat) (t : ParseTree) : Prop :=
  ∃ steps, (t.run g.stratify).value = some (t.value g.stratify, steps) ∧
    g.Accounts types steps [] [t.value g.stratify]

/-- After an operand of the ladder of `x`, the checked fold of the tree finds what the tree makes of the
value before it, by steps that account for it. -/
def HasTailRun (g : Grammar) (types x : Nat) (t : ParseTree) : Prop :=
  ∀ root left, g.ParsedFor (.nonTerminal x) root → ∃ steps,
    (t.run g.stratify).after root left = some ((t.meaning g.stratify).climb left, steps) ∧
      g.Accounts types steps [left] [(t.meaning g.stratify).climb left]

/-- What the checked fold knows of a tree: what it was parsed as, and its value. -/
def operandOf (g : Grammar) (t : ParseTree) : Symbol × Value := (t.root, t.value g.stratify)

theorem map_snd_operandOf (g : Grammar) (ts : List ParseTree) :
    (ts.map g.operandOf).map Prod.snd = ts.map (ParseTree.value g.stratify) := by
  rw [List.map_map]
  rfl

/-- The operands of a row of children. -/
theorem exists_operands {g : Grammar} {types : Nat} {cs : List ParseTree}
    (hcs : ∀ c ∈ cs, g.HasRun types c) :
    ∃ steps, Run.row (cs.map (ParseTree.run g.stratify)) = some (cs.map g.operandOf, steps) ∧
      g.Accounts types steps [] (cs.map (ParseTree.value g.stratify)) := by
  induction cs with
  | nil => exact ⟨[], rfl, .nil g types []⟩
  | cons c cs ih =>
      obtain ⟨hc, hcs⟩ := List.forall_mem_cons.1 hcs
      obtain ⟨steps, hvalue, haccounts⟩ := hc
      obtain ⟨steps', hrow, haccounts'⟩ := ih hcs
      refine ⟨steps ++ steps', ?_, haccounts.cons haccounts'⟩
      rw [List.map_cons, Run.row, hvalue, hrow, ParseTree.root_run]
      rfl

/-- A step of a declared production succeeds, and is accounted for. -/
theorem TakesAll.step {g : Grammar} {types : Nat} (h : g.TakesAll types) {m : Nat} {q : Production}
    (hq : q ∈ g.productionsOf m) {operands : List (Symbol × Value)}
    (hfits : Forall₂ (g.Fits types) q.symbols operands) :
    q.construction.applyTaken (operands.map Prod.snd) =
        some (q.construction.apply (operands.map Prod.snd)) ∧
      g.Accounts types [⟨q.construction, operands, q.construction.apply (operands.map Prod.snd)⟩]
        (operands.map Prod.snd) [q.construction.apply (operands.map Prod.snd)] := by
  obtain ⟨v, hv⟩ := h m q hq operands hfits
  obtain rfl := Construction.apply_of_applyTaken hv
  exact ⟨hv, .step ⟨m, q, hq, rfl, hfits, hv⟩ hv⟩

/-! ## Every tree -/

namespace Staged

variable {types : Nat} {g : Grammar}

/-- The rest of a list is a list. -/
theorem exists_items {size : Nat} (h : g.Staged types size) {n : Nat} (hge : types ≤ n)
    (hlt : n < size) {t : ParseTree} (ht : g.Derives (.nonTerminal n) t) :
    ∃ items, t.value g = .list items := by
  obtain ⟨k, p, children, rfl, hp, -⟩ := derives_nonTerminal_iff.1 ht
  rw [ParseTree.value, ParseTree.meaning_node, constructionOf_eq hp]
  rcases h.declared n hlt p (mem_productionsOf_iff.2 ⟨k, hp⟩) with hd | ⟨hn, -⟩
  · cases hd with
    | node kind slots prec hn hs => exact absurd hn (Nat.not_lt.2 hge)
    | child place prec hn hs => exact absurd hn (Nat.not_lt.2 hge)
    | emptyList prec => exact ⟨[], rfl⟩
    | listHead prec hn hs hrest hlt => exact absurd hn (Nat.not_lt.2 hge)
    | listNext divider prec _ hs hrest hlt => exact ⟨_, rfl⟩
  · exact absurd hn (Nat.not_lt.2 hge)

variable (h : g.Staged types g.size)
include h

/-- What was parsed for a symbol is an operand for it. -/
theorem fits_operandOf {s : Symbol} {c : ParseTree} (hs : g.ParsedFor s c.root)
    (hc : g.stratify.Derives c.root c) : g.Fits types s (g.operandOf c) := by
  refine ⟨hs, ?_⟩
  rintro n hn rfl
  have hroot := h.eq_of_parsedFor_rest hn hs
  exact h.stratify.exists_items hn hs.hasSymbol (hroot ▸ hc)

/-- The children of a production are operands for the symbols that they were parsed for. -/
theorem fits_row {ss ss' : List Symbol} (hss : Forall₂ g.ParsedFor ss ss') {cs : List ParseTree}
    (hcs : g.stratify.DerivesRow ss' cs) :
    Forall₂ (g.Fits types) ss (cs.map g.operandOf) := by
  induction hss generalizing cs with
  | nil =>
      cases hcs
      exact .nil
  | cons hs _ ih =>
      cases hcs with
      | cons hc hcs =>
          obtain ⟨rfl, hderivation⟩ := hc
          exact .cons (h.fits_operandOf hs ⟨rfl, hderivation⟩) (ih hcs)

/-- What the operators of a ladder have built is an operand for its non-terminal, wherever the level
began. -/
theorem fits_left {x : Nat} {next : Symbol} (hnext : g.TailOf x next) {root : Symbol}
    (hroot : g.ParsedFor (.nonTerminal x) root) (left : Value) :
    g.Fits types (.nonTerminal x) (root, left) := by
  refine ⟨hroot, fun n hn heq => ?_⟩
  obtain rfl := Symbol.nonTerminal.inj heq
  obtain ⟨hx, hladder⟩ := hnext.hasLadder
  exact absurd (h.lt_types_of_hasLadder hx hladder) (Nat.not_lt.2 hn)

omit h in
/-- The children of a production have a checked fold, if what was parsed for a symbol has one. -/
theorem hasRun_row {ss ss' : List Symbol} (hss : Forall₂ g.ParsedFor ss ss') {cs : List ParseTree}
    (hcs : g.stratify.DerivesRow ss' cs)
    (hoperands : ∀ c ∈ cs, ∀ s, g.ParsedFor s c.root → g.HasRun types c) :
    ∀ c ∈ cs, g.HasRun types c := by
  intro c hc
  obtain ⟨s', hs', hroot, -⟩ := exists_of_forall₂_right hcs hc
  obtain ⟨s, -, hs⟩ := exists_of_forall₂_right hss hs'
  exact hoperands c hc s (hroot ▸ hs)

section Node

variable {nt i : Nat} {p : Production} {cs : List ParseTree}
  (hp : g.stratify.production? nt i = some p)
  (hoperands : ∀ c ∈ cs, ∀ s, g.ParsedFor s c.root → g.HasRun types c)
include hp hoperands

/-- A node that comes from a declared production. -/
theorem hasRun_of_fromDeclared (htakes : g.TakesAll types) (hfrom : g.FromDeclared p)
    (hc : g.stratify.DerivesRow p.symbols cs) : g.HasRun types (.node nt i cs) := by
  obtain ⟨m, q, hq, hconstruction, hsymbols⟩ := hfrom
  -- The children fit the declared symbols, and the children of a declared production can be taken.
  obtain ⟨htaken, hstep⟩ := htakes.step hq (h.fits_row hsymbols hc)
  obtain ⟨steps, hrow, haccounts⟩ := exists_operands (hasRun_row hsymbols hc hoperands)
  have hrun := Run.value_ofNode hrow htaken (.nonTerminal nt)
  rw [map_snd_operandOf] at hstep hrun
  have hclimb : p.construction ≠ .climb := by
    rw [hconstruction]
    exact (h.declared_of_mem hq).construction_ne_climb
  have hvalue := h.stratify.value_node_eq_apply h.listsDeclared_stratify hp hclimb hc
  rw [hconstruction] at hvalue
  rw [HasRun, hvalue, ParseTree.run_node, constructionOf_eq hp, hconstruction]
  exact ⟨_, hrun, haccounts.trans hstep⟩

variable (htails : ∀ c ∈ cs, ∀ x, g.TailOf x c.root → g.HasTailRun types x c)
include htails

omit h in
/-- An operand of a ladder, with the tail after it. -/
theorem hasRun_of_climbsLadder (hclimbs : g.ClimbsLadder p)
    (hc : g.stratify.DerivesRow p.symbols cs) : g.HasRun types (.node nt i cs) := by
  obtain ⟨x, operand, next, hsymbols, hconstruction, hoperand, hnext⟩ := hclimbs
  rw [hsymbols] at hc
  obtain ⟨c, c', rfl, ⟨rfl, -⟩, ⟨rfl, -⟩⟩ := forall₂_pair hc
  obtain ⟨steps, hvalue, haccounts⟩ := hoperands c List.mem_cons_self _ hoperand
  obtain ⟨steps', hafter, haccounts'⟩ :=
    htails c' (List.mem_cons_of_mem _ List.mem_cons_self) x hnext c.root (c.value g.stratify) hoperand
  refine ⟨steps ++ steps', ?_, ?_⟩
  · rw [ParseTree.run_node, ParseTree.value, ParseTree.meaning_node, constructionOf_eq hp,
      hconstruction]
    simp only [Run.ofNode, List.map_cons, List.map_nil, Run.climb, hvalue, ParseTree.root_run,
      Option.bind_eq_bind, Option.bind_some, hafter]
    rfl
  · rw [ParseTree.value, ParseTree.meaning_node, constructionOf_eq hp, hconstruction]
    exact haccounts.trans haccounts'

/-- An operator after an operand of its ladder, with the rest of the tail where it goes on. -/
theorem hasTailRun_of_operatesOn (htakes : g.TakesAll types) {x : Nat}
    (hx : g.TailOf x (.nonTerminal nt)) (hoperates : g.OperatesOn x p)
    (hc : g.stratify.DerivesRow p.symbols cs) : g.HasTailRun types x (.node nt i cs) := by
  intro root left hroot
  obtain ⟨m, q, hq, rest, symbols, hq', hrest, hforms⟩ := hoperates
  -- The step over the value before the operator, and over its other operands.
  have hoperator : ∀ us : List ParseTree, g.stratify.DerivesRow symbols us → (∀ c ∈ us, c ∈ cs) →
      ∃ steps, Run.row (us.map (ParseTree.run g.stratify)) = some (us.map g.operandOf, steps) ∧
        q.construction.applyTaken (left :: (us.map g.operandOf).map Prod.snd) =
          some (q.construction.apply (left :: us.map (ParseTree.value g.stratify))) ∧
        g.Accounts types (steps ++ [⟨q.construction, (root, left) :: us.map g.operandOf,
          q.construction.apply (left :: us.map (ParseTree.value g.stratify))⟩]) [left]
          [q.construction.apply (left :: us.map (ParseTree.value g.stratify))] := by
    intro us hus hsub
    have hfits : Forall₂ (g.Fits types) q.symbols ((root, left) :: us.map g.operandOf) := by
      rw [hq']
      exact .cons (h.fits_left hx hroot left) (h.fits_row hrest hus)
    obtain ⟨htaken, hstep⟩ := htakes.step hq hfits
    obtain ⟨steps, hrow, haccounts⟩ :=
      exists_operands (hasRun_row hrest hus fun c hc => hoperands c (hsub c hc))
    rw [List.map_cons, map_snd_operandOf] at htaken hstep
    refine ⟨steps, hrow, by rwa [map_snd_operandOf], ?_⟩
    have hall := (Accounts.nil g types [left]).cons (haccounts.of_subset (List.nil_subset [left]))
    rw [List.nil_append] at hall
    exact hall.trans hstep
  have hvalues : ∀ us : List ParseTree, (us.map (ParseTree.meaning g.stratify)).map Meaning.value =
      us.map (ParseTree.value g.stratify) := fun us => List.map_map
  rw [ParseTree.run_node, ParseTree.meaning_node, constructionOf_eq hp]
  rcases hforms with ⟨hsymbols, hconstruction⟩ | ⟨next, hnext, hsymbols, hconstruction⟩
  · rw [hsymbols] at hc
    obtain ⟨steps, hrow, htaken, haccounts⟩ := hoperator cs hc fun c hc => hc
    rw [hconstruction]
    simp only [Run.ofNode, Meaning.ofNode, Meaning.operated_ending, hvalues]
    exact ⟨_, Run.operate_ending hrow htaken, haccounts⟩
  · rw [hsymbols] at hc
    obtain ⟨us, ts, rfl, hus, hts⟩ := exists_append_of_forall₂ hc
    cases hts with
    | @cons _ tail _ _ htail hts =>
        cases hts
        obtain ⟨rfl, -⟩ := htail
        obtain ⟨steps, hrow, htaken, haccounts⟩ :=
          hoperator us hus fun c hc => List.mem_append_left _ hc
        obtain ⟨steps', hafter, haccounts'⟩ := htails tail (List.mem_append_right _ List.mem_cons_self)
          x hnext root _ hroot
        rw [hconstruction]
        simp only [Run.ofNode, Meaning.ofNode, List.map_append, List.map_cons, List.map_nil,
          Meaning.operated_looping, hvalues]
        exact ⟨_, Run.operate_looping hrow htaken hafter, haccounts.trans haccounts'⟩

end Node

/-- The checked fold of a tree that was parsed for a declared symbol finds its value, and that of a tail
finds what the tail makes of the value before it. -/
theorem exists_run (htakes : g.TakesAll types) {s' : Symbol} {t : ParseTree}
    (ht : g.stratify.Derives s' t) (htokens : ∀ token ∈ t.tokens, token.value.IsScalar) :
    (∀ s, g.ParsedFor s s' → g.HasRun types t) ∧ ∀ x, g.TailOf x s' → g.HasTailRun types x t := by
  induction ht using Derives.rec_on with
  | token token =>
      refine ⟨fun s hs => ⟨[], rfl, fun b hb => absurd hb List.not_mem_nil, fun N _ _ => ?_⟩, ?_⟩
      · exact List.forall_mem_singleton.2 (Value.allNodes_of_isScalar (htokens token (by simp)))
      · intro x hx
        cases hx
  | node nt i p cs hp hc ih =>
      have hchildren : ∀ c ∈ cs, (∀ s, g.ParsedFor s c.root → g.HasRun types c) ∧
          ∀ x, g.TailOf x c.root → g.HasTailRun types x c := by
        intro c hmem
        obtain ⟨s, -, ⟨rfl, -⟩, hrun⟩ := exists_of_forall₂_right ih hmem
        refine hrun fun token htoken => htokens token ?_
        rw [ParseTree.tokens_node]
        exact List.mem_flatMap.2 ⟨c, hmem, htoken⟩
      have hoperands := fun c hc => (hchildren c hc).1
      have htails := fun c hc => (hchildren c hc).2
      -- What the symbol is in the stratified grammar decides which productions the node can have.
      have hmem := mem_productionsOf_iff.2 ⟨i, hp⟩
      refine ⟨fun s hs => ?_, fun x hx => ?_⟩
      · rcases h.origin_of_parsedFor hs hmem with hfrom | hclimbs
        · exact h.hasRun_of_fromDeclared hp hoperands htakes hfrom hc
        · exact hasRun_of_climbsLadder hp hoperands htails hclimbs hc
      · rcases h.origin_of_tailOf hx hmem with rfl | hoperates
        · intro root left _
          refine ⟨[], ?_, ?_⟩
          · rw [ParseTree.run_node, ParseTree.meaning_node, constructionOf_eq hp]
            rfl
          · rw [ParseTree.meaning_node, constructionOf_eq hp]
            exact .nil g types [left]
        · exact h.hasTailRun_of_operatesOn hp hoperands htails htakes hx hoperates hc

end Staged

end Grammar

end SmallLang
