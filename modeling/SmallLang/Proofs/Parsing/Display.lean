import SmallLang.Proofs.Names
import SmallLang.Proofs.Parsing.Earliest

/-!
# The display of a tree

A tree is displayed with a line for each node. The loop that writes the lines keeps a stack of nodes
with their depths: it takes the last one off, writes its line, and pushes its children, the last
child first (`Display.step`). Only the line of the root is written before the loop. The loop ends
with the lines of the nodes in preorder, which is the text of `ParseTree.render`
(`Display.ends_render`).

If no name of a type or of a class is empty, begins with a space or has a line end in it, then this
is true of all that is shown (`IsLine`): marks are put behind a name only, and text from the input
stands between quotes, where line ends are escaped. So the text can be cut into its lines, the
spaces in front of a line tell the depth of its node, and the depths in preorder tell the shape of
the tree (`Shape.eq_of_depths`). No two trees of different shapes are displayed alike
(`Language.display_preorder`).
-/

set_option autoImplicit false

namespace SmallLang

/-! ## Text on one line -/

/-- The text is not empty, stands on one line and does not begin with a space. -/
structure IsLine (s : String) : Prop where
  ne_empty : s ≠ ""
  no_newline : '\n' ∉ s.toList
  no_indent : s.toList.head? ≠ some ' '

namespace IsLine

instance (s : String) : Decidable (IsLine s) :=
  decidable_of_iff (s ≠ "" ∧ '\n' ∉ s.toList ∧ s.toList.head? ≠ some ' ')
    ⟨fun ⟨h, h', h''⟩ => ⟨h, h', h''⟩, fun ⟨h, h', h''⟩ => ⟨h, h', h''⟩⟩

/-- More text on the line does no harm. -/
theorem append {s u : String} (hs : IsLine s) (hu : '\n' ∉ u.toList) : IsLine (s ++ u) := by
  -- As `s` is not empty, the first character is still its own.
  obtain ⟨c, cs, hcs⟩ := List.exists_cons_of_ne_nil (mt String.toList_eq_nil_iff.1 hs.ne_empty)
  have hhead := hs.no_indent
  have hline := hs.no_newline
  refine ⟨fun h => ?_, ?_, ?_⟩
  · exact hs.ne_empty (String.append_eq_empty_iff.1 h).1
  · rw [String.toList_append]
    exact List.not_mem_append hline hu
  · rw [String.toList_append, hcs]
    rwa [hcs] at hhead

/-- The spaces in front of the text are those that were put there. -/
theorem takeWhile_indent {s : String} (hs : IsLine s) (n : Nat) :
    (List.replicate n ' ' ++ s.toList).takeWhile (· == ' ') = List.replicate n ' ' := by
  have hnone : s.toList.takeWhile (· == ' ') = [] := by
    have hhead := hs.no_indent
    cases hs : s.toList with
    | nil => rfl
    | cons c cs =>
        rw [hs, List.head?_cons] at hhead
        exact List.takeWhile_cons_of_neg fun h => hhead (congrArg some (beq_iff_eq.1 h))
  rw [List.takeWhile_append_of_pos fun c hc => beq_iff_eq.2 (List.eq_of_mem_replicate hc), hnone,
    List.append_nil]

/-- A line with spaces in front tells their number and the text. -/
theorem indent_inj {s s' : String} (hs : IsLine s) (hs' : IsLine s') {n n' : Nat}
    (h : List.replicate n ' ' ++ s.toList = List.replicate n' ' ' ++ s'.toList) :
    n = n' ∧ s = s' := by
  have hspaces := hs.takeWhile_indent n
  rw [h, hs'.takeWhile_indent n'] at hspaces
  obtain rfl : n' = n := by simpa using congrArg List.length hspaces
  exact ⟨rfl, String.toList_inj.1 (List.append_cancel_left h)⟩

end IsLine

namespace Text

/-- No digit of a number is a line end. -/
theorem newline_not_mem_toDigits {b : Nat} (hb : 1 < b) (n : Nat) : '\n' ∉ Nat.toDigits b n := by
  have hdigit : ∀ d : Nat, '\n' ∉ [d.digitChar] := fun d h =>
    Nat.digitChar_ne '\n' (by decide) (List.mem_singleton.1 h).symm
  induction n using Nat.strong_induction_on with
  | _ n ih =>
      rw [Nat.toDigits_eq_if hb]
      split
      · exact hdigit n
      · rename_i hn
        exact List.not_mem_append (ih _ (Nat.div_lt_self (by omega) hb)) (hdigit _)

/-- A line end is escaped, and no other character is written as one. -/
theorem newline_not_mem_escapeChar (c : Char) : '\n' ∉ escapeChar c := by
  unfold escapeChar
  split
  any_goals decide
  -- Any other character stands for itself or is written by its code.
  rename_i hnewline _ _ _
  split
  · intro h
    exact hnewline (List.mem_singleton.1 h).symm
  · have hcode := newline_not_mem_toDigits (b := 16) (by decide) c.toNat
    simp [hcode]

/-- A text between quotes stands on one line. -/
theorem isLine_quoted (s : String) : IsLine (quoted s) := by
  have htext : (quoted s).toList = '\"' :: (s.toList.flatMap escapeChar ++ ['\"']) := by
    rw [quoted, String.toList_ofList, List.cons_append]
  refine ⟨fun h => ?_, ?_, ?_⟩
  · rw [h] at htext
    cases htext
  · have hescaped : '\n' ∉ s.toList.flatMap escapeChar := fun h => by
      obtain ⟨c, -, hc⟩ := List.mem_flatMap.1 h
      exact newline_not_mem_escapeChar c hc
    rw [htext]
    simp [hescaped]
  · rw [htext, List.head?_cons]
    decide

end Text

/-! ## The shape of a tree -/

/-- A tree without what is at its nodes. -/
inductive Shape where
  | branch (children : List Shape)

namespace Shape

mutual

/-- The depths of the nodes in preorder, that of the root given. -/
def depths (depth : Nat) : Shape → List Nat
  | branch children => depth :: depthsAll (depth + 1) children

/-- The depths of the nodes of some trees. -/
def depthsAll (depth : Nat) : List Shape → List Nat
  | [] => []
  | s :: ss => depths depth s ++ depthsAll depth ss

end

theorem head?_depthsAll_cons (d : Nat) (s : Shape) (ss : List Shape) (r : List Nat) :
    (depthsAll d (s :: ss) ++ r).head? = some d := by
  obtain ⟨children⟩ := s
  rfl

/-- The first node of a row of trees is one of their roots. -/
theorem le_of_head?_depthsAll {d : Nat} (ss : List Shape) {r : List Nat}
    (hr : ∀ e ∈ r.head?, e < d) : ∀ e ∈ (depthsAll d ss ++ r).head?, e ≤ d := by
  intro e he
  cases ss with
  | nil => exact Nat.le_of_lt (hr e he)
  | cons s ss =>
      rw [head?_depthsAll_cons] at he
      exact Nat.le_of_eq (Option.some.inj he).symm

mutual

/-- The depths of a tree tell its shape, and where they end if no deeper node follows. -/
theorem eq_of_depths_append {d : Nat} : ∀ (s s' : Shape) {r r' : List Nat},
    (∀ e ∈ r.head?, e ≤ d) → (∀ e ∈ r'.head?, e ≤ d) →
      s.depths d ++ r = s'.depths d ++ r' → s = s' ∧ r = r'
  | branch children, branch children', r, r', hr, hr', h => by
      -- Children stand deeper than their root, so what follows the tree does not belong to them.
      simp only [depths, List.cons_append, List.cons.injEq, true_and] at h
      obtain ⟨rfl, hrest⟩ := eq_of_depthsAll_append children children'
        (fun e he => Nat.lt_succ_of_le (hr e he)) (fun e he => Nat.lt_succ_of_le (hr' e he)) h
      exact ⟨rfl, hrest⟩

/-- The same of a row of trees, if the next node does not belong to it. -/
theorem eq_of_depthsAll_append {d : Nat} : ∀ (ss ss' : List Shape) {r r' : List Nat},
    (∀ e ∈ r.head?, e < d) → (∀ e ∈ r'.head?, e < d) →
      depthsAll d ss ++ r = depthsAll d ss' ++ r' → ss = ss' ∧ r = r'
  | [], [], r, r', _, _, h => ⟨rfl, h⟩
  | [], s' :: ss', r, r', hr, _, h => by
      have hhead := head?_depthsAll_cons d s' ss' r'
      rw [← h] at hhead
      exact absurd (hr d hhead) (Nat.lt_irrefl d)
  | s :: ss, [], r, r', _, hr', h => by
      have hhead := head?_depthsAll_cons d s ss r
      rw [h] at hhead
      exact absurd (hr' d hhead) (Nat.lt_irrefl d)
  | s :: ss, s' :: ss', r, r', hr, hr', h => by
      -- What follows the first tree begins with the next root or with a node further out.
      simp only [depthsAll, List.append_assoc] at h
      obtain ⟨rfl, hbehind⟩ := eq_of_depths_append s s' (le_of_head?_depthsAll ss hr)
        (le_of_head?_depthsAll ss' hr') h
      obtain ⟨rfl, hrest⟩ := eq_of_depthsAll_append ss ss' hr hr' hbehind
      exact ⟨rfl, hrest⟩

end

theorem eq_of_depths {d : Nat} {s s' : Shape} (h : s.depths d = s'.depths d) : s = s' := by
  have hnil : ∀ e ∈ ([] : List Nat).head?, e ≤ d := fun e he => absurd he (by simp)
  have happend : s.depths d ++ [] = s'.depths d ++ [] := by rw [h]
  exact (eq_of_depths_append s s' hnil hnil happend).1

end Shape

namespace ParseTree

/-- What is at the root of a tree. -/
def label : ParseTree → Label
  | token t => .token t
  | node nt p children => .node nt p children.length

/-- The trees below the root. -/
def children : ParseTree → List ParseTree
  | token _ => []
  | node _ _ children => children

/-- Induction over a tree: a property that passes from all children to their node holds of every
tree. -/
theorem induct_children {motive : ParseTree → Prop}
    (step : ∀ t : ParseTree, (∀ c ∈ t.children, motive c) → motive t) : ∀ t, motive t :=
  induct (fun t => step (.token t) fun _ hc => absurd hc List.not_mem_nil)
    fun nt p children ih => step (.node nt p children) ih

theorem preorder_eq (depth : Nat) (t : ParseTree) :
    t.preorder depth = (depth, t.label) :: t.children.flatMap (preorder (depth + 1)) := by
  have hall : ∀ ts : List ParseTree,
      preorderAll (depth + 1) ts = ts.flatMap (preorder (depth + 1)) := by
    intro ts
    induction ts with
    | nil => rfl
    | cons t ts ih => rw [preorderAll, ih, List.flatMap_cons]
  cases t with
  | token t => rfl
  | node nt p children => rw [preorder, hall, label, ParseTree.children]

/-- The tree without its tokens and productions. -/
def shape : ParseTree → Shape
  | token _ => .branch []
  | node _ _ children => .branch (shapeAll children)
where
  /-- The shapes of some trees. -/
  shapeAll : List ParseTree → List Shape
    | [] => []
    | t :: ts => shape t :: shapeAll ts

theorem shape_eq (t : ParseTree) : t.shape = .branch (t.children.map shape) := by
  have hall : ∀ ts : List ParseTree, shape.shapeAll ts = ts.map shape := by
    intro ts
    induction ts with
    | nil => rfl
    | cons t ts ih => rw [shape.shapeAll, ih, List.map_cons]
  cases t with
  | token t => rfl
  | node nt p children => rw [shape, hall, ParseTree.children]

/-- The depths of the nodes are a matter of the shape. -/
theorem map_fst_preorder (t : ParseTree) (depth : Nat) :
    (t.preorder depth).map Prod.fst = t.shape.depths depth := by
  induction t using induct_children generalizing depth with
  | step t ih =>
      rw [preorder_eq, shape_eq, Shape.depths, List.map_cons]
      congr 1
      generalize t.children = ts at ih
      induction ts with
      | nil => rfl
      | cons t ts ihts =>
          obtain ⟨ht, hts⟩ := List.forall_mem_cons.1 ih
          rw [List.flatMap_cons, List.map_append, List.map_cons, Shape.depthsAll, ht, ihts hts]

/-- What is shown of a node, if the grammar has what it refers to. -/
def Label.text? (g : Grammar) : Label → Option String
  | token t => t.describe? g.arena
  | node nt _ _ => (g.nonTerminals[nt]?).map NonTerminal.name

theorem Label.render_of_text? {g : Grammar} {label : Label} {text : String}
    (h : label.text? g = some text) : label.render g = text := by
  cases label with
  | token t => exact congrArg (Option.getD · "") h
  | node nt p n => exact congrArg (Option.getD · "") h

theorem Label.render_isLine {g : Grammar} {label : Label} {text : String}
    (h : label.text? g = some text) (hline : IsLine text) :
    label.text? g = some (label.render g) ∧ IsLine (label.render g) := by
  rw [render_of_text? h]
  exact ⟨h, hline⟩

/-- Some nodes with their depths, and what is shown of each. -/
def shown (g : Grammar) (rows : List (Nat × Label)) : List (Nat × String) :=
  rows.map fun (depth, label) => (depth, label.render g)

theorem shown_cons (g : Grammar) (row : Nat × Label) (rows : List (Nat × Label)) :
    shown g (row :: rows) = (row.1, row.2.render g) :: shown g rows := rfl

/-- The lines of some nodes. -/
def renderLines (g : Grammar) (rows : List (Nat × Label)) : String :=
  String.join (rows.map fun (depth, label) => renderLine g depth label ++ "\n")

theorem render_eq_renderLines (g : Grammar) (t : ParseTree) :
    t.render g = renderLines g (t.preorder 0) := rfl

theorem renderLines_append (g : Grammar) (rows rows' : List (Nat × Label)) :
    renderLines g (rows ++ rows') = renderLines g rows ++ renderLines g rows' := by
  rw [renderLines, List.map_append, String.join_append]
  rfl

theorem renderLines_cons (g : Grammar) (depth : Nat) (label : Label) (rows : List (Nat × Label)) :
    renderLines g ((depth, label) :: rows) =
      renderLine g depth label ++ "\n" ++ renderLines g rows :=
  String.join_cons

end ParseTree

/-! ## The loop -/

/-- The text written so far, and the trees that are still to be written with the depths of their
roots, the last one pushed first. -/
structure Display where
  written : String
  stack : List (ParseTree × Nat)

namespace Display

/-- What becomes of the loop in a step. -/
inductive Outcome where
  | running (c : Display)
  | finished (text : String)
  | stuck

/-- Writes a line with four spaces in front for each level. -/
def writeLine (c : Display) (depth : Nat) (text : String) : Display :=
  { c with written := c.written ++ String.ofList (List.replicate (4 * depth) ' ') ++ text ++ "\n" }

/-- Pushes trees, the last one first. -/
def pushAll (c : Display) (depth : Nat) (trees : List ParseTree) : Display :=
  { c with stack := trees.reverse.foldl (fun stack tree => (tree, depth) :: stack) c.stack }

/-- Takes the last tree off the stack, writes the line of its root and pushes its children. The loop
is stuck where the grammar does not have what the root refers to. -/
def step (g : Grammar) (c : Display) : Outcome :=
  match c.stack with
  | [] => .finished c.written
  | (.node nt _ children, depth) :: stack =>
      match g.nonTerminals[nt]? with
      | none => .stuck
      | some nonTerminal =>
          let c := writeLine ⟨c.written, stack⟩ depth nonTerminal.name
          .running (c.pushAll (depth + 1) children)
  | (.token t, depth) :: stack =>
      match t.describe? g.arena with
      | none => .stuck
      | some text => .running (writeLine ⟨c.written, stack⟩ depth text)

/-- The line of the root is written before the loop, without spaces. There is no display of a token
by itself. -/
def start (g : Grammar) : ParseTree → Outcome
  | .token _ => .stuck
  | .node nt _ children =>
      match g.nonTerminals[nt]? with
      | none => .stuck
      | some nonTerminal => .running (pushAll ⟨nonTerminal.name ++ "\n", []⟩ 1 children)

/-- After finitely many steps the loop has written the text. -/
inductive Ends (g : Grammar) : Outcome → String → Prop
  | finished {text : String} : Ends g (.finished text) text
  | running {c : Display} {text : String} (h : Ends g (c.step g) text) : Ends g (.running c) text

variable {g : Grammar}

theorem pushAll_eq (c : Display) (depth : Nat) (trees : List ParseTree) :
    c.pushAll depth trees = ⟨c.written, trees.map (·, depth) ++ c.stack⟩ := by
  rw [pushAll, List.foldl_reverse, List.foldr_cons_eq_append]

/-- A step writes the line of the root and puts the children in its place. -/
theorem step_cons {t : ParseTree} {depth : Nat} {written : String} {stack : List (ParseTree × Nat)}
    {text : String} (htext : t.label.text? g = some text) :
    step g ⟨written, (t, depth) :: stack⟩ =
      .running ⟨written ++ (ParseTree.renderLine g depth t.label ++ "\n"),
        t.children.map (·, depth + 1) ++ stack⟩ := by
  rw [ParseTree.renderLine, ParseTree.Label.render_of_text? htext, ← String.append_assoc,
    ← String.append_assoc]
  cases t with
  | token t =>
      have hdescribe : t.describe? g.arena = some text := htext
      simp only [step, hdescribe]
      rfl
  | node nt p children =>
      obtain ⟨nonTerminal, hget, rfl⟩ := Option.map_eq_some_iff.1 htext
      simp only [step, hget, pushAll_eq]
      rfl

/-- Where these trees stand on top of the stack, the loop writes the lines and goes on with what is
below them. -/
def Writes (g : Grammar) (trees : List (ParseTree × Nat)) (lines : String) : Prop :=
  ∀ (written : String) (stack : List (ParseTree × Nat)) (text : String),
    Ends g (.running ⟨written ++ lines, stack⟩) text →
      Ends g (.running ⟨written, trees ++ stack⟩) text

theorem Writes.nil : Writes g [] "" := by
  intro written stack text h
  rwa [String.append_empty] at h

theorem Writes.append {trees trees' : List (ParseTree × Nat)} {lines lines' : String}
    (h : Writes g trees lines) (h' : Writes g trees' lines') :
    Writes g (trees ++ trees') (lines ++ lines') := by
  intro written stack text hends
  rw [List.append_assoc]
  refine h _ _ _ (h' _ _ _ ?_)
  rwa [String.append_assoc]

theorem Writes.root {t : ParseTree} {depth : Nat} {text lines : String}
    (htext : t.label.text? g = some text)
    (h : Writes g (t.children.map (·, depth + 1)) lines) :
    Writes g [(t, depth)] (ParseTree.renderLine g depth t.label ++ "\n" ++ lines) := by
  intro written stack text' hends
  refine .running ?_
  rw [List.singleton_append, step_cons htext]
  refine h _ _ _ ?_
  rwa [String.append_assoc]

/-- The trees of a row are written one after the other. -/
theorem Writes.row {depth : Nat} {trees : List ParseTree}
    (h : ∀ t ∈ trees, Writes g [(t, depth)] (ParseTree.renderLines g (t.preorder depth))) :
    Writes g (trees.map (·, depth))
      (ParseTree.renderLines g (trees.flatMap (ParseTree.preorder depth))) := by
  induction trees with
  | nil => exact .nil
  | cons t trees ih =>
      obtain ⟨ht, htrees⟩ := List.forall_mem_cons.1 h
      rw [List.flatMap_cons, ParseTree.renderLines_append]
      exact ht.append (ih htrees)

/-- A tree is written in preorder. -/
theorem writes_preorder (t : ParseTree) (depth : Nat)
    (h : ∀ row ∈ t.preorder depth, ∃ text, row.2.text? g = some text) :
    Writes g [(t, depth)] (ParseTree.renderLines g (t.preorder depth)) := by
  induction t using ParseTree.induct_children generalizing depth with
  | step t ih =>
      rw [ParseTree.preorder_eq] at h ⊢
      obtain ⟨⟨text, htext⟩, hbelow⟩ := List.forall_mem_cons.1 h
      rw [ParseTree.renderLines_cons]
      refine .root htext (.row fun c hc => ih c hc _ fun row hrow => ?_)
      exact hbelow row (List.mem_flatMap.2 ⟨c, hc, hrow⟩)

/-- The line of the root is the one that it would get in the loop, at depth zero. -/
theorem start_node {nt p : Nat} {children : List ParseTree} {text : String}
    (htext : (ParseTree.node nt p children).label.text? g = some text) :
    start g (.node nt p children) =
      .running ⟨ParseTree.renderLine g 0 (ParseTree.node nt p children).label ++ "\n",
        children.map (·, 1) ++ []⟩ := by
  rw [ParseTree.renderLine, ParseTree.Label.render_of_text? htext]
  obtain ⟨nonTerminal, hget, rfl⟩ := Option.map_eq_some_iff.1 htext
  simp only [start, hget, pushAll_eq]
  exact congrArg (fun line => Outcome.running ⟨line ++ "\n", _⟩) String.empty_append.symm

/-- The loop ends with the lines of the nodes in preorder. -/
theorem ends_render {nt p : Nat} {children : List ParseTree}
    (h : ∀ row ∈ (ParseTree.node nt p children).preorder 0, ∃ text, row.2.text? g = some text) :
    Ends g (start g (.node nt p children)) ((ParseTree.node nt p children).render g) := by
  rw [ParseTree.render_eq_renderLines]
  rw [ParseTree.preorder_eq] at h ⊢
  obtain ⟨⟨text, htext⟩, hbelow⟩ := List.forall_mem_cons.1 h
  rw [ParseTree.renderLines_cons, start_node htext]
  have hchildren : Writes g (children.map (·, 1))
      (ParseTree.renderLines g (children.flatMap (ParseTree.preorder 1))) :=
    .row fun c hc => writes_preorder c 1 fun row hrow =>
      hbelow row (List.mem_flatMap.2 ⟨c, hc, hrow⟩)
  exact hchildren _ _ _ (.running .finished)

end Display

/-! ## Lines that can be told apart -/

namespace ParseTree

variable {g : Grammar}

/-- The text of some nodes is cut into their lines. -/
theorem splitOn_renderLines {rows : List (Nat × Label)}
    (h : ∀ row ∈ rows, IsLine (row.2.render g)) :
    (renderLines g rows).toList.splitOn '\n' =
      (shown g rows).map (fun (depth, text) => List.replicate (4 * depth) ' ' ++ text.toList) ++
        [[]] := by
  induction rows with
  | nil => rfl
  | cons row rows ih =>
      obtain ⟨depth, label⟩ := row
      obtain ⟨hlabel, hrows⟩ := List.forall_mem_cons.1 h
      have hline : '\n' ∉ List.replicate (4 * depth) ' ' ++ (label.render g).toList := by
        refine List.not_mem_append (fun h => ?_) hlabel.no_newline
        exact absurd (List.eq_of_mem_replicate h) (by decide)
      have hsplit := List.splitOn_append_cons_self_of_not_mem hline (renderLines g rows).toList
      rw [ih hrows] at hsplit
      rw [renderLines_cons, renderLine, shown_cons]
      simpa using hsplit

/-- The text of some nodes tells their depths and what is shown of them. -/
theorem shown_eq_of_renderLines {rows rows' : List (Nat × Label)}
    (h : ∀ row ∈ rows, IsLine (row.2.render g)) (h' : ∀ row ∈ rows', IsLine (row.2.render g))
    (heq : renderLines g rows = renderLines g rows') : shown g rows = shown g rows' := by
  have hlines := splitOn_renderLines h
  rw [heq, splitOn_renderLines h'] at hlines
  replace hlines := List.append_cancel_right hlines
  clear heq
  induction rows generalizing rows' with
  | nil => exact (List.map_eq_nil_iff.1 hlines).symm
  | cons row rows ih =>
      cases rows' with
      | nil => cases hlines
      | cons row' rows' =>
          obtain ⟨hrow, hrows⟩ := List.forall_mem_cons.1 h
          obtain ⟨hrow', hrows'⟩ := List.forall_mem_cons.1 h'
          -- The spaces in front tell the depth, and the rest is what is shown.
          obtain ⟨hline, hlines⟩ := List.cons.inj hlines
          obtain ⟨hdepth, htext⟩ := hrow.indent_inj hrow' hline.symm
          rw [shown_cons, shown_cons, ih hrows hrows' hlines, htext,
            Nat.eq_of_mul_eq_mul_left (by decide) hdepth]

/-- What is shown of a tree tells its shape. -/
theorem shape_eq_of_shown {t t' : ParseTree}
    (h : shown g (t.preorder 0) = shown g (t'.preorder 0)) : t.shape = t'.shape := by
  have hdepths := congrArg (List.map Prod.fst) h
  rw [shown, shown, List.map_map, List.map_map] at hdepths
  refine Shape.eq_of_depths (d := 0) ?_
  rw [← map_fst_preorder, ← map_fst_preorder]
  exact hdepths

end ParseTree

namespace Grammar

/-- The names that a display shows are lines. -/
structure ShowsLines (g : Grammar) : Prop where
  names : ∀ nt < g.size, IsLine (g.nameOf nt)
  classes : ∀ c, Terminal.ofClass c ∈ g.arena.terminals → IsLine c.name

variable {g : Grammar}

/-- Tokens of literals are shown between quotes, and so are the texts of classes after the name. -/
theorem ShowsLines.of_root (h : g.ShowsLines) {t : ParseTree} (ht : g.HasSymbol t.root) :
    t.label.text? g = some (t.label.render g) ∧ IsLine (t.label.render g) := by
  cases t with
  | token t =>
      obtain ⟨terminal, hget⟩ : ∃ terminal, g.arena.get? t.terminal = some terminal :=
        ⟨_, List.getElem?_eq_getElem ht⟩
      have htext : (ParseTree.token t).label.text? g = t.describe? g.arena := rfl
      rw [Token.describe?, hget] at htext
      cases terminal with
      | literal s => exact ParseTree.Label.render_isLine htext (Text.isLine_quoted s)
      | ofClass c =>
          -- The space does not stand in front, as the name is not empty.
          have hname : IsLine (c.name ++ " ") :=
            (h.classes c (List.mem_of_getElem? hget)).append (by decide)
          have hquoted := (Text.isLine_quoted t.text).no_newline
          exact ParseTree.Label.render_isLine htext (hname.append hquoted)
  | node nt p children =>
      obtain ⟨nonTerminal, hget⟩ := getElem?_eq_some_of_lt_size ht
      have hname := h.names nt ht
      rw [nameOf, hget] at hname
      exact ParseTree.Label.render_isLine (congrArg (Option.map _) hget) hname

/-- Each node of a derivation tree is shown, and on one line. -/
theorem ShowsLines.of_derives (h : g.ShowsLines) (hg : g.WellFormed) {s : Symbol} {t : ParseTree}
    (hs : g.HasSymbol s) (ht : g.Derives s t) (depth : Nat) : ∀ row ∈ t.preorder depth,
      row.2.text? g = some (row.2.render g) ∧ IsLine (row.2.render g) := by
  induction t using ParseTree.induct_children generalizing s depth with
  | step t ih =>
      rw [ParseTree.preorder_eq]
      refine List.forall_mem_cons.2 ⟨h.of_root (ht.1 ▸ hs), fun row hbelow => ?_⟩
      obtain ⟨c, hc, hrow⟩ := List.mem_flatMap.1 hbelow
      cases t with
      | token t => exact absurd hc List.not_mem_nil
      | node nt p children =>
          -- The symbol of a child stands in the production, which the grammar has.
          obtain ⟨-, production, hp, hchildren⟩ := derives_node_iff.1 ht
          obtain ⟨hroots, hall⟩ := (derivesRow_iff _ _).1 hchildren
          have hroot : c.root ∈ production.symbols := hroots ▸ List.mem_map_of_mem hc
          exact ih c hc (hg.hasSymbol hp hroot) ⟨rfl, hall c hc⟩ _ row hrow

end Grammar

/-- No mark has a line end in it. -/
theorem Part.newline_not_mem_mark (a : Part) : '\n' ∉ a.mark.toList := by
  cases a with
  | whole => simp [mark]
  | head p => simp [mark, not_mem_repr]
  | tail p => simp [mark, not_mem_repr]
  | atoms => simp [mark]
  | operator i => simp [mark, not_mem_toDigits]

namespace Language

variable {declared : List NodeType} {config : Config} {l : Language}

/-- If the names of types and classes are lines, then so are the names of non-terminals, since only
marks are put behind them. -/
theorem showsLines_of_assemble (hbuilt : ∀ t ∈ declared, t.Built)
    (hl : assemble declared config = .ok l) (htypes : ∀ t ∈ l.types, IsLine t.name)
    (hclasses : ∀ c, Terminal.ofClass c ∈ l.arena.terminals → IsLine c.name) :
    l.grammar.ShowsLines := by
  refine ⟨fun nt hnt => ?_, hclasses⟩
  obtain ⟨t, ht, a, hname⟩ := exists_nameOf_eq hbuilt hl hnt
  have hmark := a.newline_not_mem_mark
  rcases hname with hname | hname
  · rw [hname]
    exact (htypes t ht).append hmark
  · rw [hname]
    exact ((htypes t ht).append (by decide)).append hmark

/-- In a language whose names of types and of classes are lines, the display of a tree has one line
for each node, in preorder, with four spaces in front for each level and behind them the name of the
non-terminal or the description of the token, and nothing else. From the text these lines can be
read back, and the shape of the tree. -/
theorem display_preorder (hbuilt : ∀ t ∈ declared, t.Built) (hl : assemble declared config = .ok l)
    (htypes : ∀ t ∈ l.types, IsLine t.name)
    (hclasses : ∀ c, Terminal.ofClass c ∈ l.arena.terminals → IsLine c.name)
    {n : Nat} {t : ParseTree} (ht : l.grammar.Derives (.nonTerminal n) t) :
    Display.Ends l.grammar (Display.start l.grammar t) (t.render l.grammar) ∧
    (∀ row ∈ t.preorder 0, row.2.text? l.grammar = some (row.2.render l.grammar) ∧
      IsLine (row.2.render l.grammar)) ∧
    (t.render l.grammar).toList.splitOn '\n' =
      (ParseTree.shown l.grammar (t.preorder 0)).map (fun (depth, text) =>
        List.replicate (4 * depth) ' ' ++ text.toList) ++ [[]] ∧
    ∀ (n' : Nat) (t' : ParseTree), l.grammar.Derives (.nonTerminal n') t' →
      t.render l.grammar = t'.render l.grammar →
        ParseTree.shown l.grammar (t.preorder 0) = ParseTree.shown l.grammar (t'.preorder 0) ∧
          t.shape = t'.shape := by
  have hshows := showsLines_of_assemble hbuilt hl htypes hclasses
  have hg := wellFormed_of_assemble hbuilt hl
  have hrows := fun {n t} (ht : l.grammar.Derives (.nonTerminal n) t) =>
    hshows.of_derives hg (s := .nonTerminal n) (Grammar.lt_size_of_derives ht) ht 0
  have hlines := fun {n t} (ht : l.grammar.Derives (.nonTerminal n) t) row hrow =>
    (hrows ht row hrow).2
  refine ⟨?_, hrows ht, ParseTree.splitOn_renderLines (hlines ht), fun n' t' ht' heq => ?_⟩
  · obtain ⟨p, production, children, rfl, -, -⟩ := Grammar.derives_nonTerminal_iff.1 ht
    exact Display.ends_render fun row hrow => ⟨_, (hrows ht row hrow).1⟩
  · have hshown := ParseTree.shown_eq_of_renderLines (hlines ht) (hlines ht') heq
    exact ⟨hshown, ParseTree.shape_eq_of_shown hshown⟩

/-- A row of texts. -/
def textTypes : List NodeType :=
  [((NodeType.named "Texts").makeList (.node "Text") ";" true).start,
    (NodeType.named "Text").generates [.field "value" (.terminal .string) none] Prec.default]

theorem built_textTypes : ∀ t ∈ textTypes, t.Built := by
  intro t ht
  simp only [textTypes, List.mem_cons, List.not_mem_nil, or_false] at ht
  rcases ht with rfl | rfl
  · exact ((NodeType.Built.named _).makeList _ _ _).start
  · exact (NodeType.Built.named _).generates _ _

/-- The row of one text, which has a line end in it. -/
def textTree : ParseTree :=
  .node 0 1 [.node 1 0 [.token ⟨1, "\"a\nb\"", .text "a\nb", Position.start⟩], .node 2 1 []]

/-- The line end in the text is escaped, and the empty row is displayed otherwise. -/
theorem display_preorder_textTypes : ∃ l, assemble textTypes .quiet = .ok l ∧
    Display.Ends l.grammar (Display.start l.grammar textTree)
      "Texts\n    Text\n        String \"\\\"a\\nb\\\"\"\n    Texts@rest\n" ∧
    textTree.render l.grammar ≠ (ParseTree.node 0 0 []).render l.grammar := by
  have hcheck : (assemble textTypes .quiet).toOption.any (fun l =>
      (l.types.all fun t => IsLine t.name) && (l.arena.terminals.all fun t => IsLine t.name) &&
        l.grammar.nonTerminals.map NonTerminal.name == ["Texts", "Text", "Texts@rest"] &&
        l.grammar.arena.get? 1 == some Terminal.string &&
        l.grammar.Derives (.nonTerminal 0) textTree &&
        l.grammar.Derives (.nonTerminal 0) (.node 0 0 [])) = true := by
    cbv
  obtain ⟨l, hl, hcheck⟩ := exists_of_any_assemble hcheck
  simp only [Bool.and_eq_true, List.all_eq_true, decide_eq_true_eq, beq_iff_eq] at hcheck
  obtain ⟨⟨⟨⟨⟨htypes, hclasses⟩, hnames⟩, hstring⟩, ht⟩, ht'⟩ := hcheck
  obtain ⟨hends, -, -, hshape⟩ := display_preorder built_textTypes hl htypes
    (fun c hc => hclasses _ hc) ht
  have hname : ∀ i, l.grammar.nameOf i = (["Texts", "Text", "Texts@rest"][i]?).getD "" := by
    intro i
    rw [Grammar.nameOf, ← List.getElem?_map, hnames]
  have hrender : textTree.render l.grammar =
      "Texts\n    Text\n        String \"\\\"a\\nb\\\"\"\n    Texts@rest\n" := by
    simp only [textTree, ParseTree.render, ParseTree.preorder, ParseTree.preorderAll,
      List.cons_append, List.nil_append, List.map_cons, List.map_nil, ParseTree.renderLine,
      ParseTree.Label.render, Token.describe?, hname, hstring]
    decide +kernel
  refine ⟨l, hl, hrender ▸ hends, fun heq => ?_⟩
  cases (hshape 0 _ ht' heq).2

end Language

end SmallLang
