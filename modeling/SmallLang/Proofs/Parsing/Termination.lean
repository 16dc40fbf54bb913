import SmallLang.Proofs.Lookahead.Resolved
import SmallLang.Proofs.Parsing.Placed
import SmallLang.Proofs.Parsing.Replay
import SmallLang.Proofs.Parsing.Stacks

/-!
# Parsing ends

The two stacks have no bound for the nodes that are opened at one place, so nothing in the machine itself
keeps it from opening nodes forever. For a grammar that passes the check for left recursion it comes to an
end all the same, with any table whose entries are productions of the grammar and with any tokens
(`Parser.parse_terminates`). The stacks only grow along left corners while no token is read, and there a
rank falls.

`Stacks.Ends` says that the machine stops, and with what. It stops with what `Parser.parse` returns, whose
own bound is therefore never met. The check is needed: with the table that a left recursive grammar gets
from its priorities, the machine runs forever (`Parser.Stacks.not_ends_endlessGrammar`).
-/

set_option autoImplicit false

namespace SmallLang.Parser

open Grammar
open Parser.Setup (lookahead)

namespace Stacks

/-- After finitely many steps the machine accepts a tree or fails. -/
inductive Ends (u : Setup) : Stacks → Except ParseError ParseTree → Prop
  | accepted {c : Stacks} {t : ParseTree} (h : step u c = .accepted t) : Ends u c (.ok t)
  | failed {c : Stacks} {e : ParseError} (h : step u c = .failed e) : Ends u c (.error e)
  | running {c c' : Stacks} {r : Except ParseError ParseTree} (h : step u c = .running c')
      (hrest : Ends u c' r) : Ends u c r

variable {u : Setup} {start : Nat} {input : List Token} {c c' : Stacks}
  {r : Except ParseError ParseTree}

/-- Where the machine comes to a state from which it ends, it ends. -/
theorem Reaches.ends (h : Reaches u c c') (hends : Ends u c' r) : Ends u c r := by
  induction h using Relation.ReflTransGen.head_induction_on with
  | refl => exact hends
  | head hstep _ ih => exact .running hstep ih

/-- The machine does not end where each state that it comes to has another one after it. -/
theorem not_ends_of_invariant {P : Stacks → Prop} (hstep : ∀ c, P c → ∃ c', step u c = .running c' ∧ P c')
    (hc : P c) : ¬ Ends u c r := by
  intro h
  induction h with
  | accepted h =>
      obtain ⟨c', hrunning, -⟩ := hstep _ hc
      exact Outcome.noConfusion (h.symm.trans hrunning)
  | failed h =>
      obtain ⟨c', hrunning, -⟩ := hstep _ hc
      exact Outcome.noConfusion (h.symm.trans hrunning)
  | running h _ ih =>
      obtain ⟨c', hrunning, hc'⟩ := hstep _ hc
      obtain rfl := Outcome.running.inj (h.symm.trans hrunning)
      exact ih hc'

/-- The parser does not stop a run for the number of its nodes. -/
def Roomy (u : Setup) (start : Nat) (input : List Token) : Prop :=
  ∀ s, Placed u.grammar start input s → ∀ nt todo, s.top.todo = .nonTerminal nt :: todo →
    nt < u.grammar.size → s.top.depthAt s.position < u.maxDepth

/-- A run of the parser is a run of the machine. -/
theorem reaches_of_leads (hfits : u.table.Fits u.grammar) (hroomy : Roomy u start input)
    {s s' : State} (h : Leads u s s') (hs : Placed u.grammar start input s) :
    Reaches u (ofState u.grammar s) (ofState u.grammar s') := by
  induction h with
  | refl => exact .refl
  | @tail s₁ s₂ hleads hstep ih =>
      have hplaced := hs.of_leads hfits hleads
      apply ih.tail
      rw [step_ofState hfits hplaced.consistent (hroomy s₁ hplaced), hstep]
      rfl

/-- Where a run of the parser gives a tree, the machine comes to this tree alone. -/
theorem reaches_of_run_ok (hfits : u.table.Fits u.grammar) (hroomy : Roomy u start input)
    {s : State} (hs : Placed u.grammar start input s) {tree : ParseTree} {rest : List Token}
    (h : run u s = .ok (tree, rest)) :
    Reaches u (ofState u.grammar s) ⟨[], [tree], rest⟩ ∧
      u.grammar.Derives (.nonTerminal start) tree := by
  obtain ⟨s', hleads, hfinished⟩ := exists_leads_of_run_ok h
  have hplaced := hs.of_leads hfits hleads
  refine ⟨?_, (hplaced.consistent.derives_of_finished hfinished).1⟩
  apply (reaches_of_leads hfits hroomy hleads hs).tail
  rw [step_ofState hfits hplaced.consistent (hroomy s' hplaced), hfinished]
  rfl

/-- Where a run of the parser fails, the machine fails in the same way. -/
theorem ends_of_run_error (hfits : u.table.Fits u.grammar) (hroomy : Roomy u start input)
    {s : State} (hs : Placed u.grammar start input s) {e : ParseError} (h : run u s = .error e) :
    Ends u (ofState u.grammar s) (.error e) := by
  obtain ⟨s', hleads, hfailed⟩ := exists_leads_of_run_error h
  have hplaced := hs.of_leads hfits hleads
  apply (reaches_of_leads hfits hroomy hleads hs).ends
  apply Ends.failed
  rw [step_ofState hfits hplaced.consistent (hroomy s' hplaced), hfailed]
  rfl

/-- The machine opens the start as the parser does before its first step. -/
theorem step_initial (hfits : u.table.Fits u.grammar) :
    step u ⟨[.expect (.nonTerminal start)], [], input⟩ =
      match u.expand start input 0 0 with
      | .error e => .failed e
      | .ok top => .running (ofState u.grammar ⟨top, [], input, 0⟩) := by
  rw [Stacks.step, Setup.expand]
  cases hget : u.table.get? start (lookahead input) with
  | none => rfl
  | some p =>
      obtain ⟨production, hp⟩ := hfits _ _ _ hget
      have hroom : 0 < u.maxDepth := Nat.lt_of_le_of_lt (Nat.zero_le start) (lt_size_of_production? hp)
      simp only [hp, hroom, if_true, Option.map_some, Option.getD_some]
      rw [ofState, List.flatMap_singleton, framesOf_opened hp, List.flatMap_singleton,
        List.append_nil]

/-- Where no run of the parser is stopped for the number of its nodes, the machine ends with what the
parser returns. -/
theorem ends_parse {g : Grammar} {table : ParseTable} {tokens : List Token} (hfits : table.Fits g)
    (hroomy : Roomy ⟨g, table, endPosition tokens⟩ g.start tokens) :
    Ends ⟨g, table, endPosition tokens⟩ (initial g tokens) (parse g table tokens) := by
  have hfirst := @step_initial ⟨g, table, endPosition tokens⟩ g.start tokens hfits
  unfold parse
  simp only
  split
  · rename_i e hexpand
    rw [hexpand] at hfirst
    exact .failed hfirst
  · rename_i top hexpand
    rw [hexpand] at hfirst
    apply Ends.running hfirst
    have hplaced := placed_of_expand (u := ⟨g, table, endPosition tokens⟩) hfits hexpand
    split
    · rename_i e hrun
      exact ends_of_run_error hfits hroomy hplaced hrun
    · -- The tree is complete, and no token is left.
      rename_i tree hrun
      obtain ⟨hreaches, hderives⟩ := reaches_of_run_ok hfits hroomy hplaced hrun
      obtain ⟨p, production, children, rfl, -, -⟩ := derives_nonTerminal_iff.1 hderives
      exact hreaches.ends (.accepted rfl)
    · rename_i tree t after hrun
      obtain ⟨hreaches, -⟩ := reaches_of_run_ok hfits hroomy hplaced hrun
      exact hreaches.ends (.failed rfl)

theorem about_ne_endless (u : Setup) (t : Token) {e : String → ParseError} {typeName : String}
    {position : Position} (he : ∀ found, e found ≠ .endlessExpansion typeName position) :
    u.about t e ≠ .endlessExpansion typeName position := by
  unfold Setup.about
  split
  · exact he _
  · exact ParseError.noConfusion

/-- The machine does not count nodes, so none of its errors says that they are too many. -/
theorem step_ne_endless (u : Setup) (c : Stacks) (typeName : String) (position : Position) :
    step u c ≠ .failed (.endlessExpansion typeName position) := by
  intro h
  unfold step at h
  split at h
  · split at h
    · rename_i hshift
      obtain rfl := Outcome.failed.inj h
      unfold Setup.shift at hshift
      split at hshift
      · exact ParseError.noConfusion (Except.error.inj hshift)
      · split at hshift
        · simp at hshift
        · exact about_ne_endless u _ (fun _ => ParseError.noConfusion) (Except.error.inj hshift)
    · exact Outcome.noConfusion h
  · split at h
    · have herror := Outcome.failed.inj h
      unfold Setup.cannotOpen at herror
      split at herror
      · exact ParseError.noConfusion herror
      · exact about_ne_endless u _ (fun _ => ParseError.noConfusion) herror
    · split at h <;> exact Outcome.noConfusion h
  · split at h <;> exact Outcome.noConfusion h
  · exact about_ne_endless u _ (fun _ => ParseError.noConfusion) (Outcome.failed.inj h)
  · exact Outcome.noConfusion h
  · exact Outcome.noConfusion h

theorem Ends.ne_endless (h : Ends u c r) (typeName : String) (position : Position) :
    r ≠ .error (.endlessExpansion typeName position) := by
  induction h with
  | accepted h => simp
  | failed h =>
      intro he
      obtain rfl := Except.error.inj he
      exact step_ne_endless u _ _ _ h
  | running _ _ ih => exact ih

end Stacks

/-- Parsing always ends. For a grammar that passes the check for left recursion, with a table whose entries
are productions of the grammar, the two stacks come to an end on all tokens, with what the parser returns.
So the parser never stops a run for the number of its nodes. -/
theorem parse_terminates {g : Grammar} {table : ParseTable}
    (hrecursion : g.checkLeftRecursion g.firstTable = .ok ()) (hfits : table.Fits g)
    (tokens : List Token) :
    Stacks.Ends ⟨g, table, endPosition tokens⟩ (Stacks.initial g tokens) (parse g table tokens) ∧
      ∀ typeName position, parse g table tokens ≠ .error (.endlessExpansion typeName position) := by
  obtain ⟨rank, hrank⟩ := exists_rank_of_checkLeftRecursion hrecursion
  have hends : Stacks.Ends ⟨g, table, endPosition tokens⟩ (Stacks.initial g tokens)
      (parse g table tokens) := by
    apply Stacks.ends_parse hfits
    intro s hs nt todo htodo hnt
    exact hs.depth_lt hrank htodo hnt
  exact ⟨hends, hends.ne_endless⟩

/-- Two nested conditions and one alternative. -/
def danglingTokens : List Token :=
  [(0, "if"), (0, "if"), (1, "skip"), (2, "else"), (1, "skip")].map fun (i, text) =>
    ⟨i, text, .token text, .outside⟩

theorem parse_terminates_danglingGrammar :
    ∃ table t, danglingGrammar.parseTable danglingGrammar.firstTable
        (danglingGrammar.followTable danglingGrammar.firstTable) = .ok table ∧
      table.resolutions ≠ [] ∧ table.Fits danglingGrammar ∧
      danglingGrammar.checkLeftRecursion danglingGrammar.firstTable = .ok () ∧
      Stacks.Ends ⟨danglingGrammar, table, endPosition danglingTokens⟩
        (Stacks.initial danglingGrammar danglingTokens) (.ok t) := by
  have hcheck : (danglingGrammar.parseTable danglingGrammar.firstTable
      (danglingGrammar.followTable danglingGrammar.firstTable)).toOption.any (fun table =>
        !table.resolutions.isEmpty &&
          (parse danglingGrammar table danglingTokens).toOption.isSome) = true := by
    cbv
  have hrecursion : danglingGrammar.checkLeftRecursion danglingGrammar.firstTable = .ok () := by
    cbv
  cases htable : danglingGrammar.parseTable danglingGrammar.firstTable
      (danglingGrammar.followTable danglingGrammar.firstTable) with
  | error e => exact absurd hcheck (by simp [htable, Except.toOption])
  | ok table =>
      have hfits : table.Fits danglingGrammar := by
        rw [(parseTable_eq_ok htable).1]
        exact fits_allCells _ _ _
      simp only [htable, Except.toOption, Option.any_some, Bool.and_eq_true, Bool.not_eq_true',
        List.isEmpty_eq_false_iff] at hcheck
      have hends := (parse_terminates hrecursion hfits danglingTokens).1
      cases hparse : parse danglingGrammar table danglingTokens with
      | error e => exact absurd hcheck.2 (by simp [hparse])
      | ok t =>
          rw [hparse] at hends
          exact ⟨table, t, rfl, hcheck.1, hfits, hrecursion, hends⟩

/-- Rows that begin with a row, which is preferred to one item. -/
def endlessGrammar : Grammar :=
  { nonTerminals :=
      [⟨"Row", [⟨[.nonTerminal 0, .terminal 0], .child 0, .default⟩,
        ⟨[.terminal 0], .emptyList, .lowest⟩]⟩]
    arena := ⟨[.literal "x"]⟩
    start := 0 }

/-- The check is needed. With the table that a left recursive grammar gets from its priorities, the machine
does not end. -/
theorem not_ends_endlessGrammar :
    endlessGrammar.checkLeftRecursion endlessGrammar.firstTable = .error (.leftRecursion "Row") ∧
      ∃ table, endlessGrammar.parseTable endlessGrammar.firstTable
          (endlessGrammar.followTable endlessGrammar.firstTable) = .ok table ∧
        table.Fits endlessGrammar ∧
        ∀ r, ¬ Stacks.Ends ⟨endlessGrammar, table, .outside⟩
          (Stacks.initial endlessGrammar [⟨0, "x", .token "x", .outside⟩]) r := by
  have hcheck : (endlessGrammar.parseTable endlessGrammar.firstTable
      (endlessGrammar.followTable endlessGrammar.firstTable)).toOption.any (fun table =>
        table.get? 0 (.terminal 0) = some 0) = true := by
    cbv
  refine ⟨by cbv, ?_⟩
  cases htable : endlessGrammar.parseTable endlessGrammar.firstTable
      (endlessGrammar.followTable endlessGrammar.firstTable) with
  | error e => exact absurd hcheck (by simp [htable, Except.toOption])
  | ok table =>
      simp only [htable, Except.toOption, Option.any_some, decide_eq_true_eq] at hcheck
      refine ⟨table, rfl, ?_, fun r => ?_⟩
      · rw [(parseTable_eq_ok htable).1]
        exact fits_allCells _ _ _
      · -- A row is to be read next, and nothing was read so far.
        apply Stacks.not_ends_of_invariant
          (P := fun c => ∃ frames values, c = ⟨.expect (.nonTerminal 0) :: frames, values,
            [⟨0, "x", .token "x", .outside⟩]⟩)
        · rintro c ⟨frames, values, rfl⟩
          refine ⟨⟨.expect (.nonTerminal 0) :: .expect (.terminal 0) :: .reduce 0 0 2 :: frames, values,
            [⟨0, "x", .token "x", .outside⟩]⟩, ?_, _, _, rfl⟩
          rw [Stacks.step, lookahead, hcheck]
          rfl
        · exact ⟨[], [], rfl⟩

end SmallLang.Parser
