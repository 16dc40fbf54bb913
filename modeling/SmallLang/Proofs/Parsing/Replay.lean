import SmallLang.Proofs.Parsing.Guided

/-!
# Runs that share their beginning

A step looks at the next token only, and only at its terminal. So a run from a state can be replayed
with other tokens in the place of those that it leaves unread, as long as the lookahead there is the
same: it comes to the same path of open nodes (`Parser.exists_read_of_leads`), it fails where the
other one fails (`Parser.exists_failed_of_step`), and it completes the same tree
(`Parser.finished_of_step`). Where the input ends matters to messages only.
-/

set_option autoImplicit false

namespace SmallLang.Parser

open Parser.Setup (lookahead)

variable {g : Grammar} {table : ParseTable} {endsAt : Position} (endsAt' : Position)
  {ts : List Token}

/-- The state with other tokens not read. -/
def State.withTokens (s : State) (ts : List Token) : State := { s with tokens := ts }

/-! ## One step -/

/-- Nodes are opened by the lookahead alone. -/
theorem expand_congr {nt position depth : Nat} {tokens : List Token} {o : Open}
    (h : Setup.expand ⟨g, table, endsAt⟩ nt tokens position depth = .ok o)
    (hla : lookahead tokens = lookahead ts) :
    Setup.expand ⟨g, table, endsAt'⟩ nt ts position depth = .ok o := by
  unfold Setup.expand at h ⊢
  simp only at h ⊢
  rw [← hla]
  cases hget : table.get? nt (lookahead tokens) with
  | none => simp [hget] at h
  | some p =>
      simp only [hget] at h ⊢
      split at h
      · rename_i hdepth
        have hdepth' : depth < Setup.maxDepth ⟨g, table, endsAt'⟩ := hdepth
        rw [if_pos hdepth']
        exact h
      · simp at h

theorem exists_expand_error {nt position depth : Nat} {tokens : List Token} {e : ParseError}
    (h : Setup.expand ⟨g, table, endsAt⟩ nt tokens position depth = .error e)
    (hla : lookahead tokens = lookahead ts) :
    ∃ e', Setup.expand ⟨g, table, endsAt'⟩ nt ts position depth = .error e' := by
  cases hexpand : Setup.expand ⟨g, table, endsAt'⟩ nt ts position depth with
  | error e' => exact ⟨e', rfl⟩
  | ok o =>
      rw [expand_congr endsAt hexpand hla.symm] at h
      simp at h

theorem exists_shift_error {terminal : Nat} {tokens : List Token} {e : ParseError}
    (h : Setup.shift ⟨g, table, endsAt⟩ terminal tokens = .error e)
    (hla : lookahead tokens = lookahead ts) :
    ∃ e', Setup.shift ⟨g, table, endsAt'⟩ terminal ts = .error e' := by
  cases ts with
  | nil => exact ⟨_, rfl⟩
  | cons t ts =>
      cases tokens with
      | nil => exact Lookahead.noConfusion hla
      | cons t' tokens =>
          obtain hterminal : t'.terminal = t.terminal := Lookahead.terminal.inj hla
          unfold Setup.shift at h ⊢
          simp only at h ⊢
          split at h
          · simp at h
          · rename_i hne
            rw [if_neg (hterminal ▸ hne)]
            exact ⟨_, rfl⟩

/-- A step that goes on reads a token or none. It can be taken with any tokens after that which begin
with the same terminal. -/
theorem exists_read_of_step {s s' : State} (h : step ⟨g, table, endsAt⟩ s = .running s')
    (hla : lookahead s'.tokens = lookahead ts) :
    ∃ read, s.tokens = read ++ s'.tokens ∧
      step ⟨g, table, endsAt'⟩ (s.withTokens (read ++ ts)) = .running (s'.withTokens ts) := by
  obtain ⟨top, below, tokens, position⟩ := s
  unfold step at h
  simp only at h
  split at h
  · -- A complete node needs no token.
    rename_i htodo
    cases below with
    | nil => simp at h
    | cons o below =>
        obtain rfl := Outcome.running.inj h
        refine ⟨[], rfl, ?_⟩
        simp only [State.withTokens, step, htodo, List.nil_append]
  · -- A token is read, and what comes after it does not matter.
    rename_i terminal todo htodo
    split at h
    · simp at h
    · rename_i token rest hshift
      obtain rfl := Outcome.running.inj h
      obtain rfl := shift_ok hshift
      have hterminal := terminal_of_shift hshift
      refine ⟨[token], rfl, ?_⟩
      simp only [State.withTokens, step, htodo, List.cons_append, List.nil_append, Setup.shift,
        hterminal, if_true]
  · -- A node is opened by the lookahead.
    rename_i nt todo htodo
    split at h
    · simp at h
    · rename_i o hexpand
      obtain rfl := Outcome.running.inj h
      refine ⟨[], rfl, ?_⟩
      have hexpand' := expand_congr endsAt' hexpand hla
      simp only [State.withTokens, step, htodo, List.nil_append, hexpand']

theorem exists_failed_of_step {s : State} {e : ParseError}
    (h : step ⟨g, table, endsAt⟩ s = .failed e) (hla : lookahead s.tokens = lookahead ts) :
    ∃ e', step ⟨g, table, endsAt'⟩ (s.withTokens ts) = .failed e' := by
  unfold step at h
  split at h
  · split at h <;> simp at h
  · rename_i terminal todo htodo
    split at h
    · rename_i hshift
      obtain ⟨e', he'⟩ := exists_shift_error endsAt' hshift hla
      refine ⟨e', ?_⟩
      simp only [State.withTokens, step, htodo, he']
    · simp at h
  · rename_i nt todo htodo
    split at h
    · rename_i hexpand
      obtain ⟨e', he'⟩ := exists_expand_error endsAt' hexpand hla
      refine ⟨e', ?_⟩
      simp only [State.withTokens, step, htodo, he']
    · simp at h

theorem finished_of_step {s : State} {tree : ParseTree} {rest : List Token}
    (h : step ⟨g, table, endsAt⟩ s = .finished tree rest) (ts : List Token) :
    rest = s.tokens ∧
      step ⟨g, table, endsAt'⟩ (s.withTokens ts) = .finished tree ts := by
  unfold step at h
  split at h
  · rename_i htodo
    split at h
    · rename_i hbelow
      obtain ⟨rfl, rfl⟩ := Outcome.finished.inj h
      refine ⟨rfl, ?_⟩
      simp only [State.withTokens, step, htodo, hbelow]
    · simp at h
  · split at h <;> simp at h
  · split at h <;> simp at h

/-! ## Runs -/

/-- A run from one state to another one can be replayed with other tokens after those that it reads. -/
theorem exists_read_of_leads {s s' : State} (h : Leads ⟨g, table, endsAt⟩ s s')
    (hla : lookahead s'.tokens = lookahead ts) :
    ∃ read, s.tokens = read ++ s'.tokens ∧
      Leads ⟨g, table, endsAt'⟩ (s.withTokens (read ++ ts)) (s'.withTokens ts) := by
  induction h using Relation.ReflTransGen.head_induction_on with
  | refl => exact ⟨[], rfl, .refl⟩
  | @head s₁ s₂ hstep _ ih =>
      obtain ⟨read, hread, hleads⟩ := ih
      -- The lookahead after the first step is the same in both runs.
      have hnext : lookahead s₂.tokens = lookahead (read ++ ts) := by
        rw [hread]
        cases read with
        | nil => exact hla
        | cons t read => rfl
      obtain ⟨first, hfirst, hstep'⟩ := exists_read_of_step endsAt' hstep hnext
      refine ⟨first ++ read, ?_, ?_⟩
      · rw [hfirst, hread, List.append_assoc]
      · rw [List.append_assoc]
        exact hleads.head hstep'

theorem run_eq_of_failed {u : Setup} {s : State} {e : ParseError} (h : step u s = .failed e) :
    run u s = .error e := by
  rw [run]
  split
  · rename_i hstep
    rw [h] at hstep
    rw [Outcome.failed.inj hstep]
  · rename_i hstep
    rw [h] at hstep
    exact Outcome.noConfusion hstep
  · rename_i hstep
    rw [h] at hstep
    exact Outcome.noConfusion hstep

/-- A run that fails leads to a step that fails. -/
theorem exists_leads_of_run_error {u : Setup} {s : State} {e : ParseError}
    (h : run u s = .error e) : ∃ s', Leads u s s' ∧ step u s' = .failed e := by
  fun_induction run u s with
  | case1 s e' hstep =>
      obtain rfl := Except.error.inj h
      exact ⟨s, .refl, hstep⟩
  | case2 s tree rest hstep => simp at h
  | case3 s s' hstep _ ih =>
      obtain ⟨s'', hleads, hfailed⟩ := ih h
      exact ⟨s'', hleads.head hstep, hfailed⟩

/-- A run that gives a tree leads to a step that completes it. -/
theorem exists_leads_of_run_ok {u : Setup} {s : State} {tree : ParseTree} {rest : List Token}
    (h : run u s = .ok (tree, rest)) :
    ∃ s', Leads u s s' ∧ step u s' = .finished tree rest := by
  fun_induction run u s with
  | case1 s e hstep => simp at h
  | case2 s tree' rest' hstep =>
      obtain ⟨rfl, rfl⟩ := Prod.mk.inj (Except.ok.inj h)
      exact ⟨s, .refl, hstep⟩
  | case3 s s' hstep _ ih =>
      obtain ⟨s'', hleads, hfinished⟩ := ih h
      exact ⟨s'', hleads.head hstep, hfinished⟩

end SmallLang.Parser
