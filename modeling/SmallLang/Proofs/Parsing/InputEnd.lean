import SmallLang.Proofs.Parsing.Replay
import SmallLang.Proofs.Scanning.Winner

/-!
# Where the input ends

The parser sees tokens, not the text that they come from. If it misses something at the end of the
input, it says so at the place right after the last token (`Parser.position_of_unexpectedEnd`). What
the scanner passes over after that token does not count: the text up to the place ends with the last
token, and only layout follows (`Language.unexpectedEnd_after_tokens`). So the place is the end of
the text if and only if the text does not end with layout.
-/

set_option autoImplicit false

namespace SmallLang

/-! ## Errors at the end of the input -/

/-- If the error is that the input ends, it shows at the given place. -/
def ParseError.EndsAt (e : ParseError) (place : Position) : Prop :=
  ∀ expected position, e = .unexpectedEnd expected position → position = place

namespace Parser

variable {u : Setup} {e : ParseError}

/-- An error about a token is not that the input ends. -/
theorem endsAt_about {t : Token} {describe : String → ParseError}
    (h : ∀ found, (describe found).EndsAt u.endsAt) : (u.about t describe).EndsAt u.endsAt := by
  unfold Setup.about
  split
  · exact h _
  · exact fun _ _ heq => ParseError.noConfusion heq

theorem endsAt_of_expand {nt position depth : Nat} {tokens : List Token}
    (h : u.expand nt tokens position depth = .error e) : e.EndsAt u.endsAt := by
  unfold Setup.expand at h
  split at h
  · obtain rfl := Except.error.inj h
    cases tokens with
    | nil => exact fun _ _ heq => (ParseError.unexpectedEnd.inj heq).2.symm
    | cons t rest => exact endsAt_about fun _ _ _ heq => ParseError.noConfusion heq
  · split at h
    · simp at h
    · obtain rfl := Except.error.inj h
      exact fun _ _ heq => ParseError.noConfusion heq

theorem endsAt_of_shift {terminal : Nat} {tokens : List Token}
    (h : u.shift terminal tokens = .error e) : e.EndsAt u.endsAt := by
  unfold Setup.shift at h
  split at h
  · obtain rfl := Except.error.inj h
    exact fun _ _ heq => (ParseError.unexpectedEnd.inj heq).2.symm
  · split at h
    · simp at h
    · obtain rfl := Except.error.inj h
      exact endsAt_about fun _ _ _ heq => ParseError.noConfusion heq

/-- A step that misses something at the end of the input says so where the input ends. -/
theorem endsAt_of_step {s : State} (h : step u s = .failed e) : e.EndsAt u.endsAt := by
  unfold step at h
  split at h
  · split at h <;> simp at h
  · split at h
    · rename_i hshift
      obtain rfl := Outcome.failed.inj h
      exact endsAt_of_shift hshift
    · simp at h
  · split at h
    · rename_i hexpand
      obtain rfl := Outcome.failed.inj h
      exact endsAt_of_expand hexpand
    · simp at h

/-- So does the parser, for which the input ends right after the last token. -/
theorem position_of_unexpectedEnd {g : Grammar} {table : ParseTable} {tokens : List Token}
    {expected : String} {position : Position}
    (h : parse g table tokens = .error (.unexpectedEnd expected position)) :
    position = endPosition tokens := by
  unfold parse at h
  simp only at h
  split at h
  · rename_i hexpand
    obtain rfl := Except.error.inj h
    exact endsAt_of_expand hexpand _ _ rfl
  · split at h
    · rename_i hrun
      obtain rfl := Except.error.inj h
      obtain ⟨s, -, hfailed⟩ := exists_leads_of_run_error hrun
      exact endsAt_of_step hfailed _ _ rfl
    · simp at h
    · rename_i t _ _
      have habout : (Setup.about ⟨g, table, endPosition tokens⟩ t fun found =>
          .unconsumedInput found t.position).EndsAt (endPosition tokens) :=
        endsAt_about (u := ⟨g, table, endPosition tokens⟩) fun _ _ _ heq =>
          ParseError.noConfusion heq
      exact habout _ _ (Except.error.inj h)

end Parser

/-! ## The end of the tokens in a text -/

/-- A text with its last token, which ends it and knows its place; without tokens the text is
empty. -/
def EndsWithToken (body : List Char) (tokens : List Token) : Prop :=
  (tokens = [] → body = []) ∧ ∀ t ∈ tokens.getLast?, ∃ before,
    body = before ++ t.text.toList ∧ t.position = Position.after before

/-- After the last token of a partition there is nothing or layout. -/
theorem Partition.exists_body {before rest : List Char} {tokens : List Token}
    (h : Partition before rest tokens) : ∃ body gap, rest = body ++ gap ∧
      (gap = [] ∨ gap ∈ Text.layout) ∧ (tokens = [] → body = []) ∧
      ∀ t ∈ tokens.getLast?, ∃ skipped, body = skipped ++ t.text.toList ∧
        t.position = Position.after (before ++ skipped) := by
  induction h with
  | @last before gap hgap => exact ⟨[], gap, rfl, hgap, fun _ => rfl, by simp⟩
  | @token before gap rest t tokens hgap htext hposition _ ih =>
      obtain ⟨body, after, rfl, hafter, hnone, hlast⟩ := ih
      refine ⟨gap ++ t.text.toList ++ body, after, by simp only [List.append_assoc], hafter,
        by simp, ?_⟩
      cases tokens with
      | nil =>
          -- The token is the last one itself, and nothing comes between it and the layout.
          intro last hmem
          obtain rfl : t = last := Option.some.inj hmem
          exact ⟨gap, by rw [hnone rfl, List.append_nil], hposition⟩
      | cons t' tokens =>
          intro last hmem
          rw [List.getLast?_cons_cons] at hmem
          obtain ⟨skipped, rfl, hposition'⟩ := hlast last hmem
          refine ⟨gap ++ t.text.toList ++ skipped, by simp only [List.append_assoc], ?_⟩
          rw [hposition']
          simp only [List.append_assoc]

/-- The place right after the last token is the one after the text up to there. -/
theorem EndsWithToken.endPosition_eq {body : List Char} {tokens : List Token}
    (h : EndsWithToken body tokens) : endPosition tokens = Position.after body := by
  obtain ⟨hnone, hlast⟩ := h
  unfold endPosition
  cases ht : tokens.getLast? with
  | none =>
      rw [hnone (List.getLast?_eq_none_iff.1 ht)]
      exact Position.after_nil.symm
  | some t =>
      obtain ⟨before, rfl, hposition⟩ := hlast t ht
      show t.endPosition = _
      rw [Token.endPosition, hposition, Position.advance_after]

/-- Only the end of a text is after all of it. -/
theorem Position.after_eq_after_append_iff {before more : List Char} :
    after before = after (before ++ more) ↔ more = [] := by
  constructor
  · intro h
    have hoffset : (before.map Char.utf8Size).sum = ((before ++ more).map Char.utf8Size).sum :=
      congrArg Position.offset h
    cases more with
    | nil => rfl
    | cons c more =>
        have hpos := c.utf8Size_pos
        rw [List.map_append, List.sum_append, List.map_cons, List.sum_cons] at hoffset
        omega
  · rintro rfl
    rw [List.append_nil]

namespace Language

variable {l : Language} {text : String} {expected : String} {position : Position}

/-- Scanning does not fail because the input ends, so the parser does. -/
theorem tokens_of_unexpectedEnd (h : l.parse text = .error (.unexpectedEnd expected position)) :
    ∃ tokens, l.tokenize text = .ok tokens ∧
      Parser.parse l.grammar l.compiled.table tokens = .error (.unexpectedEnd expected position) := by
  rw [parse] at h
  cases htokens : l.tokenize text with
  | error e =>
      rw [htokens] at h
      obtain rfl := Except.error.inj h
      obtain ⟨_, _, -, -, hnext⟩ := Scanner.exists_next_of_scanFrom_error htokens
      rcases Scanner.cases_of_nextToken_error hnext with ⟨-, he⟩ | ⟨_, _, -, -, -, he⟩
      · exact ParseError.noConfusion he
      · exact ParseError.noConfusion he
  | ok tokens =>
      rw [htokens] at h
      refine ⟨tokens, rfl, ?_⟩
      change l.parseTokens tokens = _ at h
      rw [parseTokens, treeOfTokens] at h
      cases hparse : Parser.parse l.grammar l.compiled.table tokens with
      | error e =>
          rw [hparse] at h
          exact congrArg _ (Except.error.inj h)
      | ok t => simp [hparse, Except.map] at h

/-- An error that the input ends shows right after the last token. The text is split there: the
first part ends with the last token, or is empty if there is none, and nothing or layout follows.
The offset of the place counts the bytes of that part, the line its line ends, and the column its
characters after the last line end. The place is the end of the text if and only if no layout
follows the last token. In a text of fewer than 2³¹ characters line and column need no more than 32
bits. -/
theorem unexpectedEnd_after_tokens
    (h : l.parse text = .error (.unexpectedEnd expected position)) :
    ∃ tokens body gap, l.tokenize text = .ok tokens ∧ text.toList = body ++ gap ∧
      EndsWithToken body tokens ∧ (gap = [] ∨ gap ∈ Text.layout) ∧
      position.offset = (body.map Char.utf8Size).sum ∧
      position.line = 1 + body.count '\n' ∧
      position.column = 1 + (body.reverse.takeWhile (· ≠ '\n')).length ∧
      (position = Position.after text.toList ↔ gap = []) ∧
      (text.length < 2 ^ 31 → position.line < 2 ^ 32 ∧ position.column < 2 ^ 32) := by
  obtain ⟨tokens, htokens, hparse⟩ := tokens_of_unexpectedEnd h
  have hpartition : Partition [] text.toList tokens := Partition.of_scanFrom htokens
  obtain ⟨body, gap, htext, hgap, hnone, hlast⟩ := hpartition.exists_body
  have hbody : EndsWithToken body tokens := ⟨hnone, hlast⟩
  obtain rfl : position = Position.after body :=
    (Parser.position_of_unexpectedEnd hparse).trans hbody.endPosition_eq
  refine ⟨tokens, body, gap, htokens, htext, hbody, hgap, rfl, rfl, rfl, ?_, fun hlength => ?_⟩
  · rw [htext]
    exact Position.after_eq_after_append_iff
  · have hshorter : body.length ≤ text.length := by
      rw [← String.length_toList, htext, List.length_append]
      exact Nat.le_add_right _ _
    have hline := Position.line_after_le body
    have hcolumn := Position.column_after_le body
    omega

/-- Two words, one after the other. -/
def wordPair : List NodeType :=
  [(NodeType.named "Pair").generates [.literal "x", .literal "y"] .default |>.start]

set_option maxRecDepth 20000 in
theorem parse_wordPair : ∃ l, assemble wordPair .quiet = .ok l ∧
    l.parse "x\n" = .error (.unexpectedEnd "\"y\"" ⟨1, 1, 2⟩) := by
  have hcheck : (assemble wordPair .quiet).toOption.any (fun l =>
      match l.parse "x\n" with
      | .ok _ => false
      | .error e => decide (e = .unexpectedEnd "\"y\"" ⟨1, 1, 2⟩)) = true := by
    cbv
  obtain ⟨l, hl, hcheck⟩ := exists_of_any_assemble hcheck
  refine ⟨l, hl, ?_⟩
  cases hparse : l.parse "x\n" with
  | ok v => simp [hparse] at hcheck
  | error e =>
      rw [hparse] at hcheck
      rw [of_decide_eq_true hcheck]

/-- The second word is missed right after the first one, before the end of the line. -/
theorem unexpectedEnd_after_tokens_wordPair : ∃ l body gap, assemble wordPair .quiet = .ok l ∧
    l.parse "x\n" = .error (.unexpectedEnd "\"y\"" ⟨1, 1, 2⟩) ∧
    "x\n".toList = body ++ gap ∧ (body.map Char.utf8Size).sum = 1 ∧ gap ∈ Text.layout := by
  obtain ⟨l, hl, hparse⟩ := parse_wordPair
  obtain ⟨_, body, gap, -, htext, -, hgap, hoffset, -, -, hend, -⟩ :=
    unexpectedEnd_after_tokens hparse
  refine ⟨l, body, gap, hl, hparse, htext, hoffset.symm, hgap.resolve_left fun hnone => ?_⟩
  exact absurd (hend.2 hnone) (by decide)

/-- The text ends on the next line, which is not where the error shows. -/
theorem exists_unexpectedEnd_before_end : ∃ l, assemble wordPair .quiet = .ok l ∧
    l.parse "x\n" = .error (.unexpectedEnd "\"y\"" ⟨1, 1, 2⟩) ∧
    Position.after "x\n".toList = ⟨2, 2, 1⟩ := by
  obtain ⟨l, hl, hparse⟩ := parse_wordPair
  exact ⟨l, hl, hparse, by decide⟩

end Language

end SmallLang
