import Mathlib.Logic.Relation
import SmallLang.Language
import SmallLang.Proofs.Language
import SmallLang.Proofs.Scanning.Layout

/-!
# Scanning partitions the text

The scanner can be read as a loop over byte offsets (`Scan`): it slices the text at its offset, moves on
over the layout, slices again, and takes a token at the start of the rest. Such a loop may run forever, if
it does not move, and it is stuck if an offset falls into a character or a match is longer than the rest.

Where no match is longer than the text that it is looked for in, the loop always ends, with what the scanner
returns (`Scan.ends_tokenize`). It stands only at places after some part of the text. Tokens that it returns
partition the text (`Partition`): they stand one after the other, none is empty, each knows its place, and
what is between them is nothing or layout. `Scanner.tokenize_partitions` is the result, for the scanner of
any arena.
-/

set_option autoImplicit false

namespace SmallLang

/-! ## Slices -/

/-- The text from a byte offset on, if a character begins there or the text ends there. -/
def dropBytes? : List Char → Nat → Option (List Char)
  | cs, 0 => some cs
  | [], _ + 1 => none
  | c :: cs, n + 1 => if c.utf8Size ≤ n + 1 then dropBytes? cs (n + 1 - c.utf8Size) else none

/-- The rest of a text from the place after its first part on. -/
theorem dropBytes?_after (before rest : List Char) :
    dropBytes? (before ++ rest) (Position.after before).offset = some rest := by
  show dropBytes? (before ++ rest) (before.map Char.utf8Size).sum = some rest
  induction before with
  | nil => rw [List.map_nil, List.sum_nil, dropBytes?, List.nil_append]
  | cons c before ih =>
      rw [List.map_cons, List.sum_cons, List.cons_append]
      obtain ⟨n, hn⟩ : ∃ n, c.utf8Size + (before.map Char.utf8Size).sum = n + 1 :=
        Nat.exists_eq_succ_of_ne_zero (by have := c.utf8Size_pos; omega)
      rw [hn, dropBytes?, ← hn, if_pos (Nat.le_add_right _ _), Nat.add_sub_cancel_left, ih]

/-! ## The loop -/

/-- The place that the loop has come to, and the tokens so far. -/
structure Scan where
  position : Position
  tokens : List Token

namespace Scan

/-- What a round of the loop leads to. -/
inductive Outcome where
  | running (c : Scan)
  | finished (tokens : List Token)
  | failed (e : ParseError)
  /-- A slice does not begin or end at a character, or goes beyond the text. -/
  | stuck

/-- Before the first round. -/
def start : Scan := ⟨Position.start, []⟩

/-- One round of the loop. -/
def step (s : Scanner) (text : List Char) (c : Scan) : Outcome :=
  match dropBytes? text c.position.offset with
  | none => .stuck
  | some rest =>
      let here := c.position.advance (spanLayout false rest).1
      match dropBytes? text here.offset with
      | none => .stuck
      | some [] => .finished c.tokens
      | some rest =>
          match s.longestMatch? rest with
          | none =>
              let word := rest.takeWhile fun c => !Text.isBlank c
              .failed (.unrecognizedToken (String.ofList word) here)
          | some m =>
              if rest.length < m.length then .stuck
              else
                let word := rest.take m.length
                match m.terminal.decode (String.ofList word) here with
                | .error e => .failed e
                | .ok v =>
                    .running
                      { position := here.advance word
                        tokens := c.tokens ++ [⟨m.index, String.ofList word, v, here⟩] }

/-- The loop comes from one state to another one. -/
abbrev Reaches (s : Scanner) (text : List Char) : Scan → Scan → Prop :=
  Relation.ReflTransGen fun c c' => step s text c = .running c'

/-- After finitely many rounds the loop gives tokens or fails. -/
inductive Ends (s : Scanner) (text : List Char) : Scan → Except ParseError (List Token) → Prop
  | finished {c : Scan} {tokens : List Token} (h : step s text c = .finished tokens) :
      Ends s text c (.ok tokens)
  | failed {c : Scan} {e : ParseError} (h : step s text c = .failed e) : Ends s text c (.error e)
  | running {c c' : Scan} {r : Except ParseError (List Token)} (h : step s text c = .running c')
      (hrest : Ends s text c' r) : Ends s text c r

end Scan

/-! ## Matches -/

/-- No match is longer than the text that it is looked for in. -/
def MatchesWithin (matchLength : List Char → Option Nat) : Prop :=
  ∀ cs n, matchLength cs = some n → n ≤ cs.length

/-- The end that the search finds is not beyond the text. -/
theorem Automaton.endFrom?_le {steps : Array Step} {before : Option Char} {work : List Nat}
    {marks : Marks} {taken n : Nat} {best : Option Nat} {cs : List Char}
    (hbest : ∀ b, best = some b → b ≤ taken)
    (h : endFrom? steps before work marks taken best cs = some n) : n ≤ taken + cs.length := by
  induction cs generalizing before work marks taken best with
  | nil =>
      rw [endFrom?] at h
      split at h
      · exact Nat.le_of_eq (Option.some.inj h).symm
      · exact hbest n h
  | cons c cs ih =>
      rw [endFrom?] at h
      -- The match that is preferred so far ends here or earlier.
      have hbest' : ∀ complete : Bool, ∀ b,
          (if complete = true then some taken else best) = some b → b ≤ taken := by
        intro complete b hb
        split at hb
        · exact Nat.le_of_eq (Option.some.inj hb).symm
        · exact hbest b hb
      simp only at h
      split at h
      · exact Nat.le_trans (hbest' _ n h) (Nat.le_add_right _ _)
      · have hle := ih (fun b hb => Nat.le_succ_of_le (hbest' _ b hb)) h
        rw [List.length_cons]
        omega

theorem Pattern.matchesWithin_compile {pattern : String} {f : List Char → Option Nat}
    (h : compile? pattern = some f) : MatchesWithin f := by
  intro cs n hn
  unfold compile? at h
  split at h
  · split at h
    · obtain rfl := Option.some.inj h
      have hle := Automaton.endFrom?_le (fun b hb => by simp at hb) hn
      rwa [Nat.zero_add] at hle
    · simp at h
  · simp at h

namespace Scanner

variable {s : Scanner} {text rest : List Char} {position : Position}

/-- The scanner takes no match that is longer than the rest of the text. -/
def Within (s : Scanner) : Prop := ∀ r ∈ s.recognizers, MatchesWithin r.matchLength

theorem Within.length_le (hs : s.Within) {m : Candidate} (h : s.longestMatch? rest = some m) :
    m.length ≤ rest.length := by
  obtain ⟨⟨r, i⟩, hr, hm⟩ := List.mem_filterMap.1 (mem_of_best? h)
  simp only at hm
  split at hm
  · rename_i n hn
    obtain rfl := Option.some.inj hm
    exact hs r (List.fst_mem_of_mem_zipIdx hr) rest (n + 1) hn
  · simp at hm

/-- Literals match within the text, and so do classes whose patterns do. -/
theorem matchesWithin_recognizer {compile? : String → Option (List Char → Option Nat)}
    (hcompile : ∀ pattern f, compile? pattern = some f → MatchesWithin f) {t : Terminal}
    {r : Recognizer} (h : recognizer compile? t = .ok r) : MatchesWithin r.matchLength := by
  cases t with
  | literal text =>
      obtain rfl := Except.ok.inj h
      intro cs n hn
      simp only at hn
      split at hn
      · rename_i hprefix
        obtain rfl := Option.some.inj hn
        exact (List.isPrefixOf_iff_prefix.1 hprefix).length_le
      · simp at hn
  | ofClass c =>
      rw [recognizer] at h
      split at h
      · rename_i f hf
        obtain rfl := Except.ok.inj h
        exact hcompile _ f hf
      · simp at h

theorem forall_mem_of_mapM {ε α β : Type} {f : α → Except ε β} {P : β → Prop}
    (hf : ∀ x y, f x = .ok y → P y) {xs : List α} {ys : List β} (h : xs.mapM f = .ok ys) :
    ∀ y ∈ ys, P y := by
  induction xs generalizing ys with
  | nil =>
      obtain rfl := Except.ok.inj h
      exact fun y hy => absurd hy List.not_mem_nil
  | cons x xs ih =>
      rw [List.mapM_cons] at h
      obtain ⟨y, hy, hrest⟩ := Except.bind_eq_ok_iff.1 h
      obtain ⟨ys', hys', hcons⟩ := Except.bind_eq_ok_iff.1 hrest
      obtain rfl := Except.ok.inj hcons
      exact List.forall_mem_cons.2 ⟨hf x y hy, ih hys'⟩

theorem within_ofArena {compile? : String → Option (List Char → Option Nat)}
    (hcompile : ∀ pattern f, compile? pattern = some f → MatchesWithin f) {arena : Arena}
    (h : ofArena compile? arena = .ok s) : s.Within := by
  rw [ofArena] at h
  cases hrs : arena.terminals.mapM (recognizer compile?) with
  | error e => simp [hrs, Except.map] at h
  | ok rs =>
      obtain rfl : Scanner.mk rs = s := by simpa [hrs, Except.map] using h
      intro r hr
      exact forall_mem_of_mapM (fun t r hr => matchesWithin_recognizer hcompile hr) hrs r hr

/-- The next token is the match that wins, if its text has a value. -/
theorem nextToken_eq_ok_iff {token : Token} {more : List Char} :
    s.nextToken position rest = .ok (token, more) ↔ ∃ c v, s.longestMatch? rest = some c ∧
      c.terminal.decode (String.ofList (rest.take c.length)) position = .ok v ∧
      token = ⟨c.index, String.ofList (rest.take c.length), v, position⟩ ∧
      more = rest.drop c.length := by
  unfold nextToken
  cases s.longestMatch? rest with
  | none => simp
  | some c =>
      cases hv : c.terminal.decode (String.ofList (rest.take c.length)) position with
      | error e => simp [hv, Except.map]
      | ok v => simp [hv, Except.map, eq_comm]

/-- What a token is made of: the characters of a match, and the rest. -/
theorem nextToken_eq_ok {token : Token} {more : List Char}
    (h : s.nextToken position rest = .ok (token, more)) :
    token.text.toList ++ more = rest ∧ token.position = position ∧
      (rest ≠ [] → token.text.toList ≠ []) := by
  obtain ⟨c, v, hc, -, rfl, rfl⟩ := nextToken_eq_ok_iff.1 h
  rw [String.toList_ofList]
  refine ⟨List.take_append_drop _ _, rfl, fun hrest => ?_⟩
  -- A match without characters does not count.
  have hpos := length_pos_of_longestMatch? hc
  intro hnil
  rcases List.take_eq_nil_iff.1 hnil with hzero | hnone
  · omega
  · exact hrest hnone

section

variable {before more : List Char} {token : Token}
  (hnext : s.nextToken position (spanLayout false rest).2 = .ok (token, more))
include hnext

/-- The rest after the layout and the token is shorter. -/
theorem length_lt_of_nextToken (hrest : (spanLayout false rest).2 ≠ []) :
    more.length < rest.length :=
  Nat.lt_of_lt_of_le (nextToken_length_lt hnext hrest) (spanLayout_length_le _ _)

/-- The layout and the token belong to what comes before the next round. -/
theorem append_of_nextToken (htext : before ++ rest = text) :
    before ++ (spanLayout false rest).1 ++ token.text.toList ++ more = text := by
  rw [List.append_assoc, (nextToken_eq_ok hnext).1, List.append_assoc, spanLayout_append, htext]

end

end Scanner

/-! ## The loop is the scanner -/

namespace Scan

variable {s : Scanner} {text before rest : List Char} {tokens : List Token}

/-- One round at the place after some part of the text takes the next token. -/
theorem step_after (hs : s.Within) (htext : before ++ rest = text) (tokens : List Token) :
    step s text ⟨Position.after before, tokens⟩ =
      let span := spanLayout false rest
      if span.2 = [] then .finished tokens
      else
        match s.nextToken (Position.after (before ++ span.1)) span.2 with
        | .error e => .failed e
        | .ok (token, _) =>
            .running ⟨Position.after (before ++ span.1 ++ token.text.toList), tokens ++ [token]⟩ := by
  have hrest := dropBytes?_after before rest
  rw [htext] at hrest
  have hspan : before ++ (spanLayout false rest).1 ++ (spanLayout false rest).2 = text := by
    rw [List.append_assoc, spanLayout_append, htext]
  have hmore := dropBytes?_after (before ++ (spanLayout false rest).1) (spanLayout false rest).2
  rw [hspan] at hmore
  unfold step
  simp only [hrest, Position.advance_after, hmore]
  cases hcs : (spanLayout false rest).2 with
  | nil => rfl
  | cons c cs =>
      rw [if_neg (List.cons_ne_nil _ _), Scanner.nextToken]
      cases hm : s.longestMatch? (c :: cs) with
      | none => simp only [hm]
      | some m =>
          have hle := hs.length_le hm
          simp only [hm, Nat.not_lt.2 hle, if_false]
          cases m.terminal.decode (String.ofList ((c :: cs).take m.length))
              (Position.after (before ++ (spanLayout false rest).1)) with
          | error e => rfl
          | ok v => simp only [Except.map, String.toList_ofList]

/-- So does the scanner. -/
theorem scanFrom_after (s : Scanner) (before rest : List Char) :
    s.scanFrom (Position.after before) rest =
      let span := spanLayout false rest
      if span.2 = [] then .ok []
      else
        match s.nextToken (Position.after (before ++ span.1)) span.2 with
        | .error e => .error e
        | .ok (token, more) =>
            (s.scanFrom (Position.after (before ++ span.1 ++ token.text.toList)) more).map
              (token :: ·) := by
  rw [Scanner.scanFrom]
  simp only [Position.advance_after]
  split
  · rfl
  · split
    · rename_i hnext
      rw [Position.advance_after] at hnext
      rw [hnext]
    · rename_i hnext
      rw [Position.advance_after] at hnext
      rw [hnext]

/-- From the place after some part of the text the loop ends with what the scanner returns for the
rest. -/
theorem ends_scanFrom (hs : s.Within) (htext : before ++ rest = text) (tokens : List Token) :
    Ends s text ⟨Position.after before, tokens⟩
      ((s.scanFrom (Position.after before) rest).map (tokens ++ ·)) := by
  induction hlength : rest.length using Nat.strong_induction_on generalizing before rest tokens with
  | _ n ih =>
      subst hlength
      have hstep := step_after hs htext tokens
      rw [scanFrom_after]
      by_cases hnil : (spanLayout false rest).2 = []
      · simp only [hnil, if_true] at hstep ⊢
        rw [Except.map, List.append_nil]
        exact .finished hstep
      · simp only [hnil, if_false] at hstep ⊢
        cases hnext : s.nextToken (Position.after (before ++ (spanLayout false rest).1))
            (spanLayout false rest).2 with
        | error e =>
            rw [hnext] at hstep
            exact .failed hstep
        | ok next =>
            obtain ⟨token, more⟩ := next
            rw [hnext] at hstep
            apply Ends.running hstep
            have hshorter := Scanner.length_lt_of_nextToken hnext hnil
            have hmore := Scanner.append_of_nextToken hnext htext
            have hends := ih _ hshorter hmore (tokens ++ [token]) rfl
            simp only
            cases hscan : s.scanFrom (Position.after (before ++ (spanLayout false rest).1 ++
                token.text.toList)) more with
            | error e =>
                rw [hscan] at hends
                exact hends
            | ok others =>
                rw [hscan] at hends
                simp only [Except.map, List.append_assoc] at hends ⊢
                exact hends

/-- The loop always ends, with what the scanner returns. -/
theorem ends_tokenize (hs : s.Within) (text : String) :
    Ends s text.toList start (s.tokenize text) := by
  have hends := ends_scanFrom hs (List.nil_append text.toList) []
  rw [Position.after_nil] at hends
  rw [Scanner.tokenize]
  cases hscan : s.scanFrom Position.start text.toList <;> rw [hscan] at hends <;> exact hends

/-- The loop stands at the place after some part of the text. -/
theorem exists_after_of_step (hs : s.Within) {c c' : Scan}
    (hc : ∃ before rest, before ++ rest = text ∧ c.position = Position.after before)
    (h : step s text c = .running c') :
    ∃ before rest, before ++ rest = text ∧ c'.position = Position.after before := by
  obtain ⟨before, rest, htext, hposition⟩ := hc
  obtain ⟨position, tokens⟩ := c
  obtain rfl : position = Position.after before := hposition
  rw [step_after hs htext] at h
  simp only at h
  split at h
  · exact Outcome.noConfusion h
  · split at h
    · exact Outcome.noConfusion h
    · rename_i token more hnext
      obtain rfl := Outcome.running.inj h
      exact ⟨_, more, Scanner.append_of_nextToken hnext htext, rfl⟩

theorem exists_after_of_reaches (hs : s.Within) {c : Scan} (h : Reaches s text start c) :
    ∃ before rest, before ++ rest = text ∧ c.position = Position.after before := by
  induction h with
  | refl => exact ⟨[], text, rfl, rfl⟩
  | tail _ hstep ih => exact exists_after_of_step hs ih hstep

end Scan

/-! ## The tokens -/

/-- After the text `before`, the tokens stand in `rest` one after the other: each is some characters of it,
knows its place, and comes after a gap of nothing or layout; such a gap comes last. -/
inductive Partition : List Char → List Char → List Token → Prop
  | last {before gap : List Char} (hgap : gap = [] ∨ gap ∈ Text.layout) : Partition before gap []
  | token {before gap rest : List Char} {t : Token} {tokens : List Token}
      (hgap : gap = [] ∨ gap ∈ Text.layout) (htext : t.text.toList ≠ [])
      (hposition : t.position = Position.after (before ++ gap))
      (hrest : Partition (before ++ gap ++ t.text.toList) rest tokens) :
      Partition before (gap ++ t.text.toList ++ rest) (t :: tokens)

namespace Partition

variable {before rest : List Char} {tokens : List Token}

/-- The tokens that the scanner returns partition the text. -/
theorem of_scanFrom {s : Scanner} (h : s.scanFrom (Position.after before) rest = .ok tokens) :
    Partition before rest tokens := by
  induction hlength : rest.length using Nat.strong_induction_on generalizing before rest tokens with
  | _ n ih =>
      subst hlength
      have hgap := spanLayout_layout rest
      have hsplit := spanLayout_append false rest
      rw [Scan.scanFrom_after] at h
      by_cases hnil : (spanLayout false rest).2 = []
      · simp only [hnil, if_true] at h
        obtain rfl := Except.ok.inj h
        rw [hnil, List.append_nil] at hsplit
        rw [← hsplit]
        exact .last hgap
      · simp only [hnil, if_false] at h
        split at h
        · simp at h
        · rename_i token more hnext
          have hshorter := Scanner.length_lt_of_nextToken hnext hnil
          obtain ⟨hmore, hposition, hword⟩ := Scanner.nextToken_eq_ok hnext
          cases hscan : s.scanFrom (Position.after (before ++ (spanLayout false rest).1 ++
              token.text.toList)) more with
          | error e =>
              rw [hscan] at h
              simp [Except.map] at h
          | ok others =>
              rw [hscan] at h
              obtain rfl : token :: others = tokens := Except.ok.inj h
              rw [← hsplit, ← hmore, ← List.append_assoc]
              exact .token hgap (hword hnil) hposition (ih _ hshorter hscan rfl)

/-- Every token is a slice at its place, after what comes before all of them. -/
theorem slice (h : Partition before rest tokens) :
    ∀ t ∈ tokens, t.text.toList ≠ [] ∧ ∃ skipped more,
      rest = skipped ++ t.text.toList ++ more ∧ t.position = Position.after (before ++ skipped) := by
  induction h with
  | last => exact fun t ht => absurd ht List.not_mem_nil
  | @token before gap rest t tokens _ htext hposition _ ih =>
      refine List.forall_mem_cons.2 ⟨⟨htext, gap, rest, rfl, hposition⟩, ?_⟩
      intro t' ht'
      obtain ⟨htext', skipped, more, rfl, hposition'⟩ := ih t' ht'
      refine ⟨htext', gap ++ t.text.toList ++ skipped, more, ?_, ?_⟩
      · simp only [List.append_assoc]
      · rw [hposition']
        simp only [List.append_assoc]

theorem offset_after_append (before more : List Char) :
    (Position.after before).offset ≤ (Position.after (before ++ more)).offset := by
  show (before.map Char.utf8Size).sum ≤ ((before ++ more).map Char.utf8Size).sum
  rw [List.map_append, List.sum_append]
  exact Nat.le_add_right _ _

/-- No token begins before the end of one that comes before it. -/
theorem pairwise (h : Partition before rest tokens) :
    tokens.Pairwise fun t t' => t.endPosition.offset ≤ t'.position.offset := by
  induction h with
  | last => exact List.Pairwise.nil
  | @token before gap rest t tokens _ _ hposition hrest ih =>
      refine List.pairwise_cons.2 ⟨?_, ih⟩
      intro t' ht'
      obtain ⟨-, skipped, more, -, hposition'⟩ := hrest.slice t' ht'
      rw [Token.endPosition, hposition, Position.advance_after, hposition']
      exact offset_after_append _ _

end Partition

namespace Scanner

/-- Scanning partitions the text. Given a matcher for the patterns of classes that keeps within the text, the
scanner of any arena ends on every text. Where it returns tokens, they partition the text; in particular
each is a part of the text that is not empty, at its offset, with the number of line ends before it and of
characters since the last of them, and none begins before the end of an earlier one. In a text of fewer than
2³¹ characters no line and no column that the loop comes to needs more than 32 bits. -/
theorem tokenize_partitions {compile? : String → Option (List Char → Option Nat)}
    (hcompile : ∀ pattern f, compile? pattern = some f → MatchesWithin f) {arena : Arena}
    {s : Scanner} (h : ofArena compile? arena = .ok s) (text : String) :
    Scan.Ends s text.toList Scan.start (s.tokenize text) ∧
      (∀ tokens, s.tokenize text = .ok tokens →
        Partition [] text.toList tokens ∧
        (∀ t ∈ tokens, t.text.toList ≠ [] ∧ ∃ before more,
          text.toList = before ++ t.text.toList ++ more ∧
          t.position.offset = (before.map Char.utf8Size).sum ∧
          t.position.line = 1 + before.count '\n' ∧
          t.position.column = 1 + (before.reverse.takeWhile (· ≠ '\n')).length) ∧
        tokens.Pairwise fun t t' => t.endPosition.offset ≤ t'.position.offset) ∧
      (text.length < 2 ^ 31 → ∀ c, Scan.Reaches s text.toList Scan.start c →
        c.position.line < 2 ^ 32 ∧ c.position.column < 2 ^ 32) := by
  have hs := within_ofArena hcompile h
  refine ⟨Scan.ends_tokenize hs text, fun tokens htokens => ?_, fun hlength c hreaches => ?_⟩
  · have hpartition : Partition [] text.toList tokens := Partition.of_scanFrom htokens
    refine ⟨hpartition, fun t ht => ?_, hpartition.pairwise⟩
    obtain ⟨htext, before, more, hsplit, hposition⟩ := hpartition.slice t ht
    rw [List.nil_append] at hposition
    refine ⟨htext, before, more, hsplit, ?_, ?_, ?_⟩ <;> rw [hposition] <;> rfl
  · obtain ⟨before, rest, hsplit, hposition⟩ := Scan.exists_after_of_reaches hs hreaches
    have hbefore : before.length ≤ text.length := by
      rw [← String.length_toList, ← hsplit, List.length_append]
      exact Nat.le_add_right _ _
    have hline := Position.line_after_le before
    have hcolumn := Position.column_after_le before
    rw [hposition]
    omega

/-- A sum with a comment, the end of a line and a character of two bytes in the comment and in a text. -/
def annotatedSum : String := "1 % é\n  + \"a\né\" 2"

theorem tokenize_partitions_annotatedSum :
    ∃ s tokens, ofArena Pattern.compile? ⟨[.number, .literal "+", .string]⟩ = .ok s ∧
      s.tokenize annotatedSum = .ok tokens ∧
      tokens.map Token.position = [⟨0, 1, 1⟩, ⟨9, 2, 3⟩, ⟨11, 2, 5⟩, ⟨18, 3, 4⟩] ∧
      Partition [] annotatedSum.toList tokens ∧
      Scan.Ends s annotatedSum.toList Scan.start (.ok tokens) ∧
      ∀ c, Scan.Reaches s annotatedSum.toList Scan.start c →
        c.position.line < 2 ^ 32 ∧ c.position.column < 2 ^ 32 := by
  have hcheck : (ofArena Pattern.compile? ⟨[.number, .literal "+", .string]⟩).toOption.any (fun s =>
      match s.tokenize annotatedSum with
      | .ok tokens => tokens.map Token.position = [⟨0, 1, 1⟩, ⟨9, 2, 3⟩, ⟨11, 2, 5⟩, ⟨18, 3, 4⟩]
      | .error _ => false) = true := by
    decide +kernel
  cases hs : ofArena Pattern.compile? ⟨[.number, .literal "+", .string]⟩ with
  | error e => simp [hs, Except.toOption] at hcheck
  | ok s =>
      obtain ⟨hends, htokens, hbounds⟩ :=
        tokenize_partitions (fun _ _ => Pattern.matchesWithin_compile) hs annotatedSum
      cases hscan : s.tokenize annotatedSum with
      | error e => simp [hs, hscan, Except.toOption] at hcheck
      | ok tokens =>
          have hpositions : tokens.map Token.position =
              [⟨0, 1, 1⟩, ⟨9, 2, 3⟩, ⟨11, 2, 5⟩, ⟨18, 3, 4⟩] := by
            simpa [hs, hscan, Except.toOption] using hcheck
          rw [hscan] at hends
          have hlength : annotatedSum.length < 2 ^ 31 := by
            decide +kernel
          exact ⟨s, tokens, rfl, hscan, hpositions, (htokens tokens hscan).1, hends,
            hbounds hlength⟩

end Scanner

end SmallLang
