import Mathlib.Data.Prod.Lex
import Mathlib.Order.OrderDual
import SmallLang.Proofs.Assembly.Terminals
import SmallLang.Proofs.Renumbering.Language
import SmallLang.Proofs.Scanning.Partition

/-!
# Which match wins

The scanner compares the matches at a place by their length, then literals before classes, then the
priority of classes, then the first use. That is a lexicographic order (`Candidate.beats_iff`), and the
match that the scanner takes is the greatest of all (`Candidate.rank_le_of_best?`).

A token that a scan returns is one that the scanner takes at the start of some text that does not begin
with layout (`Scanner.takes_of_scanFrom`). So its terminal is one of the arena, its value is that of its
text (`Scanner.Takes.exists_terminal`), and a token of a literal has the text of the literal
(`Scanner.Takes.text_eq_of_literal`).
-/

set_option autoImplicit false

namespace SmallLang

/-! ## The order of matches -/

namespace Candidate

/-- What a match is compared by, the most important first. -/
def rank (c : Candidate) : Nat ×ₗ Bool ×ₗ Int ×ₗ Natᵒᵈ :=
  toLex (c.length, toLex (c.isLiteral, toLex (c.priority.toInt, OrderDual.toDual c.index)))

theorem beats_iff (a b : Candidate) : a.beats b = true ↔ b.rank < a.rank := by
  simp only [rank, Prod.Lex.toLex_lt_toLex, OrderDual.toDual_lt_toDual]
  unfold beats
  by_cases hlength : a.length = b.length
  · by_cases hliteral : a.isLiteral = b.isLiteral
    · by_cases hpriority : a.priority = b.priority
      · simp [hlength, hliteral, hpriority]
      · have hne : b.priority.toInt ≠ a.priority.toInt :=
          fun heq => hpriority (Int32.toInt_inj.1 heq).symm
        simp [hlength, hliteral, hpriority, hne, Int32.lt_iff_toInt_lt]
    · have hlt : a.isLiteral = true ↔ b.isLiteral < a.isLiteral := by
        cases ha : a.isLiteral <;> cases hb : b.isLiteral <;> simp_all
      simp [hlength, hliteral, Ne.symm hliteral, hlt]
  · simp [hlength, Ne.symm hlength]

theorem exists_best? {cs : List Candidate} (h : cs ≠ []) : ∃ c, best? cs = some c := by
  cases cs with
  | nil => exact absurd rfl h
  | cons c cs =>
      rw [best?]
      split
      · exact ⟨c, rfl⟩
      · split <;> exact ⟨_, rfl⟩

/-- No match ranks higher than the one that wins. -/
theorem rank_le_of_best? {cs : List Candidate} {c : Candidate} (h : best? cs = some c) :
    ∀ d ∈ cs, d.rank ≤ c.rank := by
  fun_induction best? cs generalizing c with
  | case1 => simp at h
  | case2 e es hnone ih =>
      obtain rfl := Option.some.inj h
      -- Nothing wins among the others only if there are none.
      have hes : es = [] := by
        by_contra hne
        obtain ⟨d, hd⟩ := exists_best? hne
        simp [hd] at hnone
      rw [hes]
      exact List.forall_mem_singleton.2 (le_refl _)
  | case3 e es d hd hbeats ih =>
      -- The best of the others beats the first match.
      obtain rfl := Option.some.inj h
      exact List.forall_mem_cons.2 ⟨((beats_iff d e).1 hbeats).le, ih hd⟩
  | case4 e es d hd hbeats ih =>
      -- It does not, so it ranks no higher, and neither do those it outranks.
      obtain rfl := Option.some.inj h
      have hle : d.rank ≤ e.rank := not_lt.1 fun hlt => hbeats ((beats_iff d e).2 hlt)
      exact List.forall_mem_cons.2 ⟨le_refl _, fun f hf => (ih hd f hf).trans hle⟩

/-- A match is not longer than one that ranks as high, and if both are equally long, that one is of a
literal if this one is. -/
theorem length_le_of_rank_le {c d : Candidate} (h : d.rank ≤ c.rank) :
    d.length ≤ c.length ∧ (d.length = c.length → d.isLiteral = true → c.isLiteral = true) := by
  simp only [rank, Prod.Lex.toLex_le_toLex] at h
  rcases h with hlt | ⟨heq, hlt | ⟨hliteral, -⟩⟩
  · exact ⟨hlt.le, fun heq => absurd heq hlt.ne⟩
  · exact ⟨heq.le, fun _ _ => (Bool.lt_iff.1 hlt).2⟩
  · exact ⟨heq.le, fun _ hd => hliteral ▸ hd⟩

end Candidate

/-! ## The matches at a place -/

namespace Text

/-- The text begins with a character that begins no layout. -/
def BeginsToken : List Char → Prop
  | [] => False
  | c :: _ => isBlank c = false ∧ c ≠ '%'

instance : (cs : List Char) → Decidable (BeginsToken cs)
  | [] => inferInstanceAs (Decidable False)
  | c :: _ => inferInstanceAs (Decidable (isBlank c = false ∧ c ≠ '%'))

theorem BeginsToken.ne_nil {cs : List Char} (h : BeginsToken cs) : cs ≠ [] := by
  rintro rfl
  exact h

end Text

open Text

/-- Nothing is passed over before such a text. -/
theorem spanLayout_of_beginsToken {cs : List Char} (h : BeginsToken cs) :
    spanLayout false cs = ([], cs) := by
  cases cs with
  | nil => rfl
  | cons c cs =>
      obtain ⟨hblank, hpercent⟩ := h
      rw [spanLayout, if_neg (by simp [hblank, hpercent])]

/-- What is left after the layout is nothing or such a text. -/
theorem beginsToken_of_spanLayout (inComment : Bool) (cs : List Char) :
    (spanLayout inComment cs).2 ≠ [] → BeginsToken (spanLayout inComment cs).2 := by
  fun_induction spanLayout inComment cs with
  | case1 => exact fun h => absurd rfl h
  | case2 inComment c cs _ layout rest heq ih => rwa [heq] at ih
  | case3 inComment c cs h =>
      intro _
      obtain ⟨⟨-, hblank⟩, hpercent⟩ : (inComment = false ∧ isBlank c = false) ∧ c ≠ '%' := by
        simpa using h
      exact ⟨hblank, hpercent⟩

namespace Scanner

variable {s : Scanner} {compile? : String → Option (List Char → Option Nat)} {arena : Arena}

theorem mem_candidates_iff {rest : List Char} {c : Candidate} :
    c ∈ s.candidates rest ↔ ∃ r, s.recognizers[c.index]? = some r ∧ r.terminal = c.terminal ∧
      r.matchLength rest = some c.length ∧ 0 < c.length := by
  rw [candidates, List.mem_filterMap]
  constructor
  · rintro ⟨⟨r, i⟩, hr, hc⟩
    simp only at hc
    split at hc
    · rename_i n hn
      obtain rfl := Option.some.inj hc
      exact ⟨r, List.mem_zipIdx_iff_getElem?.1 hr, rfl, hn, Nat.succ_pos n⟩
    · simp at hc
  · rintro ⟨r, hr, hterminal, hlength, hpos⟩
    refine ⟨(r, c.index), List.mem_zipIdx_iff_getElem?.2 hr, ?_⟩
    obtain ⟨length, terminal, index⟩ := c
    obtain ⟨n, rfl⟩ := Nat.exists_eq_succ_of_ne_zero hpos.ne'
    simp only [hlength, hterminal]

/-- A traversal gives a result for each member, at the place of the member. -/
theorem rel_getElem?_of_mapM {ε α β : Type} {f : α → Except ε β} {xs : List α} {ys : List β}
    (h : xs.mapM f = .ok ys) (i : Nat) : Option.Rel (fun x y => f x = .ok y) xs[i]? ys[i]? := by
  induction xs generalizing ys i with
  | nil =>
      obtain rfl := Except.ok.inj h
      exact .none
  | cons x xs ih =>
      rw [List.mapM_cons] at h
      obtain ⟨y, hy, hrest⟩ := Except.bind_eq_ok_iff.1 h
      obtain ⟨ys', hys', hcons⟩ := Except.bind_eq_ok_iff.1 hrest
      obtain rfl := Except.ok.inj hcons
      cases i with
      | zero => exact .some hy
      | succ i => exact ih hys' i

theorem recognizers_of_ofArena (h : ofArena compile? arena = .ok s) :
    arena.terminals.mapM (recognizer compile?) = .ok s.recognizers := by
  rw [ofArena] at h
  cases hrs : arena.terminals.mapM (recognizer compile?) with
  | error e => simp [hrs, Except.map] at h
  | ok rs =>
      obtain rfl : Scanner.mk rs = s := by simpa [hrs, Except.map] using h
      rfl

/-- The terminal of the arena that a recognizer is for. -/
theorem get?_of_recognizer (h : ofArena compile? arena = .ok s) {i : Nat} {r : Recognizer}
    (hr : s.recognizers[i]? = some r) :
    arena.get? i = some r.terminal ∧ recognizer compile? r.terminal = .ok r := by
  have hrel := rel_getElem?_of_mapM (recognizers_of_ofArena h) i
  rw [hr] at hrel
  cases hi : arena.terminals[i]? with
  | none => rw [hi] at hrel; cases hrel
  | some t =>
      rw [hi] at hrel
      have ht : recognizer compile? t = .ok r := by cases hrel; assumption
      have hterminal : r.terminal = t := by
        unfold recognizer at ht
        split at ht
        · rw [← Except.ok.inj ht]
        · split at ht
          · rw [← Except.ok.inj ht]
          · simp at ht
      rw [hterminal]
      exact ⟨hi, ht⟩

/-- The recognizer for a literal of the arena. -/
theorem getElem?_literal (h : ofArena compile? arena = .ok s) {i : Nat} {text : String}
    (hi : arena.get? i = some (.literal text)) : s.recognizers[i]? =
      some ⟨.literal text, fun cs => if text.toList.isPrefixOf cs then some text.length else none⟩ := by
  have hrel := rel_getElem?_of_mapM (recognizers_of_ofArena h) i
  rw [show arena.terminals[i]? = some (.literal text) from hi] at hrel
  cases hr : s.recognizers[i]? with
  | none => rw [hr] at hrel; cases hrel
  | some r =>
      rw [hr] at hrel
      have ht : recognizer compile? (.literal text) = .ok r := by cases hrel; assumption
      rw [← Except.ok.inj ht]

/-- Where the match that wins is one of a literal, the text of the literal stands there. -/
theorem take_of_literal (h : ofArena compile? arena = .ok s) {rest : List Char} {c : Candidate}
    {text : String} (hc : c ∈ s.candidates rest) (hterminal : c.terminal = .literal text) :
    rest.take c.length = text.toList ∧ c.length = text.length ∧
      arena.get? c.index = some (.literal text) := by
  obtain ⟨r, hr, hrc, hlength, -⟩ := mem_candidates_iff.1 hc
  have hi := (get?_of_recognizer h hr).1
  rw [hrc, hterminal] at hi
  obtain rfl := Option.some.inj (hr.symm.trans (getElem?_literal h hi))
  simp only at hlength
  split at hlength
  · rename_i hprefix
    have heq := Option.some.inj hlength
    obtain ⟨more, rfl⟩ := List.isPrefixOf_iff_prefix.1 hprefix
    refine ⟨?_, heq.symm, hi⟩
    rw [← heq, ← String.length_toList, List.take_left]
  · simp at hlength

/-! ## The tokens of a scan -/

/-- From a place on, the scanner takes the tokens of a text one after the other: each comes after some
layout, and nothing but layout comes after the last one. -/
inductive Scans (s : Scanner) : Position → List Char → List Token → Prop
  | last {position : Position} {cs : List Char} (hrest : (spanLayout false cs).2 = []) :
      Scans s position cs []
  | token {position : Position} {cs more : List Char} {t : Token} {tokens : List Token}
      (hrest : (spanLayout false cs).2 ≠ [])
      (hnext : s.nextToken (position.advance (spanLayout false cs).1) (spanLayout false cs).2 =
        .ok (t, more))
      (hmore : Scans s ((position.advance (spanLayout false cs).1).advance t.text.toList) more
        tokens) :
      Scans s position cs (t :: tokens)

theorem scans_of_scanFrom {position : Position} {cs : List Char} {tokens : List Token}
    (h : s.scanFrom position cs = .ok tokens) : Scans s position cs tokens := by
  -- By induction on the length: what is left after a token is shorter.
  induction hlength : cs.length using Nat.strong_induction_on generalizing position cs tokens with
  | _ n ih =>
      subst hlength
      rw [scanFrom] at h
      split at h
      · rename_i hnil
        obtain rfl := Except.ok.inj h
        exact .last hnil
      · rename_i hne
        simp only at h
        split at h
        · simp at h
        · rename_i token more hnext
          have hshorter := length_lt_of_nextToken hnext hne
          cases hscan : s.scanFrom ((position.advance (spanLayout false cs).1).advance
              token.text.toList) more with
          | error e =>
              rw [hscan] at h
              simp [Except.map] at h
          | ok others =>
              rw [hscan] at h
              obtain rfl : token :: others = tokens := Except.ok.inj h
              exact .token hne hnext (ih _ hshorter hscan rfl)

theorem Scans.scanFrom_eq {position : Position} {cs : List Char} {tokens : List Token}
    (h : Scans s position cs tokens) : s.scanFrom position cs = .ok tokens := by
  induction h with
  | last hrest => rw [scanFrom, dif_pos hrest]
  | token hrest hnext _ ih =>
      rw [scanFrom, dif_neg hrest]
      simp only
      split
      · rename_i herror
        cases herror.symm.trans hnext
      · rename_i hok
        obtain ⟨rfl, rfl⟩ := Prod.mk.inj (Except.ok.inj (hok.symm.trans hnext))
        rw [ih]
        rfl

/-- The scanner takes the token at the start of some text that does not begin with layout. -/
def Takes (s : Scanner) (t : Token) : Prop :=
  ∃ rest more, BeginsToken rest ∧ s.nextToken t.position rest = .ok (t, more)

/-- Each token is taken at the start of what is left of the text. -/
theorem Scans.exists_next {position : Position} {cs : List Char} {tokens : List Token}
    (h : Scans s position cs tokens) : ∀ t ∈ tokens, ∃ skipped rest more, skipped ++ rest = cs ∧
      BeginsToken rest ∧ t.position = position.advance skipped ∧
      s.nextToken t.position rest = .ok (t, more) := by
  induction h with
  | last => exact fun t ht => absurd ht List.not_mem_nil
  | @token position cs more t tokens hrest hnext _ ih =>
      have hposition := (nextToken_eq_ok hnext).2.1
      refine List.forall_mem_cons.2 ⟨?_, fun t' ht' => ?_⟩
      · exact ⟨_, _, more, spanLayout_append false cs, beginsToken_of_spanLayout false cs hrest,
          hposition, hposition ▸ hnext⟩
      · -- A later token comes after the layout and the first token as well.
        obtain ⟨skipped, rest, more', hmore, hbegins, hposition', hnext'⟩ := ih t' ht'
        refine ⟨(spanLayout false cs).1 ++ t.text.toList ++ skipped, rest, more', ?_, hbegins, ?_,
          hnext'⟩
        · rw [List.append_assoc, hmore, List.append_assoc, (nextToken_eq_ok hnext).1,
            spanLayout_append]
        · rw [hposition']
          simp only [Position.advance, List.foldl_append]

/-- A scan fails at the start of what is left of the text. -/
theorem exists_next_of_scanFrom_error {position : Position} {cs : List Char} {e : ParseError}
    (h : s.scanFrom position cs = .error e) : ∃ skipped rest, skipped ++ rest = cs ∧
      BeginsToken rest ∧ s.nextToken (position.advance skipped) rest = .error e := by
  induction hlength : cs.length using Nat.strong_induction_on generalizing position cs with
  | _ n ih =>
      subst hlength
      rw [scanFrom] at h
      split at h
      · simp at h
      · rename_i hne
        simp only at h
        split at h
        · rename_i e' herror
          obtain rfl := Except.error.inj h
          exact ⟨_, _, spanLayout_append false cs, beginsToken_of_spanLayout false cs hne, herror⟩
        · rename_i token more hnext
          cases hscan : s.scanFrom ((position.advance (spanLayout false cs).1).advance
              token.text.toList) more with
          | ok others =>
              rw [hscan] at h
              simp [Except.map] at h
          | error e' =>
              rw [hscan] at h
              obtain rfl : e' = e := Except.error.inj h
              obtain ⟨skipped, rest, hmore, hbegins, herror⟩ :=
                ih _ (length_lt_of_nextToken hnext hne) hscan rfl
              refine ⟨(spanLayout false cs).1 ++ token.text.toList ++ skipped, rest, ?_, hbegins, ?_⟩
              · rw [List.append_assoc, hmore, List.append_assoc, (nextToken_eq_ok hnext).1,
                  spanLayout_append]
              · rw [← herror]
                simp only [Position.advance, List.foldl_append]

/-- No terminal matches, or the text of the match has no value. -/
theorem cases_of_nextToken_error {position : Position} {rest : List Char} {e : ParseError}
    (h : s.nextToken position rest = .error e) :
    (s.longestMatch? rest = none ∧ e = .unrecognizedToken
      (String.ofList (rest.takeWhile fun c => !isBlank c)) position) ∨
    ∃ c cls, s.longestMatch? rest = some c ∧ c.terminal = .ofClass cls ∧
      cls.decoder.decode (String.ofList (rest.take c.length)) = none ∧
      e = .invalidLiteral cls.name (String.ofList (rest.take c.length)) position := by
  unfold nextToken at h
  split at h
  · rename_i hnone
    exact Or.inl ⟨hnone, (Except.error.inj h).symm⟩
  · rename_i c hc
    cases hterminal : c.terminal with
    | literal text => simp [hterminal, Terminal.decode, Except.map] at h
    | ofClass cls =>
        cases hvalue : cls.decoder.decode (String.ofList (rest.take c.length)) with
        | some v => simp [hterminal, Terminal.decode, hvalue, Except.map] at h
        | none =>
            refine Or.inr ⟨c, cls, hc, hterminal, hvalue, ?_⟩
            simpa [hterminal, Terminal.decode, hvalue, Except.map] using h.symm

theorem takes_of_scanFrom {position : Position} {cs : List Char} {tokens : List Token}
    (h : s.scanFrom position cs = .ok tokens) : ∀ t ∈ tokens, s.Takes t := by
  intro t ht
  obtain ⟨_, rest, more, -, hbegins, -, hnext⟩ := (scans_of_scanFrom h).exists_next t ht
  exact ⟨rest, more, hbegins, hnext⟩

namespace Takes

variable {t : Token}

/-- The match that a token is made of. -/
theorem exists_match (h : s.Takes t) : ∃ rest c, BeginsToken rest ∧ c ∈ s.candidates rest ∧
    t.terminal = c.index ∧ t.text = String.ofList (rest.take c.length) ∧
    c.terminal.decode t.text t.position = .ok t.value := by
  obtain ⟨rest, more, hrest, hnext⟩ := h
  obtain ⟨c, v, hc, hv, ht, -⟩ := nextToken_eq_ok_iff.1 hnext
  rw [ht] at hv ⊢
  exact ⟨rest, c, hrest, mem_of_best? hc, rfl, rfl, hv⟩

/-- The terminal of a token is one of the arena, and its value is that of its text. -/
theorem exists_terminal (h : s.Takes t) (harena : ofArena compile? arena = .ok s) :
    ∃ terminal, arena.get? t.terminal = some terminal ∧
      terminal.decode t.text t.position = .ok t.value := by
  obtain ⟨rest, c, -, hc, hindex, -, hvalue⟩ := h.exists_match
  obtain ⟨r, hr, hterminal, -, -⟩ := mem_candidates_iff.1 hc
  have hi := (get?_of_recognizer harena hr).1
  rw [hterminal, ← hindex] at hi
  exact ⟨c.terminal, hi, hvalue⟩

/-- A token of a literal has its text, and this begins no layout. -/
theorem text_eq_of_literal (h : s.Takes t) (harena : ofArena compile? arena = .ok s) {text : String}
    (hi : arena.get? t.terminal = some (.literal text)) :
    t.text = text ∧ BeginsToken text.toList := by
  obtain ⟨rest, c, hrest, hc, hindex, htext, -⟩ := h.exists_match
  obtain ⟨r, hr, hterminal, -, hpos⟩ := mem_candidates_iff.1 hc
  have hget := (get?_of_recognizer harena hr).1
  rw [hterminal, ← hindex, hi] at hget
  have htake := (take_of_literal harena hc (Option.some.inj hget).symm).1
  refine ⟨by rw [htext, htake, String.ofList_toList], ?_⟩
  rw [← htake]
  cases rest with
  | nil => exact absurd rfl hrest.ne_nil
  | cons d rest =>
      obtain ⟨n, hn⟩ := Nat.exists_eq_succ_of_ne_zero hpos.ne'
      rw [hn, List.take_succ_cons]
      exact hrest

end Takes

end Scanner

/-! ## The scanner of a language -/

theorem Compiled.scanner_of_ofGrammar {g : Grammar} {compiled : Compiled}
    (h : Compiled.ofGrammar g = .ok compiled) :
    Scanner.ofArena Pattern.compile? g.arena = .ok compiled.scanner := by
  obtain ⟨⟨⟩, -, h⟩ := Except.bind_eq_ok_iff.1 h
  obtain ⟨table, -, h⟩ := Except.bind_eq_ok_iff.1 h
  obtain ⟨scanner, hscanner, h⟩ := Except.bind_eq_ok_iff.1 h
  obtain rfl := Except.ok.inj h
  exact hscanner

namespace Language

variable {declared : List NodeType} {config : Config} {l : Language}

/-- The scanner of a language is one for its terminals, and no two of these have one key. -/
theorem scanner_of_assemble (hl : assemble declared config = .ok l) :
    Scanner.ofArena Pattern.compile? l.arena = .ok l.compiled.scanner ∧ l.arena.Keyed := by
  obtain ⟨lowered, hlower, -⟩ := assemble_eq_ok hl
  refine ⟨Compiled.scanner_of_ofGrammar (compiled_of_assemble hl), ?_⟩
  rw [arena_of_assemble hlower hl]
  exact keyed_of_lower hlower

/-- The tokens of a text are taken by the scanner. -/
theorem takes_of_tokenize {text : String} {tokens : List Token} (h : l.tokenize text = .ok tokens) :
    ∀ t ∈ tokens, l.compiled.scanner.Takes t :=
  Scanner.takes_of_scanFrom h

end Language

end SmallLang
