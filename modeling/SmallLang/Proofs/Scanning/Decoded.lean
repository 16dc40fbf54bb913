import SmallLang.Proofs.Scanning.Respacing
import Mathlib.Data.Nat.Digits.Defs

/-!
# Tokens of built-in classes have values

The pattern of a class finds the text of a token and its decoder reads it, and nothing ties the one
to the other. For the four built-in classes they fit: every text that is matched has a value, apart
from rows of digits for a number that has more than 63 bits (`Terminal.decode_of_matches`).

`Terminal.Denotes` says which texts are tokens of a built-in class and what they stand for, without
patterns and decoders. So a scan over literals and these classes fails on an invalid literal at
numbers only, and each token of a scan that succeeds has the value that its text stands for
(`Scanner.tokens_decoded`).
-/

set_option autoImplicit false

namespace SmallLang

/-! ## Decimal numbers -/

namespace Text

/-- The number that a row of digits denotes in base ten, the most significant digit first. -/
def decimal (digits : List Char) : Nat := Nat.ofDigits 10 (digits.reverse.map digitValue)

theorem decimal_append_singleton (digits : List Char) (c : Char) :
    decimal (digits ++ [c]) = digitValue c + 10 * decimal digits := by
  rw [decimal, List.reverse_append, List.reverse_singleton, List.singleton_append, List.map_cons,
    Nat.ofDigits_cons]
  rfl

/-- The number that is read digit by digit is the one denoted. -/
theorem digitsValue_eq_decimal (digits : List Char) : digitsValue digits = decimal digits := by
  induction digits using List.reverseRecOn with
  | nil => rfl
  | append_singleton digits c ih =>
      rw [decimal_append_singleton, ← ih, digitsValue, List.foldl_append, List.foldl_cons,
        List.foldl_nil, Nat.add_comm]
      rfl

/-- Zeros in front do not count. -/
example : decimal "0042".toList = 42 := by decide +kernel

/-- A row of digits, at least one. -/
structure IsDigits (cs : List Char) : Prop where
  ne_nil : cs ≠ []
  isDigit : ∀ c ∈ cs, c.isDigit = true

/-- A row of digits for a number with more than 63 bits. -/
structure TooLarge (digits : List Char) : Prop extends IsDigits digits where
  lt_decimal : 2 ^ 63 - 1 < decimal digits

theorem fits64_natCast (n : Nat) : fits64 n = decide (n ≤ 2 ^ 63 - 1) := by
  have hmin : Int64.minValue.toInt = -9223372036854775808 := rfl
  have hmax : Int64.maxValue.toInt = 9223372036854775807 := rfl
  rw [fits64, hmin, hmax, Bool.eq_iff_iff]
  simp only [Bool.and_eq_true, decide_eq_true_eq]
  omega

/-- A row of digits is read as the number it denotes, unless this is too large. -/
theorem readInteger?_digits {digits : List Char} (h : IsDigits digits) :
    readInteger? digits =
      if decimal digits ≤ 2 ^ 63 - 1 then some (decimal digits : Int) else none := by
  have hread : readNatural? digits = some (decimal digits) := by
    rw [readNatural?, digitsValue_eq_decimal]
    exact if_pos (by simpa using ⟨h.ne_nil, h.isDigit⟩)
  have hsign : ∀ c rest, digits = c :: rest → c ≠ '-' ∧ c ≠ '+' := by
    rintro c rest rfl
    have hc := h.isDigit c List.mem_cons_self
    constructor <;> rintro rfl <;> exact absurd hc (by decide)
  -- No digit is a sign, so that the whole row is read.
  have hinteger : readInteger? digits = (some (decimal digits : Int)).filter fits64 := by
    unfold readInteger?
    split
    · exact absurd rfl (hsign _ _ rfl).1
    · exact absurd rfl (hsign _ _ rfl).2
    · rw [hread]
      rfl
  rw [hinteger, Option.filter_some, fits64_natCast]
  simp only [decide_eq_true_eq]

end Text

open Text

/-! ## What the classes match -/

/-- The characters of a run. -/
theorem Automaton.exists_take_of_runLength? {first more : Char → Bool} {cs : List Char} {n : Nat}
    (h : runLength? first more cs = some n) : ∃ c word, cs.take n = c :: word ∧
      first c = true ∧ ∀ d ∈ word, more d = true := by
  cases cs with
  | nil => simp [runLength?] at h
  | cons c cs =>
      rw [runLength?] at h
      split at h
      · rename_i hfirst
        obtain rfl := Option.some.inj h
        refine ⟨c, cs.takeWhile more, ?_, hfirst, fun d hd => List.mem_takeWhile_imp hd⟩
        rw [List.take_succ_cons, ← List.prefix_iff_eq_take.1 (List.takeWhile_prefix more)]
      · simp at h

/-- The characters up to and with the closing one. -/
theorem Automaton.exists_take_of_closedLength? {c : Char} {cs : List Char} {n : Nat}
    (h : closedLength? c cs = some n) : ∃ inner, cs.take n = inner ++ [c] ∧ c ∉ inner := by
  rw [closedLength?] at h
  split at h
  · rename_i hmem
    obtain rfl := Option.some.inj h
    obtain ⟨inner, rest, rfl, hinner⟩ := List.eq_append_cons_of_mem hmem
    have hall : ∀ d ∈ inner, (d != c) = true := fun d hd => by
      simpa using fun heq : d = c => hinner (heq ▸ hd)
    refine ⟨inner, ?_, hinner⟩
    simp [List.takeWhile_append_of_pos hall, List.take_append]
  · simp at h

namespace Terminal

/-- A literal, or one of the four built-in classes. -/
def IsBuiltIn : Terminal → Prop
  | literal _ => True
  | ofClass c => ofClass c ∈ [number, boolean, string, identifier]

instance : (t : Terminal) → Decidable t.IsBuiltIn
  | literal _ => inferInstanceAs (Decidable True)
  | ofClass c => inferInstanceAs (Decidable (ofClass c ∈ [number, boolean, string, identifier]))

/-- The texts of the tokens of a terminal, and the values that they stand for. -/
inductive Denotes : Terminal → String → Value → Prop
  | literal (text : String) : Denotes (literal text) text (.token text)
  /-- A row of digits stands for its number, which has at most 63 bits. -/
  | number {digits : List Char} (h : IsDigits digits) (hmax : decimal digits ≤ 2 ^ 63 - 1) :
      Denotes number (String.ofList digits) (.int (decimal digits))
  | boolean_true : Denotes boolean "true" (.bool true)
  | boolean_false : Denotes boolean "false" (.bool false)
  /-- A text in quotes stands for what is strictly between them. -/
  | string {inner : List Char} (h : '\"' ∉ inner) :
      Denotes string (String.ofList ('\"' :: inner ++ ['\"'])) (.text (String.ofList inner))
  /-- A name stands for itself. -/
  | identifier {c : Char} {word : List Char} (hfirst : (c.isAlpha || c == '_') = true)
      (hlater : ∀ d ∈ word, (d.isAlphanum || d == '_') = true) :
      Denotes identifier (String.ofList (c :: word)) (.ident (String.ofList (c :: word)))

variable {cs : List Char} {n : Nat}

theorem isDigits_of_matches (h : number.Matches Pattern.compile? cs n) : IsDigits (cs.take n) := by
  obtain ⟨c, word, hword, hc, hlater⟩ :=
    Automaton.exists_take_of_runLength? (matches_number_iff.1 h)
  rw [hword]
  exact ⟨List.cons_ne_nil c word, List.forall_mem_cons.2 ⟨hc, hlater⟩⟩

/-- A text that is matched by a literal or a built-in class has the value that it stands for, or it
is a row of digits that is too large. -/
theorem decode_of_matches {t : Terminal} (ht : t.IsBuiltIn)
    (h : t.Matches Pattern.compile? cs n) (position : Position) :
    (∃ v, t.decode (String.ofList (cs.take n)) position = .ok v ∧
      t.Denotes (String.ofList (cs.take n)) v) ∨
    t = number ∧ TooLarge (cs.take n) ∧ t.decode (String.ofList (cs.take n)) position =
      .error (.invalidLiteral "Number" (String.ofList (cs.take n)) position) := by
  cases t with
  | literal text =>
      obtain ⟨hstarts, rfl⟩ := matches_literal_iff.1 h
      rw [← String.length_toList, ← List.prefix_iff_eq_take.1 hstarts, String.ofList_toList]
      exact Or.inl ⟨_, rfl, .literal text⟩
  | ofClass c =>
      rw [IsBuiltIn] at ht
      generalize ofClass c = t at ht h
      simp only [List.mem_cons, List.not_mem_nil, or_false] at ht
      rcases ht with rfl | rfl | rfl | rfl
      · -- Digits: whether there is a value depends on the number only.
        have hdigits := isDigits_of_matches h
        have hread := readInteger?_digits hdigits
        by_cases hmax : decimal (cs.take n) ≤ 2 ^ 63 - 1
        · rw [if_pos hmax] at hread
          refine Or.inl ⟨_, ?_, .number hdigits hmax⟩
          simp [number, tokenClass, decode, Decoder.decode, hread]
        · rw [if_neg hmax] at hread
          refine Or.inr ⟨rfl, ⟨hdigits, Nat.lt_of_not_le hmax⟩, ?_⟩
          simp [number, tokenClass, decode, Decoder.decode, hread]
      · rcases matches_boolean_iff.1 h with ⟨hword, rfl⟩ | ⟨hword, rfl⟩
        · rw [← show _ = cs.take 4 from List.prefix_iff_eq_take.1 hword]
          exact Or.inl ⟨_, rfl, .boolean_true⟩
        · rw [← show _ = cs.take 5 from List.prefix_iff_eq_take.1 hword]
          exact Or.inl ⟨_, rfl, .boolean_false⟩
      · obtain ⟨rest, rfl, hclosed⟩ := matches_string_iff.1 h
        obtain ⟨m, hm, rfl⟩ := Option.map_eq_some_iff.1 hclosed
        obtain ⟨inner, hinner, hquote⟩ := Automaton.exists_take_of_closedLength? hm
        rw [Nat.add_comm, List.take_succ_cons, hinner, ← List.cons_append]
        refine Or.inl ⟨_, ?_, .string hquote⟩
        simp [string, tokenClass, decode, Decoder.decode, unquoted?]
      · obtain ⟨c, word, hword, hc, hlater⟩ :=
          Automaton.exists_take_of_runLength? (matches_identifier_iff.1 h)
        rw [hword]
        exact Or.inl ⟨_, rfl, .identifier hc hlater⟩

theorem IsBuiltIn.exists_recognizer {t : Terminal} (h : t.IsBuiltIn) :
    ∃ r, Scanner.recognizer Pattern.compile? t = .ok r := by
  cases t with
  | literal text => exact ⟨_, rfl⟩
  | ofClass c =>
      have hplain : (ofClass c).IsPlain := h
      exact hplain.exists_recognizer

end Terminal

namespace Scanner

section

variable {arena : Arena} (harena : ∀ t ∈ arena.terminals, t.IsBuiltIn) {s : Scanner}
  (hs : ofArena Pattern.compile? arena = .ok s)
include harena hs

theorem builtIn_of_longestMatch? {rest : List Char} {c : Candidate}
    (hc : s.longestMatch? rest = some c) :
    c.terminal.IsBuiltIn ∧ c.terminal.Matches Pattern.compile? rest c.length := by
  have hmatch := ((longestMatch?_eq_some_iff hs).1 hc).isMatch
  exact ⟨harena _ (List.mem_of_getElem? hmatch.terminal), hmatch.length⟩

/-- Only a row of digits is refused, where it is the greatest match, and only if its number is too
large. -/
theorem tooLarge_of_invalidLiteral {text name word : String} {position : Position}
    (h : s.tokenize text = .error (.invalidLiteral name word position)) :
    name = "Number" ∧ ∃ before digits rest, ∃ c : Candidate,
      text.toList = before ++ (digits ++ rest) ∧ position = Position.after before ∧
      c.IsGreatest Pattern.compile? arena (digits ++ rest) ∧ c.terminal = .number ∧
      c.length = digits.length ∧ word = String.ofList digits ∧ TooLarge digits := by
  obtain ⟨before, rest, htext, -, hnext⟩ := exists_next_of_scanFrom_error h
  rw [← Position.after_nil, Position.advance_after, List.nil_append] at hnext
  rcases cases_of_nextToken_error hnext with
    ⟨-, hunknown⟩ | ⟨c, cls, hc, hcls, hnone, hinvalid⟩
  · cases hunknown
  · obtain ⟨rfl, rfl, rfl⟩ := ParseError.invalidLiteral.inj hinvalid
    have hwithin := (within_ofArena (fun _ _ => Pattern.matchesWithin_compile) hs).length_le hc
    obtain ⟨hbuilt, hmatch⟩ := builtIn_of_longestMatch? harena hs hc
    rcases Terminal.decode_of_matches hbuilt hmatch (Position.after before) with
      ⟨v, hv, -⟩ | ⟨hnumber, hlarge, hdecode⟩
    · -- The text has no value.
      rw [hcls, Terminal.decode, hnone] at hv
      cases hv
    · rw [hcls, Terminal.decode, hnone] at hdecode
      obtain ⟨hname, -, -⟩ := ParseError.invalidLiteral.inj (Except.error.inj hdecode)
      refine ⟨hname, before, rest.take c.length, rest.drop c.length, c, ?_, rfl, ?_, hnumber, ?_,
        rfl, hlarge⟩
      · rw [List.take_append_drop, htext]
      · rw [List.take_append_drop]
        exact (longestMatch?_eq_some_iff hs).1 hc
      · rw [List.length_take, Nat.min_eq_left hwithin]

/-- Each token has the value that its text stands for. -/
theorem denotes_of_tokenize {text : String} {tokens : List Token}
    (h : s.tokenize text = .ok tokens) {t : Token} (ht : t ∈ tokens) : ∃ terminal,
      arena.get? t.terminal = some terminal ∧ terminal.Denotes t.text t.value := by
  obtain ⟨_, rest, more, -, -, -, hnext⟩ := (scans_of_scanFrom h).exists_next t ht
  obtain ⟨c, v, hc, hv, hshown, -⟩ := nextToken_eq_ok_iff.1 hnext
  obtain ⟨hbuilt, hmatch⟩ := builtIn_of_longestMatch? harena hs hc
  rw [hshown]
  refine ⟨c.terminal, ((longestMatch?_eq_some_iff hs).1 hc).isMatch.terminal, ?_⟩
  rcases Terminal.decode_of_matches hbuilt hmatch t.position with
    ⟨w, hw, hdenotes⟩ | ⟨-, -, hdecode⟩
  · obtain rfl := Except.ok.inj (hw.symm.trans hv)
    exact hdenotes
  · rw [hdecode] at hv
    cases hv

end

/-- An arena of literals and built-in classes has a scanner. It reports an invalid literal only for
the class of numbers, at a place where this class wins with a row of digits for a number of more
than 63 bits. If it makes tokens of a text, then each of them is one of a terminal of the arena and
has the value that its text stands for. -/
theorem tokens_decoded {arena : Arena} (harena : ∀ t ∈ arena.terminals, t.IsBuiltIn) :
    ∃ s, ofArena Pattern.compile? arena = .ok s ∧ ∀ text : String,
      (∀ name word position,
        s.tokenize text = .error (.invalidLiteral name word position) →
        name = "Number" ∧ ∃ before digits rest, ∃ c : Candidate,
          text.toList = before ++ (digits ++ rest) ∧ position = Position.after before ∧
          c.IsGreatest Pattern.compile? arena (digits ++ rest) ∧ c.terminal = .number ∧
          c.length = digits.length ∧ word = String.ofList digits ∧ TooLarge digits) ∧
      ∀ tokens, s.tokenize text = .ok tokens → ∀ t ∈ tokens, ∃ terminal,
        arena.get? t.terminal = some terminal ∧ terminal.Denotes t.text t.value := by
  obtain ⟨s, hs⟩ := exists_ofArena_iff.2 fun t ht => (harena t ht).exists_recognizer
  refine ⟨s, hs, fun text => ⟨?_, ?_⟩⟩
  · intro name word position herror
    exact tooLarge_of_invalidLiteral harena hs herror
  · intro tokens htokens t ht
    exact denotes_of_tokenize harena hs htokens ht

/-- Zeros in front, the empty text, a line end in quotes and the greatest number are all decoded;
the number after it is not. -/
theorem tokens_decoded_plainArena : ∃ s tokens,
    ofArena Pattern.compile? plainArena = .ok s ∧
    s.tokenize "x = 007 \"\" \"a\nb\" true 9223372036854775807" = .ok tokens ∧
    tokens.map Token.value = [.ident "x", .token "=", .int 7, .text "", .text "a\nb", .bool true,
      .int 9223372036854775807] ∧
    (∀ t ∈ tokens, ∃ terminal, plainArena.get? t.terminal = some terminal ∧
      terminal.Denotes t.text t.value) ∧
    s.tokenize "9223372036854775808" =
      .error (.invalidLiteral "Number" "9223372036854775808" Position.start) ∧
    ∃ digits, "9223372036854775808" = String.ofList digits ∧ TooLarge digits := by
  have hcheck : (ofArena Pattern.compile? plainArena).toOption.any (fun s =>
      (s.tokenize "x = 007 \"\" \"a\nb\" true 9223372036854775807").toOption.any fun tokens =>
        tokens.map Token.value = [.ident "x", .token "=", .int 7, .text "", .text "a\nb",
            .bool true, .int 9223372036854775807] ∧
          s.tokenize "9223372036854775808" =
            .error (.invalidLiteral "Number" "9223372036854775808" Position.start)) = true := by
    decide +kernel
  obtain ⟨s, hs, hcheck⟩ := Except.exists_of_any hcheck
  obtain ⟨tokens, htokens, hcheck⟩ := Except.exists_of_any hcheck
  obtain ⟨hvalues, herror⟩ := of_decide_eq_true hcheck
  have hplain : ∀ t ∈ plainArena.terminals, t.IsBuiltIn := by decide +kernel
  obtain ⟨s', hs', hdecoded⟩ := tokens_decoded hplain
  obtain rfl := Except.ok.inj (hs'.symm.trans hs)
  obtain ⟨-, -, digits, -, -, -, -, -, -, -, hword, hlarge⟩ := (hdecoded _).1 _ _ _ herror
  exact ⟨s', tokens, hs, htokens, hvalues, (hdecoded _).2 tokens htokens, herror, digits, hword,
    hlarge⟩

end Scanner

end SmallLang
