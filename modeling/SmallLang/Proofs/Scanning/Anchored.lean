import SmallLang.Proofs.Pattern.Ways
import SmallLang.Proofs.Pattern.Wrapped
import SmallLang.Proofs.Scanning.Greatest

/-!
# Tokens of classes are matches of their patterns

The pattern of a class is put into a group behind the anchor for the start of a text, and only the
end of the match is used. In an arena that a scanner is made for, the pattern is a pattern by itself
unless its text closes that group (`Pattern.ClosesOutside`), and every token of such a class is,
from its first character to its last, a match of the pattern at the start of what was left of the
text (`Scanner.tokens_anchored`).

A text that closes the group may leave a pattern that is not anchored as a whole.
`splitArena_unanchored` is a scanner whose only class has no pattern by itself: in a text it takes
all that comes before a match, too.
-/

set_option autoImplicit false

namespace SmallLang

namespace Pattern

/-- The matcher for a pattern that is one by itself finds matches of it at the start of the text. -/
theorem exists_takes_of_compile? {pattern : String} {p : Pattern} {matchLength : List Char → Option Nat}
    (hcompile : compile? pattern = some matchLength) (hp : read? pattern.toList = some p)
    {cs : List Char} {n : Nat} (hn : matchLength cs = some n) :
    ∃ d, d.rest = cs.drop n ∧ p.Takes ⟨none, cs⟩ d := by
  unfold compile? at hcompile
  split at hcompile
  · rename_i q hq
    split at hcompile
    · obtain rfl := Option.some.inj hcompile
      have hclose : ¬ClosesOutside pattern.toList := fun h => by
        simp [read?_eq_none_of_closesOutside h] at hp
      obtain ⟨p', hp', rfl⟩ := read?_anchoredText hq hclose
      obtain rfl : p' = p := Option.some.inj (hp'.symm.trans hp)
      obtain ⟨-, d, hd, htakes⟩ := exists_takes_of_findEnd? isAnchored_inRow_textStart hn
      -- The anchor takes nothing.
      obtain ⟨e, ⟨-, rfl⟩, e', htakes, rfl⟩ := takes_inRow_iff.1 htakes
      exact ⟨_, hd, htakes⟩
    · simp at hcompile
  · simp at hcompile

/-- Where a matcher is made for a pattern, the pattern is one by itself unless it closes the
group. -/
theorem isSome_read?_iff_of_compile? {pattern : String} {matchLength : List Char → Option Nat}
    (h : compile? pattern = some matchLength) :
    (read? pattern.toList).isSome = true ↔ ¬ClosesOutside pattern.toList := by
  constructor
  · intro hsome hclose
    simp [read?_eq_none_of_closesOutside hclose] at hsome
  · intro hclose
    unfold compile? at h
    split at h
    · rename_i q hq
      obtain ⟨p, hp, -⟩ := read?_anchoredText hq hclose
      rw [hp]
      rfl
    · simp at h

end Pattern

namespace Scanner

variable {arena : Arena} {s : Scanner}

theorem exists_compile?_of_ofArena (hs : ofArena Pattern.compile? arena = .ok s) {c : TokenClass}
    (hc : .ofClass c ∈ arena.terminals) :
    ∃ matchLength, Pattern.compile? c.pattern = some matchLength := by
  obtain ⟨r, hr⟩ := exists_ofArena_iff.1 ⟨s, hs⟩ _ hc
  rw [recognizer] at hr
  split at hr
  · rename_i matchLength hcompile
    exact ⟨matchLength, hcompile⟩
  · simp at hr

/-- In an arena with a scanner, the pattern of a class is a pattern by itself exactly if its text
does not close the group that it is put into. The text of every token of such a class is, from the
first character to the last, a match of the pattern at the place of the token. -/
theorem tokens_anchored (hs : ofArena Pattern.compile? arena = .ok s) :
    (∀ c, .ofClass c ∈ arena.terminals →
      ((Pattern.read? c.pattern.toList).isSome = true ↔ ¬Pattern.ClosesOutside c.pattern.toList)) ∧
    ∀ text tokens, s.tokenize text = .ok tokens → ∀ t ∈ tokens, ∀ c p,
      arena.get? t.terminal = some (.ofClass c) → Pattern.read? c.pattern.toList = some p →
      ∃ before rest d, text.toList = before ++ t.text.toList ++ rest ∧
        t.position = Position.after before ∧ d.rest = rest ∧
        p.Takes ⟨none, t.text.toList ++ rest⟩ d := by
  constructor
  · intro c hc
    obtain ⟨matchLength, hcompile⟩ := exists_compile?_of_ofArena hs hc
    exact Pattern.isSome_read?_iff_of_compile? hcompile
  · intro text tokens htokens t ht c p hc hp
    obtain ⟨before, rest, more, htext, -, hposition, hnext⟩ :=
      (scans_of_scanFrom htokens).exists_next t ht
    rw [← Position.after_nil, Position.advance_after, List.nil_append] at hposition
    obtain ⟨m, v, hm, -, hshown, rfl⟩ := nextToken_eq_ok_iff.1 hnext
    -- The match is one of the class, so the matcher for its pattern found it.
    have hmatch := ((longestMatch?_eq_some_iff hs).1 hm).isMatch
    have hindex : t.terminal = m.index := congrArg Token.terminal hshown
    have hlength := hmatch.length
    rw [hindex] at hc
    rw [Option.some.inj (hmatch.terminal.symm.trans hc), Terminal.matches_ofClass_iff] at hlength
    obtain ⟨matchLength, hcompile, hn⟩ := Option.bind_eq_some_iff.1 hlength
    obtain ⟨d, hd, htakes⟩ := Pattern.exists_takes_of_compile? hcompile hp hn
    have hword : t.text.toList ++ rest.drop m.length = rest := by
      rw [show t.text = String.ofList (rest.take m.length) from congrArg Token.text hshown,
        String.toList_ofList, List.take_append_drop]
    refine ⟨before, rest.drop m.length, d, ?_, hposition, hd, ?_⟩
    · rw [List.append_assoc, hword, htext]
    · rwa [hword]

/-- A class with two alternatives. -/
def choiceArena : Arena := ⟨[.tokenClass "C" "a|bc" .raw]⟩

theorem tokens_anchored_choiceArena : ∃ s tokens p, ofArena Pattern.compile? choiceArena = .ok s ∧
    s.tokenize "bc a" = .ok tokens ∧ tokens.map Token.text = ["bc", "a"] ∧
    Pattern.read? "a|bc".toList = some p ∧
    ∀ t ∈ tokens, ∃ before rest d, "bc a".toList = before ++ t.text.toList ++ rest ∧
      t.position = Position.after before ∧ d.rest = rest ∧
      p.Takes ⟨none, t.text.toList ++ rest⟩ d := by
  have hcheck : (ofArena Pattern.compile? choiceArena).toOption.any (fun s =>
      (s.tokenize "bc a").toOption.any fun tokens =>
        tokens.map Token.text = ["bc", "a"] && tokens.map Token.terminal = [0, 0]) = true := by
    decide +kernel
  obtain ⟨s, hs, hcheck⟩ := Except.exists_of_any hcheck
  obtain ⟨tokens, htokens, hcheck⟩ := Except.exists_of_any hcheck
  rw [Bool.and_eq_true, decide_eq_true_eq, decide_eq_true_eq] at hcheck
  obtain ⟨htexts, hterminals⟩ := hcheck
  have hsome : (Pattern.read? "a|bc".toList).isSome = true := by decide +kernel
  obtain ⟨p, hp⟩ := Option.isSome_iff_exists.1 hsome
  refine ⟨s, tokens, p, hs, htokens, htexts, hp, fun t ht => ?_⟩
  have hzero : t.terminal = 0 := by
    have hmem := List.mem_map_of_mem (f := Token.terminal) ht
    rw [hterminals] at hmem
    simpa using hmem
  exact (tokens_anchored hs).2 _ tokens htokens t ht ⟨"C", "a|bc", .raw, Terminal.defaultPriority⟩ p
    (by rw [hzero]; rfl) hp

/-- A class whose pattern closes the group that it is put into. -/
def splitArena : Arena := ⟨[.tokenClass "C" "a)|(?:b" .raw]⟩

/-- A scanner is made, although the text of the class is no pattern by itself. The second branch of
the whole is not behind the anchor, so a match of it may begin later, and a token of the class goes
up to its end. -/
theorem splitArena_unanchored : ∃ s t, ofArena Pattern.compile? splitArena = .ok s ∧
    Pattern.read? "a)|(?:b".toList = none ∧ s.tokenize "cb" = .ok [t] ∧ t.text = "cb" := by
  have hcheck : (ofArena Pattern.compile? splitArena).toOption.any (fun s =>
      (s.tokenize "cb").toOption.any fun tokens => tokens.map Token.text = ["cb"]) = true := by
    decide +kernel
  obtain ⟨s, hs, hcheck⟩ := Except.exists_of_any hcheck
  obtain ⟨tokens, htokens, htexts⟩ := Except.exists_of_any hcheck
  obtain ⟨t, rfl, ht⟩ := List.map_eq_singleton_iff.1 (of_decide_eq_true htexts)
  exact ⟨s, t, hs, by decide +kernel, htokens, ht⟩

end Scanner

end SmallLang
