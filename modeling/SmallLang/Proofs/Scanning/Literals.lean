import SmallLang.Proofs.Scanning.Winner

/-!
# Scanning literals

Any text can be declared as a literal, but layout is skipped before a token is looked for, and a match
without characters does not count. So a literal that is empty or that begins with a blank or a percent sign
is declared in vain: no text has a token of it. Any other literal is scanned from its own text, whatever
else the language has (`Language.tokenize_literal`): no match is longer, no literal of the same length
matches, and a literal wins against classes.
-/

set_option autoImplicit false

namespace SmallLang

open Text

namespace Scanner

variable {s : Scanner} {compile? : String → Option (List Char → Option Nat)} {arena : Arena} {i : Nat}
  {text : String}

/-- On its own text a literal wins. -/
theorem longestMatch?_literal
    (hcompile : ∀ pattern f, compile? pattern = some f → MatchesWithin f)
    (h : ofArena compile? arena = .ok s) (hkeyed : arena.Keyed)
    (hi : arena.get? i = some (.literal text)) (hne : text.toList ≠ []) :
    s.longestMatch? text.toList = some ⟨text.length, .literal text, i⟩ := by
  have hown : ⟨text.length, .literal text, i⟩ ∈ s.candidates text.toList := by
    refine mem_candidates_iff.2 ⟨_, getElem?_literal h hi, rfl, ?_, ?_⟩
    · simp only
      rw [if_pos (List.isPrefixOf_iff_prefix.2 (List.prefix_refl _))]
    · rw [← String.length_toList]
      exact List.length_pos_iff.2 hne
  -- Some match wins, and it ranks no lower than that of the literal itself.
  obtain ⟨c, hc⟩ := Candidate.exists_best? (List.ne_nil_of_mem hown)
  have hmem := mem_of_best? hc
  obtain ⟨hle, hliteral⟩ := Candidate.length_le_of_rank_le (Candidate.rank_le_of_best? hc _ hown)
  have hlength : c.length = text.length := by
    refine Nat.le_antisymm ?_ hle
    rw [← String.length_toList]
    exact (within_ofArena hcompile h).length_le hc
  -- As long as a literal, it is one of a literal itself, with the same characters; so it is the same one.
  have hc' := hliteral hlength.symm rfl
  rw [Candidate.isLiteral] at hc'
  split at hc'
  · rename_i text' hterminal
    obtain ⟨htake, -, hi'⟩ := take_of_literal h hmem hterminal
    rw [hlength, ← String.length_toList, List.take_length, String.toList_inj] at htake
    have hindex := hkeyed.eq_of_sameKey hi' hi (beq_iff_eq.2 htake.symm)
    rw [longestMatch?, hc, ← hlength, ← hindex, htake, ← hterminal]
  · exact absurd hc' Bool.false_ne_true

theorem tokenize_of_beginsToken
    (hcompile : ∀ pattern f, compile? pattern = some f → MatchesWithin f)
    (h : ofArena compile? arena = .ok s) (hkeyed : arena.Keyed)
    (hi : arena.get? i = some (.literal text)) (hbegins : BeginsToken text.toList) :
    s.tokenize text = .ok [⟨i, text, .token text, Position.start⟩] := by
  have hnext : s.nextToken Position.start text.toList =
      .ok (⟨i, text, .token text, Position.start⟩, []) := by
    rw [nextToken, longestMatch?_literal hcompile h hkeyed hi hbegins.ne_nil]
    simp only [← String.length_toList, List.take_length, List.drop_length, String.ofList_toList]
    rfl
  -- One round takes the whole text, the next one finds the end.
  have hscan := Scan.scanFrom_after s [] text.toList
  have hnothing := Scan.scanFrom_after s text.toList []
  simp only [spanLayout_of_beginsToken hbegins, List.append_nil, List.nil_append, Position.after_nil,
    if_neg hbegins.ne_nil, hnext] at hscan
  rw [tokenize, hscan, hnothing]
  rfl

end Scanner

namespace Language

variable {declared : List NodeType} {config : Config} {l : Language} {i : Nat} {text : String}

/-- A literal that begins like a token is scanned from its own text, as one token of the literal with that
text. Any other one is never scanned. -/
theorem tokenize_literal (hl : assemble declared config = .ok l)
    (hi : l.arena.get? i = some (.literal text)) :
    (BeginsToken text.toList → l.tokenize text = .ok [⟨i, text, .token text, Position.start⟩]) ∧
      (¬ BeginsToken text.toList → ∀ other tokens, l.tokenize other = .ok tokens →
        ∀ t ∈ tokens, t.terminal ≠ i) := by
  obtain ⟨hscanner, hkeyed⟩ := scanner_of_assemble hl
  constructor
  · intro hbegins
    exact Scanner.tokenize_of_beginsToken (fun _ _ => Pattern.matchesWithin_compile) hscanner hkeyed hi
      hbegins
  · rintro hnot other tokens htokens t ht rfl
    exact hnot ((takes_of_tokenize htokens t ht).text_eq_of_literal hscanner hi).2

/-- A statement with words that other terminals match as well, and with a sign that begins a comment. -/
def wordy : List NodeType :=
  [(NodeType.named "Let").generates
    [.literal "le", .literal "let", .field "name" (.terminal .identifier) none, .literal "%%"]
    Prec.default |>.start]

set_option maxRecDepth 20000 in
theorem assemble_wordy : ∃ l, assemble wordy .quiet = .ok l ∧
    l.arena = ⟨[.literal "le", .literal "let", .identifier, .literal "%%"]⟩ := by
  have hcheck : (assemble wordy .quiet).toOption.any (fun l =>
      decide (l.arena = ⟨[.literal "le", .literal "let", .identifier, .literal "%%"]⟩)) = true := by
    cbv
  obtain ⟨l, hl, hcheck⟩ := exists_of_any_assemble hcheck
  exact ⟨l, hl, of_decide_eq_true hcheck⟩

/-- The word is scanned as such, although a shorter word and names match there too. The sign is never
scanned. -/
theorem tokenize_literal_wordy : ∃ l, assemble wordy .quiet = .ok l ∧
    l.tokenize "let" = .ok [⟨1, "let", .token "let", Position.start⟩] ∧
    ∀ other tokens, l.tokenize other = .ok tokens → ∀ t ∈ tokens, t.terminal ≠ 3 := by
  obtain ⟨l, hl, harena⟩ := assemble_wordy
  have hword : l.arena.get? 1 = some (.literal "let") := by
    rw [harena]
    rfl
  have hsign : l.arena.get? 3 = some (.literal "%%") := by
    rw [harena]
    rfl
  exact ⟨l, hl, (tokenize_literal hl hword).1 (by decide), (tokenize_literal hl hsign).2 (by decide)⟩

/-- A statement that is a percent sign. -/
def percent : List NodeType :=
  [(NodeType.named "Percent").generates [.literal "%"] Prec.default |>.start]

set_option maxRecDepth 20000 in
/-- The sign is a literal of the language, but its text has no token. -/
theorem exists_literal_not_scanned : ∃ l, assemble percent .quiet = .ok l ∧
    l.arena.get? 0 = some (.literal "%") ∧ l.tokenize "%" = .ok [] := by
  have hcheck : (assemble percent .quiet).toOption.any (fun l =>
      decide (l.arena.get? 0 = some (.literal "%")) && (l.tokenize "%").toOption.any List.isEmpty) =
        true := by
    cbv
  obtain ⟨l, hl, hcheck⟩ := exists_of_any_assemble hcheck
  rw [Bool.and_eq_true, decide_eq_true_eq] at hcheck
  obtain ⟨tokens, htokens, hempty⟩ := Except.exists_of_any hcheck.2
  rw [List.isEmpty_iff.1 hempty] at htokens
  exact ⟨l, hl, hcheck.1, htokens⟩

end Language

end SmallLang
