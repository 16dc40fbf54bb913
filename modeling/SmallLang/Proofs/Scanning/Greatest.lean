import SmallLang.Proofs.Scanning.Winner

/-!
# The greatest match, whatever the order of terminals

Given the matcher for the patterns of classes, `Terminal.Matches` says what a terminal matches at
the start of a text. The scanner takes the match that outranks those of all other terminals, and
there is no other such match (`Scanner.longestMatch?_eq_some_iff`).

The numbers of terminals are compared last. If no two classes have one priority, terminals whose
matches agree in everything that is compared before are the same. So an arena with the same
terminals under other numbers leads to the same tokens, or to the same error
(`Scanner.tokens_greatest`).
-/

set_option autoImplicit false

namespace SmallLang

variable {compile? : String → Option (List Char → Option Nat)} {arena other : Arena}
  {rest : List Char}

/-! ## What terminals match -/

/-- The terminal matches so many characters at the start of the text: the text of a literal, or what
the matcher for the pattern of a class finds. -/
inductive Terminal.Matches (compile? : String → Option (List Char → Option Nat)) (rest : List Char) :
    Terminal → Nat → Prop
  | literal {text : String} (hstarts : text.toList <+: rest) :
      Matches compile? rest (.literal text) text.length
  | ofClass {c : TokenClass} {matchLength : List Char → Option Nat} {n : Nat}
      (hcompile : compile? c.pattern = some matchLength) (hn : matchLength rest = some n) :
      Matches compile? rest (.ofClass c) n

namespace Terminal

theorem matches_literal_iff {text : String} {n : Nat} :
    (literal text).Matches compile? rest n ↔ text.toList <+: rest ∧ n = text.length := by
  constructor
  · rintro ⟨hstarts⟩
    exact ⟨hstarts, rfl⟩
  · rintro ⟨hstarts, rfl⟩
    exact .literal hstarts

theorem matches_ofClass_iff {c : TokenClass} {n : Nat} :
    (ofClass c).Matches compile? rest n ↔
      (compile? c.pattern).bind (fun matchLength => matchLength rest) = some n := by
  rw [Option.bind_eq_some_iff]
  constructor
  · rintro (_ | ⟨hcompile, hn⟩)
    exact ⟨_, hcompile, hn⟩
  · rintro ⟨_, hcompile, hn⟩
    exact .ofClass hcompile hn

/-- A terminal has one match at a place. -/
theorem Matches.unique {t : Terminal} {n m : Nat} (hn : t.Matches compile? rest n)
    (hm : t.Matches compile? rest m) : n = m := by
  cases t with
  | literal text => rw [(matches_literal_iff.1 hn).2, (matches_literal_iff.1 hm).2]
  | ofClass c =>
      exact Option.some.inj ((matches_ofClass_iff.1 hn).symm.trans (matches_ofClass_iff.1 hm))

theorem matches_iff_of_recognizer {t : Terminal} {r : Recognizer}
    (h : Scanner.recognizer compile? t = .ok r) (n : Nat) :
    r.matchLength rest = some n ↔ t.Matches compile? rest n := by
  cases t with
  | literal text =>
      obtain rfl := Except.ok.inj h
      rw [matches_literal_iff, ← List.isPrefixOf_iff_prefix, eq_comm]
      simp only [Option.some_eq_ite_none_right, Option.some.injEq, eq_comm]
  | ofClass c =>
      rw [Scanner.recognizer] at h
      split at h
      · rename_i hcompile
        obtain rfl := Except.ok.inj h
        rw [matches_ofClass_iff, hcompile, Option.bind_some]
      · simp at h

end Terminal

namespace Candidate

/-- A match of a terminal of the arena at the start of the text. -/
structure IsMatch (compile? : String → Option (List Char → Option Nat)) (arena : Arena)
    (rest : List Char) (c : Candidate) : Prop where
  terminal : arena.get? c.index = some c.terminal
  length : c.terminal.Matches compile? rest c.length

/-- A match that takes some character and outranks the matches of all other terminals. -/
structure IsGreatest (compile? : String → Option (List Char → Option Nat)) (arena : Arena)
    (rest : List Char) (c : Candidate) : Prop where
  isMatch : c.IsMatch compile? arena rest
  length_pos : 0 < c.length
  rank_lt : ∀ d : Candidate, d.IsMatch compile? arena rest → d.index ≠ c.index → d.rank < c.rank

/-- What matches are compared by before the numbers of their terminals. -/
def grade (c : Candidate) : Nat ×ₗ Bool ×ₗ Int :=
  toLex (c.length, toLex (c.isLiteral, c.priority.toInt))

theorem grade_le_of_rank_le {c d : Candidate} (h : d.rank ≤ c.rank) : d.grade ≤ c.grade := by
  simp only [rank, grade, Prod.Lex.toLex_le_toLex] at h ⊢
  rcases h with hlength | ⟨hlength, hliteral | ⟨hliteral, hpriority | ⟨hpriority, -⟩⟩⟩
  · exact Or.inl hlength
  · exact Or.inr ⟨hlength, Or.inl hliteral⟩
  · exact Or.inr ⟨hlength, Or.inr ⟨hliteral, hpriority.le⟩⟩
  · exact Or.inr ⟨hlength, Or.inr ⟨hliteral, hpriority.le⟩⟩

theorem index_eq_of_rank_eq {c d : Candidate} (h : d.rank = c.rank) : d.index = c.index := by
  simp only [rank, toLex_inj, Prod.mk.injEq, OrderDual.toDual_inj] at h
  exact h.2.2.2

theorem rank_lt_of_length_lt {c d : Candidate} (h : d.length < c.length) : d.rank < c.rank :=
  Prod.Lex.toLex_lt_toLex.2 (Or.inl h)

theorem IsMatch.eq_of_index {c d : Candidate} (hc : c.IsMatch compile? arena rest)
    (hd : d.IsMatch compile? arena rest) (h : d.index = c.index) : d = c := by
  obtain ⟨length, terminal, index⟩ := c
  obtain ⟨length', terminal', index'⟩ := d
  obtain rfl : index' = index := h
  obtain rfl : terminal' = terminal := Option.some.inj (hd.terminal.symm.trans hc.terminal)
  obtain rfl : length' = length := hd.length.unique hc.length
  rfl

end Candidate

/-- No two classes of the arena have one priority. -/
def Arena.ClassesRanked (arena : Arena) : Prop :=
  ∀ c d, Terminal.ofClass c ∈ arena.terminals → Terminal.ofClass d ∈ arena.terminals →
    c.priority = d.priority → c = d

/-- Matches of one grade are matches of one terminal. -/
theorem Arena.ClassesRanked.eq_of_grade {c d : Candidate} (harena : arena.ClassesRanked)
    (hc : c.IsMatch compile? arena rest) (hd : d.IsMatch compile? arena rest)
    (h : d.grade = c.grade) : d.length = c.length ∧ d.terminal = c.terminal := by
  simp only [Candidate.grade, toLex_inj, Prod.mk.injEq] at h
  obtain ⟨hlength, hliteral, hpriority⟩ := h
  refine ⟨hlength, ?_⟩
  obtain ⟨n, t, i⟩ := c
  obtain ⟨m, t', j⟩ := d
  cases t with
  | literal text =>
      cases t' with
      | literal text' =>
          -- Both texts begin what is left, and they are equally long.
          obtain ⟨hstarts, hn⟩ := Terminal.matches_literal_iff.1 hc.length
          obtain ⟨hstarts', hm⟩ := Terminal.matches_literal_iff.1 hd.length
          have hlengths : text'.toList.length = text.toList.length := by
            rw [String.length_toList, String.length_toList, ← hm, ← hn]
            exact hlength
          have htexts := (List.prefix_of_prefix_length_le hstarts' hstarts hlengths.le).eq_of_length
            hlengths
          exact congrArg Terminal.literal (String.toList_inj.1 htexts)
      | ofClass cls' => exact absurd hliteral Bool.false_ne_true
  | ofClass cls =>
      cases t' with
      | literal text' => exact absurd hliteral.symm Bool.false_ne_true
      | ofClass cls' =>
          have hmem := List.mem_of_getElem? hc.terminal
          have hmem' := List.mem_of_getElem? hd.terminal
          exact congrArg Terminal.ofClass (harena cls' cls hmem' hmem (Int32.toInt_inj.1 hpriority))

namespace Scanner

variable {s s' : Scanner}

/-- The matches that the scanner compares are those with a character. -/
theorem mem_candidates_iff_isMatch (h : ofArena compile? arena = .ok s) {c : Candidate} :
    c ∈ s.candidates rest ↔ c.IsMatch compile? arena rest ∧ 0 < c.length := by
  rw [mem_candidates_iff]
  constructor
  · rintro ⟨r, hr, hterminal, hlength, hpos⟩
    obtain ⟨hi, hrecognizer⟩ := get?_of_recognizer h hr
    rw [hterminal] at hi hrecognizer
    exact ⟨⟨hi, (Terminal.matches_iff_of_recognizer hrecognizer _).1 hlength⟩, hpos⟩
  · rintro ⟨⟨hi, hlength⟩, hpos⟩
    have hrel := rel_getElem?_of_mapM (recognizers_of_ofArena h) c.index
    rw [show arena.terminals[c.index]? = some c.terminal from hi] at hrel
    cases hr : s.recognizers[c.index]? with
    | none => rw [hr] at hrel; cases hrel
    | some r =>
        have hterminal : some r.terminal = some c.terminal :=
          (get?_of_recognizer h hr).1.symm.trans hi
        rw [hr] at hrel
        have hrecognizer : recognizer compile? c.terminal = .ok r := by cases hrel; assumption
        exact ⟨r, rfl, Option.some.inj hterminal,
          (Terminal.matches_iff_of_recognizer hrecognizer _).2 hlength, hpos⟩

/-- The scanner takes the match that outranks all others, and nothing else. -/
theorem longestMatch?_eq_some_iff (h : ofArena compile? arena = .ok s) {c : Candidate} :
    s.longestMatch? rest = some c ↔ c.IsGreatest compile? arena rest := by
  have hgreatest : ∀ {c : Candidate}, s.longestMatch? rest = some c →
      c.IsGreatest compile? arena rest := by
    intro c hc
    obtain ⟨hmatch, hpos⟩ := (mem_candidates_iff_isMatch h).1 (mem_of_best? hc)
    refine ⟨hmatch, hpos, fun d hd hindex => ?_⟩
    by_cases hd' : 0 < d.length
    · have hle := Candidate.rank_le_of_best? hc d ((mem_candidates_iff_isMatch h).2 ⟨hd, hd'⟩)
      exact lt_of_le_of_ne hle fun heq => hindex (Candidate.index_eq_of_rank_eq heq)
    · exact Candidate.rank_lt_of_length_lt (by omega)
  refine ⟨hgreatest, fun hc => ?_⟩
  -- Some match wins; if it were one of another terminal, each would outrank the other.
  have hmem := (mem_candidates_iff_isMatch h).2 ⟨hc.isMatch, hc.length_pos⟩
  obtain ⟨d, hd⟩ := Candidate.exists_best? (List.ne_nil_of_mem hmem)
  have hd' := hgreatest hd
  have hindex : d.index = c.index := by
    by_contra hne
    exact lt_asymm (hc.rank_lt d hd'.isMatch hne) (hd'.rank_lt c hc.isMatch (Ne.symm hne))
  rw [longestMatch?, hd, hc.isMatch.eq_of_index hd'.isMatch hindex]

/-! ## The same terminals under other numbers -/

/-- A match of a terminal that both arenas have. -/
theorem exists_isMatch (hsame : ∀ t, t ∈ arena.terminals → t ∈ other.terminals) {c : Candidate}
    (hc : c.IsMatch compile? arena rest) :
    ∃ i, Candidate.IsMatch compile? other rest ⟨c.length, c.terminal, i⟩ := by
  obtain ⟨i, hi⟩ := List.getElem?_of_mem (hsame _ (List.mem_of_getElem? hc.terminal))
  exact ⟨i, hi, hc.length⟩

/-- What wins in one arena wins in the other one, under its number there. -/
theorem exists_longestMatch? (hs : ofArena compile? arena = .ok s)
    (hs' : ofArena compile? other = .ok s')
    (hsame : ∀ t, t ∈ other.terminals ↔ t ∈ arena.terminals) (harena : arena.ClassesRanked)
    {c : Candidate} (hc : s.longestMatch? rest = some c) :
    ∃ i, s'.longestMatch? rest = some ⟨c.length, c.terminal, i⟩ := by
  have hgreatest := (longestMatch?_eq_some_iff hs).1 hc
  obtain ⟨i, hi⟩ := exists_isMatch (fun t => (hsame t).2) hgreatest.isMatch
  have hmem : (⟨c.length, c.terminal, i⟩ : Candidate) ∈ s'.candidates rest :=
    (mem_candidates_iff_isMatch hs').2 ⟨hi, hgreatest.length_pos⟩
  obtain ⟨d, hd⟩ := Candidate.exists_best? (List.ne_nil_of_mem hmem)
  have hd' := (longestMatch?_eq_some_iff hs').1 hd
  obtain ⟨j, hj⟩ := exists_isMatch (fun t => (hsame t).1) hd'.isMatch
  -- Neither match is of a lower grade than the other one.
  have hle : Candidate.grade ⟨c.length, c.terminal, i⟩ ≤ d.grade :=
    Candidate.grade_le_of_rank_le (Candidate.rank_le_of_best? hd _ hmem)
  have hge : Candidate.grade ⟨d.length, d.terminal, j⟩ ≤ c.grade := by
    apply Candidate.grade_le_of_rank_le
    apply Candidate.rank_le_of_best? hc
    exact (mem_candidates_iff_isMatch hs).2 ⟨hj, hd'.length_pos⟩
  obtain ⟨hlength, hterminal⟩ : d.length = c.length ∧ d.terminal = c.terminal :=
    harena.eq_of_grade (d := ⟨d.length, d.terminal, j⟩) hgreatest.isMatch hj (le_antisymm hge hle)
  exact ⟨d.index, by rw [longestMatch?, hd, ← hlength, ← hterminal]⟩

end Scanner

/-- A token as the text and the arena show it: the terminal itself in place of its number. -/
def Token.shown (arena : Arena) (t : Token) : Option Terminal × String × Value × Position :=
  (arena.get? t.terminal, t.text, t.value, t.position)

namespace Scanner

variable {s s' : Scanner}

theorem map_cons_map {ε α β : Type} (f : α → β) (x : α) (scan : Except ε (List α)) :
    (scan.map (x :: ·)).map (List.map f) = (scan.map (List.map f)).map (f x :: ·) := by
  cases scan <;> rfl

section

variable (hs : ofArena compile? arena = .ok s) (hs' : ofArena compile? other = .ok s')
  (hsame : ∀ t, t ∈ other.terminals ↔ t ∈ arena.terminals) (harena : arena.ClassesRanked)
include hs hs' hsame harena

theorem nextToken_shown (position : Position) (rest : List Char) :
    (s'.nextToken position rest).map (Prod.map (Token.shown other) id) =
      (s.nextToken position rest).map (Prod.map (Token.shown arena) id) := by
  rw [nextToken, nextToken]
  cases hc : s.longestMatch? rest with
  | some c =>
      obtain ⟨i, hi⟩ := exists_longestMatch? hs hs' hsame harena hc
      have hterminal := ((longestMatch?_eq_some_iff hs).1 hc).isMatch.terminal
      have hterminal' : other.get? i = some c.terminal :=
        ((longestMatch?_eq_some_iff hs').1 hi).isMatch.terminal
      rw [hi]
      simp only
      cases c.terminal.decode (String.ofList (rest.take c.length)) position with
      | error e => rfl
      | ok v => simp only [Except.map, Prod.map, Token.shown, hterminal, hterminal', id]
  | none =>
      -- A match in the other arena would be one in this one.
      cases hc' : s'.longestMatch? rest with
      | none => rfl
      | some d =>
          have hd := (longestMatch?_eq_some_iff hs').1 hc'
          obtain ⟨j, hj⟩ := exists_isMatch (fun t => (hsame t).1) hd.isMatch
          have hmem := (mem_candidates_iff_isMatch hs).2 ⟨hj, hd.length_pos⟩
          obtain ⟨c, hc''⟩ := Candidate.exists_best? (List.ne_nil_of_mem hmem)
          exact absurd (hc''.symm.trans hc) (Option.some_ne_none c)

theorem scanFrom_shown (before rest : List Char) :
    (s'.scanFrom (Position.after before) rest).map (List.map (Token.shown other)) =
      (s.scanFrom (Position.after before) rest).map (List.map (Token.shown arena)) := by
  induction hlength : rest.length using Nat.strong_induction_on generalizing before rest with
  | _ n ih =>
      subst hlength
      rw [Scan.scanFrom_after, Scan.scanFrom_after]
      simp only
      split
      · rfl
      · rename_i hrest
        have hnext := nextToken_shown hs hs' hsame harena
          (Position.after (before ++ (spanLayout false rest).1)) (spanLayout false rest).2
        -- Both scanners fail alike, or they take tokens that are shown alike and go on alike.
        cases htoken : s.nextToken (Position.after (before ++ (spanLayout false rest).1))
            (spanLayout false rest).2 with
        | error e =>
            rw [htoken] at hnext
            cases htoken' : s'.nextToken (Position.after (before ++ (spanLayout false rest).1))
                (spanLayout false rest).2 with
            | error e' =>
                rw [htoken'] at hnext
                exact congrArg _ (Except.error.inj hnext)
            | ok next => simp [htoken', Except.map] at hnext
        | ok next =>
            rw [htoken] at hnext
            cases htoken' : s'.nextToken (Position.after (before ++ (spanLayout false rest).1))
                (spanLayout false rest).2 with
            | error e' => simp [htoken', Except.map] at hnext
            | ok next' =>
                rw [htoken'] at hnext
                obtain ⟨t, more⟩ := next
                obtain ⟨t', more'⟩ := next'
                obtain ⟨hshown, hleft⟩ := Prod.mk.inj (Except.ok.inj hnext)
                obtain rfl : more' = more := hleft
                have htext : t'.text = t.text := congrArg (fun shown => shown.2.1) hshown
                have hmore := ih _ (length_lt_of_nextToken htoken hrest)
                  (before ++ (spanLayout false rest).1 ++ t.text.toList) more' rfl
                simp only [htext, map_cons_map]
                rw [hmore, hshown]

end

theorem exists_mapM_eq_ok {ε α β : Type} {f : α → Except ε β} {xs : List α}
    (h : ∀ x ∈ xs, ∃ y, f x = .ok y) : ∃ ys, xs.mapM f = .ok ys := by
  induction xs with
  | nil => exact ⟨[], rfl⟩
  | cons x xs ih =>
      obtain ⟨hx, hxs⟩ := List.forall_mem_cons.1 h
      obtain ⟨y, hy⟩ := hx
      obtain ⟨ys, hys⟩ := ih hxs
      exact ⟨y :: ys, by rw [List.mapM_cons, hy, hys]; rfl⟩

/-- A scanner is made for an arena if each of its terminals has a recognizer. -/
theorem exists_ofArena_iff :
    (∃ s, ofArena compile? arena = .ok s) ↔
      ∀ t ∈ arena.terminals, ∃ r, recognizer compile? t = .ok r := by
  constructor
  · rintro ⟨s, h⟩ t ht
    obtain ⟨i, hi⟩ := List.getElem?_of_mem ht
    have hrel := rel_getElem?_of_mapM (recognizers_of_ofArena h) i
    rw [hi] at hrel
    cases hr : s.recognizers[i]? with
    | none => rw [hr] at hrel; cases hrel
    | some r =>
        rw [hr] at hrel
        exact ⟨r, by cases hrel; assumption⟩
  · intro h
    obtain ⟨rs, hrs⟩ := exists_mapM_eq_ok h
    exact ⟨⟨rs⟩, by rw [ofArena, hrs]; rfl⟩

/-- Given the matcher for patterns, a scan finds the greatest matches, and the order of terminals
makes no difference. Each token stands at the start of what is left of the text, and among the
matches of all terminals there it is the one greatest by length, then by being one of a literal, by
the priority of its class and by the earlier number, while no other terminal ties with it. An arena
with the same terminals under other numbers has a scanner as well, and if no two classes have one
priority, it makes of every text the same tokens, or fails with the same error. -/
theorem tokens_greatest (hs : ofArena compile? arena = .ok s) (text : String) :
    (∀ tokens, s.tokenize text = .ok tokens → ∀ t ∈ tokens, ∃ before rest, ∃ c : Candidate,
      text.toList = before ++ rest ∧ t.position = Position.after before ∧
      c.IsGreatest compile? arena rest ∧ t.terminal = c.index ∧
      t.text = String.ofList (rest.take c.length)) ∧
    ∀ other : Arena, (∀ t, t ∈ other.terminals ↔ t ∈ arena.terminals) → arena.ClassesRanked →
      ∃ s', ofArena compile? other = .ok s' ∧
        (s'.tokenize text).map (List.map (Token.shown other)) =
          (s.tokenize text).map (List.map (Token.shown arena)) := by
  constructor
  · intro tokens htokens t ht
    obtain ⟨before, rest, more, htext, -, hposition, hnext⟩ :=
      (scans_of_scanFrom htokens).exists_next t ht
    rw [← Position.after_nil, Position.advance_after, List.nil_append] at hposition
    obtain ⟨c, v, hc, -, hshown, -⟩ := nextToken_eq_ok_iff.1 hnext
    refine ⟨before, rest, c, htext.symm, hposition, (longestMatch?_eq_some_iff hs).1 hc, ?_⟩
    rw [hshown]
    exact ⟨rfl, rfl⟩
  · intro other hsame harena
    obtain ⟨s', hs'⟩ : ∃ s', ofArena compile? other = .ok s' :=
      exists_ofArena_iff.2 fun t ht => exists_ofArena_iff.1 ⟨s, hs⟩ t ((hsame t).1 ht)
    refine ⟨s', hs', ?_⟩
    exact scanFrom_shown hs hs' hsame harena [] text.toList

/-- Names, a word that is a name as well, and the truth values. -/
def wordArena : Arena := ⟨[.identifier, .literal "let", .boolean]⟩

/-- The same terminals the other way round. -/
def turnedWordArena : Arena := ⟨[.boolean, .literal "let", .identifier]⟩

theorem wordArena_classesRanked : wordArena.ClassesRanked := by
  intro c d hc hd hpriority
  simp only [wordArena, List.mem_cons, List.not_mem_nil, or_false, Terminal.identifier,
    Terminal.boolean, Terminal.tokenClass, Terminal.withPriority, Terminal.ofClass.injEq,
    reduceCtorEq, false_or] at hc hd
  rcases hc with rfl | rfl <;> rcases hd with rfl | rfl
  · rfl
  · exact absurd hpriority (by decide)
  · exact absurd hpriority (by decide)
  · rfl

/-- A word, a longer name and a truth value are scanned as such with either numbering. -/
theorem tokens_greatest_wordArena : ∃ s s' tokens tokens',
    ofArena Pattern.compile? wordArena = .ok s ∧
    ofArena Pattern.compile? turnedWordArena = .ok s' ∧
    s.tokenize "let letter true" = .ok tokens ∧ s'.tokenize "let letter true" = .ok tokens' ∧
    tokens.map Token.terminal = [1, 0, 2] ∧
    tokens'.map (Token.shown turnedWordArena) = tokens.map (Token.shown wordArena) ∧
    ∀ t ∈ tokens, ∃ rest, ∃ c : Candidate,
      c.IsGreatest Pattern.compile? wordArena rest ∧ t.terminal = c.index := by
  have hcheck : (ofArena Pattern.compile? wordArena).toOption.any (fun s =>
      (s.tokenize "let letter true").toOption.any fun tokens =>
        tokens.map Token.terminal = [1, 0, 2]) = true := by
    decide +kernel
  obtain ⟨s, hs, hcheck⟩ := Except.exists_of_any hcheck
  obtain ⟨tokens, htokens, hterminals⟩ := Except.exists_of_any hcheck
  obtain ⟨hgreatest, hturned⟩ := tokens_greatest hs "let letter true"
  obtain ⟨s', hs', hsame⟩ := hturned turnedWordArena
    (by simp [wordArena, turnedWordArena, or_comm, or_left_comm]) wordArena_classesRanked
  rw [htokens] at hsame
  cases htokens' : s'.tokenize "let letter true" with
  | error e => simp [htokens', Except.map] at hsame
  | ok tokens' =>
      rw [htokens'] at hsame
      refine ⟨s, s', tokens, tokens', hs, hs', htokens, htokens', of_decide_eq_true hterminals,
        Except.ok.inj hsame, fun t ht => ?_⟩
      obtain ⟨_, rest, c, -, -, hc, hterminal, -⟩ := hgreatest tokens htokens t ht
      exact ⟨rest, c, hc, hterminal⟩

end Scanner

end SmallLang
