import SmallLang.Proofs.Scanning.Classes
import SmallLang.Proofs.Scanning.Rebuilt

/-!
# The same tokens with other layout

The longest match at a place depends on all that follows, layout included. For the four built-in
classes and for literals without blanks it does not depend on how the layout looks: if such a
terminal wins with some word, it wins with the same word when the word is followed by a blank, or by
nothing, whatever stood there before (`Scanner.nextToken_respaced`). For literals, numbers, truth
values and names this holds since they do not contain blanks. A text in quotes may contain blanks,
but it ends at the first quote: no blank opens or closes one, so nothing is gained as long as no
quote is new (`Terminal.Respaced`).

So the words of a text that is scanned can be put together again with any blanks between them, and
the new text is scanned to the same words with the same values (`Scanner.tokens_respaced`).
-/

set_option autoImplicit false

namespace SmallLang

open Text

/-! ## Words with something else behind them -/

namespace Terminal

/-- A word that was followed by some text is followed by another one: by a blank, or by nothing, and
by no quote if there was none before. -/
structure Respaced (word more other : List Char) : Prop where
  ne_nil : word ≠ []
  head : ∀ c ∈ other.head?, isBlank c = true
  quote : '\"' ∈ other → '\"' ∈ more

/-- A terminal whose match does not depend on what stands behind a word. If it matches the word, it
does so again; and if it had matched nothing longer than the word, it matches nothing now that is
longer than the word or than what it matched before. -/
structure IsLocal (t : Terminal) : Prop where
  again {word more other : List Char} (h : Respaced word more other)
    (hmatch : t.Matches Pattern.compile? (word ++ more) word.length) :
    t.Matches Pattern.compile? (word ++ other) word.length
  bounded {word more other : List Char} {n : Nat} (h : Respaced word more other)
    (hlongest : ∀ m, t.Matches Pattern.compile? (word ++ more) m → m ≤ word.length)
    (hmatch : t.Matches Pattern.compile? (word ++ other) n) :
    n ≤ word.length ∧ ∃ m, n ≤ m ∧ t.Matches Pattern.compile? (word ++ more) m

/-- Texts without blanks are found within the word. -/
theorem prefix_of_prefix_respaced {word more other text : List Char} (h : Respaced word more other)
    (htext : ∀ c ∈ text, isBlank c = false) (hstarts : text <+: word ++ other) : text <+: word := by
  rcases List.prefix_or_prefix_of_prefix hstarts (List.prefix_append word other) with
    hword | ⟨rest, rfl⟩
  · exact hword
  · cases rest with
    | nil => simp
    | cons c rest =>
        -- The text would go on with the blank behind the word.
        obtain ⟨others, rfl⟩ := (List.prefix_append_right_inj word).1 hstarts
        have hblank := h.head c (by simp)
        rw [htext c (by simp)] at hblank
        exact absurd hblank Bool.false_ne_true

/-- Literals and the two truth values: one of some texts without blanks. -/
theorem isLocal_of_texts {t : Terminal} (texts : List (List Char))
    (htexts : ∀ text ∈ texts, ∀ c ∈ text, isBlank c = false)
    (hmatches : ∀ cs n, t.Matches Pattern.compile? cs n ↔
      ∃ text ∈ texts, text <+: cs ∧ n = text.length) : t.IsLocal := by
  constructor
  · intro word more other h hmatch
    obtain ⟨text, hmem, hstarts, hlength⟩ := (hmatches _ _).1 hmatch
    have hword := (List.isPrefix_append_of_length hlength.ge).1 hstarts
    exact (hmatches _ _).2 ⟨text, hmem, hword.trans (List.prefix_append _ _), hlength⟩
  · intro word more other n h _ hmatch
    obtain ⟨text, hmem, hstarts, rfl⟩ := (hmatches _ _).1 hmatch
    have hword := prefix_of_prefix_respaced h (htexts text hmem) hstarts
    exact ⟨hword.length_le, _, le_rfl,
      (hmatches _ _).2 ⟨text, hmem, hword.trans (List.prefix_append _ _), rfl⟩⟩

theorem isLocal_literal {text : String} (htext : ∀ c ∈ text.toList, isBlank c = false) :
    (literal text).IsLocal := by
  refine isLocal_of_texts [text.toList] (by simpa using htext) fun cs n => ?_
  rw [matches_literal_iff, ← String.length_toList]
  simp

/-- No blank is a letter, a digit or a low line. -/
theorem wordChar_of_isBlank {c : Char} (h : isBlank c = true) : (c.isAlphanum || c == '_') = false := by
  rw [← CharSet.mem_alphanumerics]
  simp only [CharSet.mem, CharSet.memCode, inRanges, isBlank, blankRanges] at h ⊢
  grind

theorem isLocal_boolean : boolean.IsLocal := by
  have hletters : ∀ text ∈ [['t', 'r', 'u', 'e'], ['f', 'a', 'l', 's', 'e']], ∀ c ∈ text,
      c.isAlphanum = true := by
    simp
  refine isLocal_of_texts [['t', 'r', 'u', 'e'], ['f', 'a', 'l', 's', 'e']] (fun text hmem c hc => ?_)
    fun cs n => ?_
  · by_contra hblank
    have hno := wordChar_of_isBlank (Bool.not_eq_false _ ▸ hblank)
    simp [hletters text hmem c hc] at hno
  · rw [matches_boolean_iff]
    simp

/-- The blank behind a word ends a run of characters that are not blank. -/
theorem takeWhile_append_respaced {later : Char → Bool}
    (hlater : ∀ c, isBlank c = true → later c = false) {word more other : List Char}
    (h : Respaced word more other) (cs : List Char) :
    (cs ++ other).takeWhile later = cs.takeWhile later := by
  have hother : other.takeWhile later = [] := by
    cases other with
    | nil => rfl
    | cons d other => exact List.takeWhile_cons_of_neg (by simp [hlater d (h.head d rfl)])
  rw [List.takeWhile_append, hother, List.append_nil]
  split
  · rename_i hall
    exact ((List.takeWhile_prefix later).eq_of_length hall).symm
  · rfl

/-- Numbers and names: a first character and all those behind it of some kind, none of which is
blank. -/
theorem isLocal_of_run {t : Terminal} (first later : Char → Bool)
    (hlater : ∀ c, isBlank c = true → later c = false)
    (hmatches : ∀ cs n, t.Matches Pattern.compile? cs n ↔
      Automaton.runLength? first later cs = some n) : t.IsLocal := by
  have hrun : ∀ {c : Char} {cs behind : List Char} {n : Nat},
      t.Matches Pattern.compile? (c :: cs ++ behind) n ↔
        first c = true ∧ ((cs ++ behind).takeWhile later).length + 1 = n := by
    intro c cs behind n
    rw [hmatches, List.cons_append, Automaton.runLength?]
    split <;> simp [*]
  constructor
  · intro word more other h hmatch
    obtain ⟨c, cs, rfl⟩ := List.exists_cons_of_ne_nil h.ne_nil
    obtain ⟨hc, hlength⟩ := hrun.1 hmatch
    refine hrun.2 ⟨hc, ?_⟩
    rw [takeWhile_append_respaced hlater h]
    rw [List.takeWhile_append] at hlength
    split at hlength
    · rename_i hall
      rw [hall, List.length_cons]
    · exact hlength
  · intro word more other n h _ hmatch
    obtain ⟨c, cs, rfl⟩ := List.exists_cons_of_ne_nil h.ne_nil
    obtain ⟨hc, rfl⟩ := hrun.1 hmatch
    rw [takeWhile_append_respaced hlater h]
    refine ⟨Nat.succ_le_succ (List.takeWhile_prefix later).length_le, _, ?_, hrun.2 ⟨hc, rfl⟩⟩
    rw [List.takeWhile_append]
    split
    · rename_i hall
      rw [hall, List.length_append]
      omega
    · rfl

theorem isLocal_number : number.IsLocal :=
  isLocal_of_run _ _ (fun c hc => by
      have hno := wordChar_of_isBlank hc
      simp only [Char.isAlphanum, Bool.or_eq_false_iff] at hno
      exact hno.1.2) fun _ _ => matches_number_iff

theorem isLocal_identifier : identifier.IsLocal :=
  isLocal_of_run _ _ (fun _ => wordChar_of_isBlank) fun _ _ => matches_identifier_iff

/-- Where a text in quotes that begins with the word is closed. -/
theorem matches_string_append_iff {cs behind : List Char} {n : Nat} :
    string.Matches Pattern.compile? ('\"' :: cs ++ behind) n ↔
      if '\"' ∈ cs then (cs.takeWhile (· != '\"')).length + 2 = n
      else '\"' ∈ behind ∧ cs.length + (behind.takeWhile (· != '\"')).length + 2 = n := by
  rw [matches_string_iff]
  simp only [List.cons_append, List.cons.injEq, true_and, exists_eq_left', Automaton.closedLength?,
    List.mem_append]
  by_cases h : '\"' ∈ cs
  · have hshorter : (cs.takeWhile (· != '\"')).length ≠ cs.length := fun hlength => by
      have hall := List.mem_takeWhile_imp (((List.takeWhile_prefix _).eq_of_length hlength).symm ▸ h)
      simp at hall
    simp [h, List.takeWhile_append, hshorter]
    omega
  · have hall : ∀ c ∈ cs, (c != '\"') = true := fun c hc => by
      simpa using fun heq : c = '\"' => h (heq ▸ hc)
    simp [h, List.takeWhile_append_of_pos hall]
    omega

/-- A text in quotes that is closed within the word is closed there again. If it was not closed
before, no quote can close it now. -/
theorem isLocal_string : string.IsLocal := by
  have hquote : ∀ {word behind : List Char} {n : Nat}, word ≠ [] →
      string.Matches Pattern.compile? (word ++ behind) n → ∃ cs, word = '\"' :: cs := by
    intro word behind n hword hmatch
    obtain ⟨c, cs, rfl⟩ := List.exists_cons_of_ne_nil hword
    obtain ⟨rest, heq, -⟩ := matches_string_iff.1 hmatch
    exact ⟨cs, by rw [(List.cons.inj heq).1]⟩
  constructor
  · intro word more other h hmatch
    obtain ⟨cs, rfl⟩ := hquote h.ne_nil hmatch
    rw [matches_string_append_iff] at hmatch ⊢
    split
    · rename_i hclosed
      rwa [if_pos hclosed] at hmatch
    · rename_i hopen
      rw [if_neg hopen, List.length_cons] at hmatch
      omega
  · intro word more other n h hlongest hmatch
    obtain ⟨cs, rfl⟩ := hquote h.ne_nil hmatch
    rw [matches_string_append_iff] at hmatch
    split at hmatch
    · rename_i hclosed
      have hlength := hlongest n (matches_string_append_iff.2 (by rwa [if_pos hclosed]))
      exact ⟨hlength, n, le_rfl, matches_string_append_iff.2 (by rwa [if_pos hclosed])⟩
    · rename_i hopen
      -- A quote behind the word would have closed the text before.
      have hlength := hlongest _ (matches_string_append_iff.2 (by
        rw [if_neg hopen]
        exact ⟨h.quote hmatch.1, rfl⟩))
      rw [List.length_cons] at hlength
      omega

end Terminal

/-! ## Other layout -/

/-- A text that consists of words with blanks between any two of them. -/
inductive Spaced : List String → List Char → Prop
  | nil : Spaced [] []
  | word (w : String) : Spaced [w] w.toList
  | cons {w v : String} {words : List String} {cs : List Char} (gap : List Char) (hne : gap ≠ [])
      (hgap : ∀ c ∈ gap, isBlank c = true) (hrest : Spaced (v :: words) cs) :
      Spaced (w :: v :: words) (w.toList ++ (gap ++ cs))

/-- The first word of such a text, and what comes behind it: nothing, or the other words after some
blanks. -/
theorem Spaced.exists_behind {w : String} {words : List String} {cs : List Char}
    (h : Spaced (w :: words) cs) : ∃ gap others, cs = w.toList ++ (gap ++ others) ∧
      (∀ c ∈ gap, isBlank c = true) ∧ Spaced words others ∧
      ∀ c ∈ (gap ++ others).head?, isBlank c = true := by
  cases h with
  | word => exact ⟨[], [], by simp, by simp, .nil, by simp⟩
  | @cons _ v words others gap hne hgap hrest =>
      refine ⟨gap, others, rfl, hgap, hrest, fun c hc => ?_⟩
      obtain ⟨d, gap, rfl⟩ := List.exists_cons_of_ne_nil hne
      obtain rfl : d = c := Option.some.inj hc
      exact hgap d List.mem_cons_self

/-- A character of such a text is blank or belongs to a word. -/
theorem Spaced.mem {words : List String} {cs : List Char} (h : Spaced words cs) {c : Char}
    (hc : c ∈ cs) : isBlank c = true ∨ ∃ w ∈ words, c ∈ w.toList := by
  induction h with
  | nil => simp at hc
  | word w => exact Or.inr ⟨w, List.mem_singleton_self w, hc⟩
  | @cons w v words others gap _ hgap _ ih =>
      rcases List.mem_append.1 hc with hw | hc
      · exact Or.inr ⟨w, List.mem_cons_self, hw⟩
      · rcases List.mem_append.1 hc with hblank | hothers
        · exact Or.inl (hgap c hblank)
        · rcases ih hothers with hblank | ⟨u, hu, hmem⟩
          · exact Or.inl hblank
          · exact Or.inr ⟨u, List.mem_cons_of_mem _ hu, hmem⟩

/-- Blanks before a text are passed over. -/
theorem spanLayout_gap {gap cs : List Char} (hgap : ∀ c ∈ gap, isBlank c = true)
    (hcs : cs = [] ∨ BeginsToken cs) : spanLayout false (gap ++ cs) = (gap, cs) := by
  induction gap with
  | nil =>
      rcases hcs with rfl | hbegins
      · rfl
      · exact spanLayout_of_beginsToken hbegins
  | cons c gap ih =>
      obtain ⟨hc, hothers⟩ := List.forall_mem_cons.1 hgap
      have hpercent : c ≠ '%' := by
        rintro rfl
        exact absurd hc (by decide +kernel)
      have hstay : (c != '\n' && (false || c == '%')) = false := by simp [hpercent]
      rw [List.cons_append, spanLayout, if_pos (by simp [hc]), hstay, ih hothers]

namespace Scanner

variable {arena : Arena} {s : Scanner}

/-- What wins with a word wins with it whatever comes behind. -/
theorem isGreatest_respaced (harena : ∀ t ∈ arena.terminals, t.IsLocal)
    {word more other : List Char} {c : Candidate}
    (h : Terminal.Respaced word more other)
    (hc : c.IsGreatest Pattern.compile? arena (word ++ more)) (hlength : c.length = word.length) :
    c.IsGreatest Pattern.compile? arena (word ++ other) := by
  have hlocal : ∀ {d : Candidate} {rest : List Char}, d.IsMatch Pattern.compile? arena rest →
      d.terminal.IsLocal := fun hd => harena _ (List.mem_of_getElem? hd.terminal)
  refine ⟨⟨hc.isMatch.terminal, ?_⟩, hc.length_pos, fun d hd hne => ?_⟩
  · rw [hlength]
    exact (hlocal hc.isMatch).again h (hlength ▸ hc.isMatch.length)
  · have hlongest : ∀ m, d.terminal.Matches Pattern.compile? (word ++ more) m → m ≤ word.length := by
      intro m hm
      have hlt := hc.rank_lt ⟨m, d.terminal, d.index⟩ ⟨hd.terminal, hm⟩ hne
      exact hlength ▸ (Candidate.length_le_of_rank_le hlt.le).1
    obtain ⟨-, m, hle, hm⟩ := (hlocal hd).bounded h hlongest hd.length
    have hlt := hc.rank_lt ⟨m, d.terminal, d.index⟩ ⟨hd.terminal, hm⟩ hne
    rcases hle.lt_or_eq with hshorter | heq
    · exact lt_trans (Candidate.rank_lt_of_length_lt hshorter) hlt
    · exact lt_of_eq_of_lt (congrArg (fun n => Candidate.rank ⟨n, d.terminal, d.index⟩) heq) hlt

/-- A scan that passes over a gap and takes a token. -/
theorem Scans.of_gap {position : Position} {cs gap rest more : List Char} {t : Token}
    {tokens : List Token} (hspan : spanLayout false cs = (gap, rest)) (hrest : rest ≠ [])
    (hnext : s.nextToken (position.advance gap) rest = .ok (t, more))
    (hmore : Scans s ((position.advance gap).advance t.text.toList) more tokens) :
    Scans s position cs (t :: tokens) := by
  obtain ⟨rfl, rfl⟩ := Prod.mk.inj hspan
  exact .token hrest hnext hmore

/-- The texts of the tokens stand in what is left of the text. -/
theorem Scans.mem_of_text {position : Position} {cs : List Char} {tokens : List Token}
    (h : Scans s position cs tokens) {w : String} (hw : w ∈ tokens.map Token.text) {c : Char}
    (hc : c ∈ w.toList) : c ∈ cs := by
  obtain ⟨t, ht, rfl⟩ := List.mem_map.1 hw
  obtain ⟨skipped, rest, more, rfl, -, -, hnext⟩ := h.exists_next t ht
  rw [← (nextToken_eq_ok hnext).1]
  exact List.mem_append_right _ (List.mem_append_left _ hc)

section

variable (hs : ofArena Pattern.compile? arena = .ok s) (harena : ∀ t ∈ arena.terminals, t.IsLocal)
include hs harena

/-- The next token is the same, at another place and with something else behind it. -/
theorem nextToken_respaced {position : Position} {more other : List Char} {t : Token}
    (hnext : s.nextToken position (t.text.toList ++ more) = .ok (t, more))
    (h : Terminal.Respaced t.text.toList more other) (position' : Position) :
    s.nextToken position' (t.text.toList ++ other) =
      .ok ({ t with position := position' }, other) := by
  obtain ⟨c, v, hc, hv, ht, -⟩ := nextToken_eq_ok_iff.1 hnext
  have hwithin := (within_ofArena (fun _ _ => Pattern.matchesWithin_compile) hs).length_le hc
  have hword : (t.text.toList ++ more).take c.length = t.text.toList :=
    String.toList_ofList.symm.trans (congrArg (fun u : Token => u.text.toList) ht).symm
  have hlength : c.length = t.text.toList.length := by
    rw [← hword, List.length_take, Nat.min_eq_left hwithin]
  have htake : (t.text.toList ++ other).take c.length = t.text.toList := by
    rw [hlength, List.take_left]
  have hgreatest := isGreatest_respaced harena h ((longestMatch?_eq_some_iff hs).1 hc) hlength
  rw [hword] at hv ht
  refine nextToken_eq_ok_iff.2 ⟨c, v, (longestMatch?_eq_some_iff hs).2 hgreatest, ?_, ?_, ?_⟩
  · rw [htake]
    exact Terminal.decode_place hv position'
  · rw [htake]
    exact congrArg (fun u : Token => { u with position := position' }) ht
  · rw [hlength, List.drop_left]

/-- The words of what is left of a text are scanned again with other blanks between them. -/
theorem Scans.respaced {position : Position} {cs : List Char} {tokens : List Token}
    (h : Scans s position cs tokens) {other : List Char}
    (hspaced : Spaced (tokens.map Token.text) other) {gap : List Char}
    (hgap : ∀ c ∈ gap, isBlank c = true) (position' : Position) :
    ∃ tokens', Scans s position' (gap ++ other) tokens' ∧
      tokens'.map Token.outside = tokens.map Token.outside := by
  -- By induction on the scan: the gap before the next word is passed over, and the word taken again.
  induction h generalizing other gap position' with
  | last =>
      cases hspaced
      refine ⟨[], .last ?_, rfl⟩
      rw [spanLayout_gap hgap (Or.inl rfl)]
  | @token position cs more t tokens hrest hnext hmore ih =>
      obtain ⟨gap', others, rfl, hgap', hothers, hhead⟩ := hspaced.exists_behind
      obtain ⟨happend, -, hword⟩ := nextToken_eq_ok hnext
      have hne := hword hrest
      rw [← happend] at hnext
      -- The other words come from what was left of the text, and blanks are no quotes.
      have hquote : '\"' ∈ gap' ++ others → '\"' ∈ more := by
        have hnone : isBlank '\"' ≠ true := by decide +kernel
        intro hmem
        rcases List.mem_append.1 hmem with hblank | hmem
        · exact absurd (hgap' _ hblank) hnone
        · rcases hothers.mem hmem with hblank | ⟨w, hw, hmem⟩
          · exact absurd hblank hnone
          · exact hmore.mem_of_text hw hmem
      have hnext' := nextToken_respaced hs harena hnext ⟨hne, hhead, hquote⟩ (position'.advance gap)
      have hbegins : BeginsToken (t.text.toList ++ (gap' ++ others)) := by
        have hbegins := beginsToken_of_spanLayout false cs hrest
        rw [← happend] at hbegins
        obtain ⟨c, word, hcons⟩ := List.exists_cons_of_ne_nil hne
        rw [hcons] at hbegins ⊢
        exact hbegins
      obtain ⟨tokens', hscans, houtside⟩ := ih hothers hgap'
        ((position'.advance gap).advance t.text.toList)
      refine ⟨_, .of_gap (spanLayout_gap hgap (Or.inr hbegins)) hbegins.ne_nil hnext' hscans, ?_⟩
      rw [List.map_cons, List.map_cons, houtside]
      rfl

end

end Scanner

/-! ## The built-in classes -/

namespace Terminal

/-- A literal without blanks, or one of the four built-in classes. -/
def IsPlain : Terminal → Prop
  | literal text => ∀ c ∈ text.toList, isBlank c = false
  | ofClass c => ofClass c ∈ [number, boolean, string, identifier]

instance : (t : Terminal) → Decidable t.IsPlain
  | literal text => List.decidableBAll (fun c => isBlank c = false) text.toList
  | ofClass c => inferInstanceAs (Decidable (ofClass c ∈ [number, boolean, string, identifier]))

theorem IsPlain.isLocal {t : Terminal} (h : t.IsPlain) : t.IsLocal := by
  cases t with
  | literal text => exact isLocal_literal h
  | ofClass c =>
      have hlocal : ∀ t ∈ [number, boolean, string, identifier], t.IsLocal := by
        simp only [List.forall_mem_cons, List.not_mem_nil, false_imp_iff, implies_true, and_true]
        exact ⟨isLocal_number, isLocal_boolean, isLocal_string, isLocal_identifier⟩
      exact hlocal _ h

theorem IsPlain.exists_recognizer {t : Terminal} (h : t.IsPlain) :
    ∃ r, Scanner.recognizer Pattern.compile? t = .ok r := by
  cases t with
  | literal text => exact ⟨_, rfl⟩
  | ofClass c =>
      have hcompile : ∃ matchLength, Pattern.compile? c.pattern = some matchLength := by
        simp only [IsPlain, number, boolean, string, identifier, tokenClass, withPriority,
          List.mem_cons, ofClass.injEq, List.not_mem_nil, or_false] at h
        rcases h with rfl | rfl | rfl | rfl
        · exact ⟨_, compile?_number⟩
        · exact ⟨_, compile?_boolean⟩
        · exact ⟨_, compile?_string⟩
        · exact ⟨_, compile?_identifier⟩
      obtain ⟨matchLength, hcompile⟩ := hcompile
      exact ⟨⟨ofClass c, matchLength⟩, by rw [Scanner.recognizer, hcompile]⟩

end Terminal

namespace Scanner

/-- An arena of built-in classes and literals without blanks has a scanner. The words of a text that
it scans, put together again with any blanks between them, are scanned to tokens of the same
terminals with the same texts and values. -/
theorem tokens_respaced {arena : Arena} (harena : ∀ t ∈ arena.terminals, t.IsPlain) :
    ∃ s, ofArena Pattern.compile? arena = .ok s ∧
      ∀ (text other : String) (tokens : List Token), s.tokenize text = .ok tokens →
        Spaced (tokens.map Token.text) other.toList →
        ∃ tokens', s.tokenize other = .ok tokens' ∧
          tokens'.map Token.outside = tokens.map Token.outside := by
  obtain ⟨s, hs⟩ := exists_ofArena_iff.2 fun t ht => (harena t ht).exists_recognizer
  refine ⟨s, hs, fun text other tokens htokens hspaced => ?_⟩
  have hlocal : ∀ t ∈ arena.terminals, t.IsLocal := fun t ht => (harena t ht).isLocal
  have hgap : ∀ c ∈ ([] : List Char), isBlank c = true := by simp
  obtain ⟨tokens', hscans, houtside⟩ :=
    (scans_of_scanFrom htokens).respaced hs hlocal hspaced hgap Position.start
  exact ⟨tokens', hscans.scanFrom_eq, houtside⟩

/-- Names, numbers, texts in quotes, truth values and a sign. -/
def plainArena : Arena := ⟨[.identifier, .literal "=", .number, .string, .boolean]⟩

/-- A text in quotes with blanks and a percent sign stays as it is where comments and all other
layout are exchanged. -/
theorem tokens_respaced_plainArena : ∃ s tokens tokens',
    ofArena Pattern.compile? plainArena = .ok s ∧
    s.tokenize "x=\"1 % 2\"%3\ntrue" = .ok tokens ∧
    s.tokenize "x\t= \"1 % 2\"\n true" = .ok tokens' ∧
    tokens.map Token.text = ["x", "=", "\"1 % 2\"", "true"] ∧
    tokens'.map Token.outside = tokens.map Token.outside := by
  have hplain : ∀ t ∈ plainArena.terminals, t.IsPlain := by decide +kernel
  have hcheck : (ofArena Pattern.compile? plainArena).toOption.any (fun s =>
      (s.tokenize "x=\"1 % 2\"%3\ntrue").toOption.any fun tokens =>
        tokens.map Token.text = ["x", "=", "\"1 % 2\"", "true"]) = true := by
    decide +kernel
  have hspaced : Spaced ["x", "=", "\"1 % 2\"", "true"] "x\t= \"1 % 2\"\n true".toList :=
    .cons ['\t'] (by simp) (by simp; decide +kernel)
      (.cons [' '] (by simp) (by simp; decide +kernel)
        (.cons ['\n', ' '] (by simp) (by simp; decide +kernel) (.word "true")))
  obtain ⟨s, hs, hcheck⟩ := Except.exists_of_any hcheck
  obtain ⟨tokens, htokens, htexts⟩ := Except.exists_of_any hcheck
  have htexts := of_decide_eq_true htexts
  obtain ⟨s', hs', hrespaced⟩ := tokens_respaced hplain
  obtain rfl := Except.ok.inj (hs'.symm.trans hs)
  obtain ⟨tokens', htokens', houtside⟩ := hrespaced _ _ tokens htokens (htexts.symm ▸ hspaced)
  exact ⟨s', tokens, tokens', hs, htokens, htokens', htexts, houtside⟩

end Scanner

end SmallLang
