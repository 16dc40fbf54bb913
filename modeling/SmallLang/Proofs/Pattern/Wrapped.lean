import SmallLang.Proofs.Pattern.EnclosedClass

/-!
# Patterns inside a group

A pattern is put into a group by writing `(?:` before its text and `)` behind it. The text inside
need not be a pattern of its own: in `(?:a)|(?:b)` the text `a)|(?:b` closes the group and opens
another one. Where the whole is a pattern, this is the only way in which the text inside may fail to
be one: either a parenthesis of it closes the group around it (`Pattern.ClosesOutside`), or it is a
pattern by itself, and the whole is that pattern in a group (`Pattern.read?_anchoredText`).

The reader takes the text round by round. What one round takes is read apart from what is done with
it, so that the first is a matter of texts only and the second one of readers.
-/

set_option autoImplicit false

namespace SmallLang.Pattern

variable {f : Flags} {c : Char} {cs : List Char}

/-! ## One round of reading -/

/-- What is taken from a pattern in one round. -/
inductive Item where
  | opening (start : GroupStart)
  | closing
  | bar
  | repetition (least : Nat) (most : Option Nat) (marked : Bool)
  | part (p : Pattern) (depth : Nat)

/-- What an escape stands for, under some settings. -/
def Escape.pattern (f : Flags) : Escape → Pattern
  | literal c => ofSet (f.fold (.single c))
  | charSet s => ofSet s
  | anchor a => .anchor a

/-- The mark of a repetition, which may be missing. -/
def readMark? : List Char → Option (Bool × List Char) :=
  onSign '?' (fun rest => some (true, rest)) fun rest => some (false, rest)

/-- The mark of a repetition with some bounds. -/
def readRepetition? (least : Nat) (most : Option Nat) (cs : List Char) : Option (Item × List Char) :=
  (readMark? cs).map fun r => (.repetition least most r.1, r.2)

/-- Reads the item that begins with a character. -/
def readItem? (f : Flags) (c : Char) (rest : List Char) : Option (Item × List Char) :=
  match c with
  | '(' => (readGroup? f rest).map fun r => (.opening r.1, r.2)
  | ')' => some (.closing, rest)
  | '|' => some (.bar, rest)
  | '*' => readRepetition? 0 none rest
  | '+' => readRepetition? 1 none rest
  | '?' => readRepetition? 0 (some 1) rest
  | '\x7b' => (readBounds? f rest).bind fun r => readRepetition? r.1.1 r.1.2 (skipSpace f r.2)
  | '[' => (readBracket? f rest).map fun r => (.part (ofSet r.1.1) r.1.2, r.2)
  | '\\' => (readEscape? f rest).map fun r => (.part (r.1.pattern f) 0, r.2)
  | '.' => f.dot?.map fun s => (.part (ofSet s) 0, rest)
  | '^' => some (.part (anchor f.lineStart) 0, rest)
  | '$' => some (.part (anchor f.lineEnd) 0, rest)
  | c => some (.part ((Escape.literal c).pattern f) 0, rest)

/-- What is known after an item. -/
def Reader.after? (r : Reader) : Item → Option Reader
  | .opening start => r.openGroup? start
  | .closing => r.closeGroup?
  | .bar => some { r with level := r.level.bar }
  | .repetition least most marked =>
      (r.level.repeatLast? least most (r.flags.greed marked)).map fun l => { r with level := l }
  | .part p depth => some (r.push p depth)

theorem repeatLast?_eq (r : Reader) (least : Nat) (most : Option Nat) (cs : List Char) :
    r.repeatLast? least most cs =
      (readRepetition? least most cs).bind fun x => (r.after? x.1).map (·, x.2) := by
  have hmark : ∀ (marked : Bool) (rest : List Char),
      (r.level.repeatLast? least most (r.flags.greed marked)).map (fun l => (({ r with level := l } : Reader), rest)) =
      (r.after? (.repetition least most marked)).map (·, rest) := by
    intro marked rest
    simp only [Reader.after?, Option.map_map, Function.comp_def]
  unfold Reader.repeatLast? readRepetition? readMark?
  cases cs with
  | nil => exact hmark false []
  | cons c rest =>
      by_cases hc : c = '?'
      · subst hc
        exact hmark true rest
      · rw [onSign_of_ne hc]
        simpa [hc] using hmark false (c :: rest)

/-- What is read in a round, and then what is known after it. -/
theorem item?_eq (r : Reader) (c : Char) (cs : List Char) :
    r.item? c cs = (readItem? r.flags c cs).bind fun x => (r.after? x.1).map (·, x.2) := by
  unfold Reader.item? readItem?
  simp only
  split
  · simp only [Option.bind_map]
    rfl
  · rfl
  · rfl
  · exact repeatLast?_eq r _ _ cs
  · exact repeatLast?_eq r _ _ cs
  · exact repeatLast?_eq r _ _ cs
  · cases readBounds? r.flags cs with
    | none => rfl
    | some x => exact repeatLast?_eq r _ _ _
  · cases readBracket? r.flags cs <;> rfl
  · rcases readEscape? r.flags cs with _ | ⟨e, rest⟩
    · rfl
    · cases e <;> rfl
  · cases r.flags.dot? <;> rfl
  · rfl
  · rfl
  · -- A character without a meaning of its own is an escape that stands for itself.
    simp [*, Reader.after?, Reader.pushEscape, Escape.pattern]

/-! ## Items with a parenthesis behind them -/

theorem reads_mark : Reads readMark? := (Reads.done true).sign (Reads.done false) (by decide)

theorem reads_repetition (least : Nat) (most : Option Nat) : Reads (readRepetition? least most) :=
  reads_mark.map fun marked => Item.repetition least most marked

/-- All items but escapes. -/
theorem reads_item (f : Flags) (hc : c ≠ '\\') : Reads (readItem? f c) := by
  unfold readItem?
  split
  · exact (reads_group f).map Item.opening
  · exact .done _
  · exact .done _
  · exact reads_repetition _ _
  · exact reads_repetition _ _
  · exact reads_repetition _ _
  · exact (reads_bounds f).bind fun bounds => (reads_repetition bounds.1 bounds.2).skipSpace f
  · exact (reads_bracket f).map fun b => Item.part (ofSet b.1) b.2
  · exact absurd rfl hc
  · exact Reads.ofOption f.dot? fun s => Item.part (ofSet s) 0
  · exact .done _
  · exact .done _
  · exact .done _

theorem readItem?_suffix {i : Item} {rest : List Char} (h : readItem? f c cs = some (i, rest)) :
    rest <:+ cs := by
  by_cases hc : c = '\\'
  · subst hc
    obtain ⟨⟨e, more⟩, hread, heq⟩ := Option.map_eq_some_iff.1 h
    cases heq
    exact readEscape?_suffix hread
  · exact (reads_item f hc).suffix h

theorem eq_paren_of_closing {rest : List Char} (h : readItem? f c cs = some (.closing, rest)) :
    c = ')' := by
  unfold readItem? at h
  split at h
  case h_2 => rfl
  all_goals simp [readRepetition?, Option.bind_eq_some_iff] at h

/-- An item is read the same, unless it is a boundary and the brace after it stands before the
parenthesis. -/
theorem readItem?_enclosed {i : Item} {left : List Char}
    (h : readItem? f c (cs ++ [')']) = some (i, left)) :
    Leaves left (fun rest => readItem? f c cs = some (i, rest)) ∨
      (∃ a, i = .part (.anchor a) 0) ∧ Stuck f left := by
  by_cases hc : c = '\\'
  · subst hc
    obtain ⟨⟨e, more⟩, hread, heq⟩ := Option.map_eq_some_iff.1 h
    cases heq
    rcases readEscape?_enclosed hread with hleaves | ⟨⟨a, rfl⟩, hstuck⟩
    · refine Or.inl (hleaves.mono fun rest hrest => ?_)
      simp only [readItem?, hrest, Option.map_some]
    · exact Or.inr ⟨⟨a, rfl⟩, hstuck⟩
  · exact Or.inl ((reads_item f hc).enclosed h)

/-! ## Readers inside a group -/

/-- The reader inside a group without a number, before which the pattern consists of the given
level. -/
def Reader.inside (l : Level) (r : Reader) : Reader :=
  { r with outer := r.outer ++ [⟨.default, none, l⟩] }

namespace Reader

variable {l : Level} {r : Reader}

@[simp] theorem inside_flags (l : Level) (r : Reader) : (r.inside l).flags = r.flags := rfl

theorem inside_outer_isEmpty (l : Level) (r : Reader) : (r.inside l).outer.isEmpty = false := by
  simp [inside]

theorem openGroup?_inside (l : Level) (r : Reader) (start : GroupStart) :
    (r.inside l).openGroup? start = (r.openGroup? start).map (inside l) := by
  cases start with
  | settings f => rfl
  | plain f => rfl
  | numbered name =>
      by_cases hused : name.any r.names.contains = true
      · simp [openGroup?, inside, hused]
      · simp [openGroup?, inside, hused]

theorem closeGroup?_inside (l : Level) (h : r.outer ≠ []) :
    (r.inside l).closeGroup? = r.closeGroup?.map (inside l) := by
  unfold closeGroup?
  cases houter : r.outer with
  | nil => exact absurd houter h
  | cons e outer => simp [inside, houter]

/-- Every item is added in the same way, unless it ends the group around the reader. -/
theorem after?_inside (l : Level) {i : Item} (h : i = .closing → r.outer ≠ []) :
    (r.inside l).after? i = (r.after? i).map (inside l) := by
  cases i with
  | opening start => exact openGroup?_inside l r start
  | closing => exact closeGroup?_inside l (h rfl)
  | bar => rfl
  | repetition least most marked =>
      simp only [after?, Option.map_map]
      rfl
  | part p depth => rfl

/-- An item is read and added the same inside a group, unless it closes the group. Otherwise nothing
comes after it, or only a brace that begins no bounds. -/
theorem item?_inside {r' : Reader} {left : List Char}
    (h : (r.inside l).item? c (cs ++ [')']) = some (r', left)) :
    (c = ')' ∧ r.outer = []) ∨ ∃ r₀, r' = r₀.inside l ∧
      (Leaves left (fun rest => r.item? c cs = some (r₀, rest)) ∨ Stuck r₀.flags left) := by
  rw [item?_eq, inside_flags] at h
  obtain ⟨⟨i, more⟩, hread, h⟩ := Option.bind_eq_some_iff.1 h
  obtain ⟨_, hafter, heq⟩ := Option.map_eq_some_iff.1 h
  cases heq
  by_cases hclose : c = ')' ∧ r.outer = []
  · exact Or.inl hclose
  · refine Or.inr ?_
    have hinner : i = .closing → r.outer ≠ [] := by
      rintro rfl houter
      exact hclose ⟨eq_paren_of_closing hread, houter⟩
    rw [after?_inside l hinner] at hafter
    obtain ⟨r₀, hr₀, rfl⟩ := Option.map_eq_some_iff.1 hafter
    refine ⟨r₀, rfl, ?_⟩
    rcases readItem?_enclosed hread with hleaves | ⟨⟨a, rfl⟩, hstuck⟩
    · refine Or.inl (hleaves.mono fun rest hrest => ?_)
      rw [item?_eq, hrest, Option.bind_some, hr₀, Option.map_some]
    · obtain rfl := Option.some.inj hr₀
      exact Or.inr hstuck

theorem item?_suffix {r' : Reader} {rest : List Char} (h : r.item? c cs = some (r', rest)) :
    rest <:+ cs := by
  rw [item?_eq] at h
  obtain ⟨⟨i, more⟩, hread, h⟩ := Option.bind_eq_some_iff.1 h
  obtain ⟨_, -, heq⟩ := Option.map_eq_some_iff.1 h
  cases heq
  exact readItem?_suffix hread

/-! ## Whole patterns -/

/-- A parenthesis of the text closes a group that was not opened in it. -/
inductive ClosesOutside : Reader → List Char → Prop
  | here {r : Reader} {cs rest : List Char} (hskip : skipSpace r.flags cs = ')' :: rest)
      (houter : r.outer = []) : ClosesOutside r cs
  | later {r r' : Reader} {cs more rest : List Char} {c : Char} (hskip : skipSpace r.flags cs = c :: more)
      (hitem : r.item? c more = some (r', rest)) (h : ClosesOutside r' rest) : ClosesOutside r cs

theorem run?_cons {n : Nat} {more : List Char} (hskip : skipSpace r.flags cs = c :: more) :
    r.run? (n + 1) cs = (r.item? c more).bind fun x => x.1.run? n x.2 := by
  rw [run?, hskip]
  simp only
  cases r.item? c more <;> rfl

theorem run?_end {n : Nat} (hskip : skipSpace r.flags cs = []) :
    r.run? (n + 1) cs = if r.outer.isEmpty then some r.level.whole else none := by
  rw [run?, hskip]

/-- A text that closes a group around it is no pattern. -/
theorem ClosesOutside.run?_eq_none (h : ClosesOutside r cs) (n : Nat) : r.run? n cs = none := by
  induction h generalizing n with
  | here hskip houter =>
      cases n with
      | zero => rfl
      | succ n => simp [run?_cons hskip, item?, closeGroup?, houter]
  | later hskip hitem h ih =>
      cases n with
      | zero => rfl
      | succ n => rw [run?_cons hskip, hitem, Option.bind_some, ih]

/-- A group that is open at the end of the text is not closed any more. -/
theorem run?_inside_nil (l : Level) (r : Reader) (n : Nat) : (r.inside l).run? n [] = none := by
  cases n with
  | zero => rfl
  | succ n => rw [run?_end (skipSpace_nil _), inside_outer_isEmpty]; rfl

/-- No bounds begin before a parenthesis. -/
theorem run?_stuck {left : List Char} (h : Stuck r.flags left) (n : Nat) : r.run? n left = none := by
  obtain ⟨inner, rfl, hinner⟩ := h
  cases n with
  | zero => rfl
  | succ n =>
      have hskip : skipSpace r.flags ('\x7b' :: inner) = '\x7b' :: inner :=
        skipSpace_cons (by decide +kernel) (by decide)
      have hbounds : readBounds? r.flags inner = none := by
        simp [readBounds?, hinner, readCount?, isBlank_paren, takeSpaced, Text.readNatural?]
      rw [run?_cons hskip, item?, hbounds]
      rfl

/-- The parenthesis behind a text closes the group around it, where none is open inside. -/
theorem run?_closing {n : Nat} {whole : Part} (hskip : skipSpace r.flags cs = [')'])
    (h : (r.inside l).run? (n + 1) cs = some whole) :
    r.outer = [] ∧ whole = (l.push ⟨r.level.whole.pattern, r.level.whole.depth + 1⟩).whole := by
  rw [run?_cons (r := r.inside l) hskip] at h
  obtain ⟨⟨r', left⟩, hitem, h⟩ := Option.bind_eq_some_iff.1 h
  obtain ⟨_, hclose, hpair⟩ := Option.map_eq_some_iff.1 hitem
  cases hpair
  by_cases houter : r.outer = []
  · refine ⟨houter, ?_⟩
    simp only [closeGroup?, inside, houter, List.nil_append, Option.some.injEq] at hclose
    subst hclose
    cases n with
    | zero => simp [run?] at h
    | succ n => simpa [run?_end] using h.symm
  · rw [closeGroup?_inside l houter] at hclose
    obtain ⟨r₀, -, rfl⟩ := Option.map_eq_some_iff.1 hclose
    simp [run?_inside_nil] at h

/-- The text of a group: either it closes the group itself, or it is a pattern by itself, for which
any number of rounds larger than the text will do. -/
theorem run?_inside {n : Nat} {whole : Part} (h : (r.inside l).run? n (cs ++ [')']) = some whole) :
    ClosesOutside r cs ∨ ∃ part : Part, (∀ m, cs.length < m → r.run? m cs = some part) ∧
      whole = (l.push ⟨part.pattern, part.depth + 1⟩).whole := by
  induction n generalizing r cs with
  | zero => simp [run?] at h
  | succ n ih =>
      rcases skipSpace_append r.flags cs with hnil | ⟨_, heq, rfl⟩
      · -- A comment takes the parenthesis, and the group stays open.
        rw [run?_end (r := r.inside l) hnil, inside_outer_isEmpty] at h
        simp at h
      · cases hskip : skipSpace r.flags cs with
        | nil =>
            -- The whole text is skipped, and the parenthesis behind it is what is read.
            rw [hskip] at heq
            obtain ⟨houter, hwhole⟩ := run?_closing heq h
            refine Or.inr ⟨r.level.whole, fun m hm => ?_, hwhole⟩
            obtain ⟨m, rfl⟩ := Nat.exists_eq_succ_of_ne_zero (Nat.ne_zero_of_lt hm)
            rw [run?_end hskip, houter]
            rfl
        | cons c more =>
            rw [hskip] at heq
            rw [run?_cons (r := r.inside l) heq] at h
            obtain ⟨⟨r', left⟩, hitem, h⟩ := Option.bind_eq_some_iff.1 h
            rcases item?_inside hitem with ⟨rfl, houter⟩ | ⟨r₀, rfl, (rfl | ⟨rest, rfl, hown⟩) | hstuck⟩
            · exact Or.inl (.here hskip houter)
            · -- The item takes the parenthesis, and the group stays open.
              simp [run?_inside_nil] at h
            · rcases ih h with hout | ⟨part, hpart, hwhole⟩
              · exact Or.inl (.later hskip hown hout)
              · refine Or.inr ⟨part, fun m hm => ?_, hwhole⟩
                obtain ⟨m, rfl⟩ := Nat.exists_eq_succ_of_ne_zero (Nat.ne_zero_of_lt hm)
                have hmore := (skipSpace_suffix r.flags cs).length_le
                rw [hskip, List.length_cons] at hmore
                have hrest := (item?_suffix hown).length_le
                rw [run?_cons hskip, hown, Option.bind_some]
                exact hpart m (by omega)
            · rw [run?_stuck (r := r₀.inside l) hstuck] at h
              simp at h

end Reader

/-- The text closes a group around it. -/
def ClosesOutside (text : List Char) : Prop := Reader.ClosesOutside .start text

theorem read?_eq_none_of_closesOutside (h : ClosesOutside cs) : read? cs = none := by
  rw [read?, Reader.ClosesOutside.run?_eq_none h]

/-- The anchor for the start of a text, before the group. -/
def anchorLevel : Level := Level.empty.push ⟨.anchor .textStart, 0⟩

theorem run?_anchoredText (pattern : String) :
    Reader.start.run? ((anchoredText pattern).length + 1) (anchoredText pattern) =
      (Reader.start.inside anchorLevel).run? ((pattern.toList ++ [')']).length + 4)
        (pattern.toList ++ [')']) := by
  have hescape : ∀ (n : Nat) (rest : List Char), Reader.start.run? (n + 1) ('\\' :: 'A' :: rest) =
      Reader.run? n { Reader.start with level := anchorLevel } rest := fun n rest => rfl
  have hopen : ∀ (n : Nat) (rest : List Char),
      Reader.run? (n + 1) { Reader.start with level := anchorLevel } ('(' :: '?' :: ':' :: rest) =
        (Reader.start.inside anchorLevel).run? n rest := fun n rest => rfl
  exact (hescape _ _).trans (hopen _ _)

theorem whole_anchorLevel (part : Part) :
    (anchorLevel.push part).whole =
      ⟨inRow [.anchor .textStart, part.pattern], part.depth + 1⟩ := by
  simp [anchorLevel, Level.push, Level.empty, Level.whole, Level.current]

/-- A text behind the anchor is a pattern only if the text is one itself, or closes the group that
it is put into. -/
theorem read?_anchoredText {pattern : String} {q : Pattern} (h : read? (anchoredText pattern) = some q)
    (hclose : ¬ClosesOutside pattern.toList) :
    ∃ p, read? pattern.toList = some p ∧ q = inRow [.anchor .textStart, p] := by
  rw [read?, run?_anchoredText] at h
  cases hrun : (Reader.start.inside anchorLevel).run? ((pattern.toList ++ [')']).length + 4)
      (pattern.toList ++ [')']) with
  | none =>
      rw [hrun] at h
      cases h
  | some whole =>
      rw [hrun] at h
      rcases Reader.run?_inside hrun with hout | ⟨part, hpart, rfl⟩
      · exact absurd hout hclose
      · rw [whole_anchorLevel] at h
        simp only [Option.ite_none_right_eq_some, Option.some.injEq] at h
        obtain ⟨hdepth, rfl⟩ := h
        refine ⟨part.pattern, ?_, rfl⟩
        rw [read?, hpart _ (Nat.lt_succ_self _)]
        exact if_pos (by omega)

end SmallLang.Pattern
