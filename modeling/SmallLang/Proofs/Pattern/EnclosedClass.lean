import SmallLang.Proofs.Pattern.Enclosed

/-!
# Classes in brackets with a parenthesis behind them

A class ends with its closing bracket, so a parenthesis behind the pattern is no part of it: a class
is read the same with the parenthesis and without it (`Pattern.reads_bracket`). A single member may
take the parenthesis, and a member at the end of the text is refused only without it; but then the
bracket is missing in either case.
-/

set_option autoImplicit false

namespace SmallLang.Pattern

variable {f : Flags} {cs : List Char}

/-! ## Members -/

/-- The member of a class that an escape stands for. A condition on a place is none. -/
def Escape.member? : Escape → Option Member
  | literal c => some (.char c)
  | charSet s => some (.set s)
  | anchor _ => none

theorem reads_escapeMember (f : Flags) :
    Reads fun cs => (readEscape? f cs).bind fun r => r.1.member?.map (·, r.2) := by
  constructor
  · intro cs rest x h
    obtain ⟨⟨e, left⟩, hread, h⟩ := Option.bind_eq_some_iff.1 h
    obtain ⟨_, -, heq⟩ := Option.map_eq_some_iff.1 h
    cases heq
    exact readEscape?_suffix hread
  · intro cs left x h
    obtain ⟨⟨e, middle⟩, hread, h⟩ := Option.bind_eq_some_iff.1 h
    obtain ⟨m, hm, heq⟩ := Option.map_eq_some_iff.1 h
    cases heq
    rcases readEscape?_enclosed hread with hleaves | ⟨⟨a, rfl⟩, -⟩
    · refine hleaves.mono fun rest hrest => ?_
      simp only [hrest, Option.bind_some, hm, Option.map_some]
    · simp [Escape.member?] at hm

theorem readMember?_escape (f : Flags) (cs : List Char) :
    readMember? f ('\\' :: cs) = (readEscape? f cs).bind fun r => r.1.member?.map (·, r.2) := by
  rw [readMember?]
  rcases readEscape? f cs with _ | ⟨e, rest⟩
  · rfl
  · cases e <;> rfl

theorem readMember?_of_ne {c : Char} (hc : c ≠ '\\') (cs : List Char) :
    readMember? f (c :: cs) = some (.char c, cs) := by
  simp [readMember?]

theorem reads_member (f : Flags) : Reads (readMember? f) := by
  refine ((reads_escapeMember f).sign (Reads.cons fun c => Reads.done (Member.char c))
    (c := '\\') (by decide)).of_eq fun cs => ?_
  cases cs with
  | nil => rfl
  | cons c cs =>
      by_cases hc : c = '\\'
      · subst hc
        rw [onSign_self, readMember?_escape]
      · rw [onSign_of_ne hc, readMember?_of_ne hc]

/-- A member takes a character at least. -/
theorem readMember?_suffix {c : Char} {m : Member} {rest : List Char}
    (h : readMember? f (c :: cs) = some (m, rest)) : rest <:+ cs := by
  by_cases hc : c = '\\'
  · subst hc
    exact (reads_escapeMember f).suffix (readMember?_escape f cs ▸ h)
  · rw [readMember?_of_ne hc] at h
    cases h
    exact List.suffix_refl _

/-! ## Ranges -/

theorem head?_append_paren {c : Char} (hpar : c ≠ ')') :
    (cs ++ [')']).head? = some c ↔ cs.head? = some c := by
  cases cs with
  | nil => simpa using hpar.symm
  | cons d cs => rfl

/-- A look ahead for a character with which no blank, comment or closing parenthesis begins. -/
theorem peekSpaced_append (f : Flags) (cs : List Char) {c : Char} (hpar : c ≠ ')')
    (hblank : Text.isBlank c = false) (hcomment : c ≠ '#') :
    peekSpaced f (cs ++ [')']) = some c ↔ peekSpaced f cs = some c := by
  unfold peekSpaced
  simp only
  by_cases hspaced : f.spaced = true
  · rw [if_pos hspaced, if_pos hspaced, dropWhile_isBlank_append]
    generalize hrest : cs.dropWhile Text.isBlank = rest
    -- Where the look ahead finds nothing, the text begins with a blank or a comment.
    have hhead : ∀ d, cs.head? = some d → Text.isBlank d = false → rest.head? = some d := by
      intro d hd hd'
      cases cs with
      | nil => simp at hd
      | cons x cs =>
          obtain rfl := Option.some.inj hd
          rw [← hrest, List.dropWhile_cons_of_neg (by simp [hd'])]
          rfl
    cases rest with
    | nil =>
        have hne : cs.head? ≠ some c := fun h => by simpa using hhead c h hblank
        simp [hne, hpar.symm]
    | cons d rest =>
        by_cases hd : d = '#'
        · subst hd
          have hne : cs.head? ≠ some c := fun h => hcomment (by simpa using (hhead c h hblank).symm)
          simp only [List.cons_append, dropWhile_isBlank_append]
          cases rest.dropWhile Text.isBlank with
          | nil => simp [hne, hpar.symm]
          | cons x rest => rfl
        · simp [hd]
  · rw [if_neg hspaced, if_neg hspaced]
    exact head?_append_paren hpar

/-- The characters of a member that begins no range. -/
def Member.chars? (f : Flags) : Member → Option CharSet
  | char c => range? f c c
  | set s => some s

/-- The characters from one member to another. -/
def Member.to? (f : Flags) : Member → Member → Option CharSet
  | char a, char b => range? f a b
  | _, _ => none

/-- The rest of a range behind its minus sign. -/
def rangeEnd? (f : Flags) (first : Member) (after : List Char) : Option (CharSet × List Char) :=
  (readMember? f (skipSpace f after)).bind fun r => (first.to? f r.1).map (id ·, r.2)

theorem reads_rangeEnd (f : Flags) (first : Member) : Reads (rangeEnd? f first) :=
  ((reads_member f).skipSpace f).bind fun last => Reads.ofOption (first.to? f last) id

/-- What becomes of a member, by what comes after it. -/
def rangeFrom? (f : Flags) (first : Member) : List Char → Option (CharSet × List Char)
  | [] => none
  | c :: rest =>
      if c = '-' ∧ ¬(peekSpaced f rest = some ']' ∨ peekSpaced f rest = some '-') then
        rangeEnd? f first rest
      else (first.chars? f).map (·, c :: rest)

theorem readRange?_eq (f : Flags) (cs : List Char) :
    readRange? f cs = (readMember? f cs).bind fun r => rangeFrom? f r.1 (skipSpace f r.2) := by
  have hfinish : ∀ (m : Member) rest, readRange?.finish f m rest = (m.chars? f).map (·, rest) := by
    intro m rest
    cases m <;> rfl
  unfold readRange?
  cases readMember? f cs with
  | none => rfl
  | some r =>
      simp only [Option.bind_eq_bind, Option.bind_some, hfinish]
      split
      · rename_i after heq
        rw [heq, rangeFrom?]
        split
        · rename_i hpeek
          rw [if_neg fun h => h.2 hpeek]
        · rename_i hpeek
          rw [if_pos ⟨rfl, hpeek⟩, rangeEnd?]
          cases readMember? f (skipSpace f after) with
          | none => rfl
          | some q =>
              obtain ⟨last, rest⟩ := q
              cases r.1 <;> cases last <;> rfl
      · rename_i heq
        rw [heq, rangeFrom?]
      · rename_i hminus hnil
        cases hskip : skipSpace f r.2 with
        | nil => exact (hnil hskip).elim
        | cons c rest =>
            rw [rangeFrom?, if_neg]
            rintro ⟨rfl, -⟩
            exact hminus rest hskip

theorem rangeFrom?_suffix {m : Member} {s : CharSet} {rest : List Char}
    (h : rangeFrom? f m cs = some (s, rest)) : rest <:+ cs := by
  cases cs with
  | nil => simp [rangeFrom?] at h
  | cons c cs =>
      rw [rangeFrom?] at h
      split at h
      · exact ((reads_rangeEnd f m).suffix h).trans (List.suffix_cons c cs)
      · obtain ⟨_, -, heq⟩ := Option.map_eq_some_iff.1 h
        cases heq
        exact List.suffix_refl _

theorem rangeFrom?_append {m : Member} {s : CharSet} {left : List Char}
    (h : rangeFrom? f m (cs ++ [')']) = some (s, left)) :
    left = [')'] ∨ Leaves left fun rest => rangeFrom? f m cs = some (s, rest) := by
  cases cs with
  | nil =>
      have hpar : (')' : Char) ≠ '-' := by decide
      rw [List.nil_append, rangeFrom?, if_neg fun h => hpar h.1] at h
      obtain ⟨_, -, heq⟩ := Option.map_eq_some_iff.1 h
      exact Or.inl (Prod.mk.inj heq).2.symm
  | cons c cs =>
      refine Or.inr ?_
      have hclose := peekSpaced_append f cs (c := ']') (by decide) (by decide +kernel) (by decide)
      have hminus := peekSpaced_append f cs (c := '-') (by decide) (by decide +kernel) (by decide)
      simp only [List.cons_append, rangeFrom?, hclose, hminus] at h ⊢
      split at h
      · rename_i hrange
        rw [if_pos hrange]
        exact (reads_rangeEnd f m).enclosed h
      · rename_i hrange
        rw [if_neg hrange]
        obtain ⟨_, hs, heq⟩ := Option.map_eq_some_iff.1 h
        cases heq
        exact Or.inr ⟨c :: cs, rfl, by rw [hs]; rfl⟩

/-- A range takes a character at least. -/
theorem readRange?_suffix {c : Char} {s : CharSet} {rest : List Char}
    (h : readRange? f (c :: cs) = some (s, rest)) : rest <:+ cs := by
  rw [readRange?_eq] at h
  obtain ⟨⟨m, more⟩, hm, h⟩ := Option.bind_eq_some_iff.1 h
  exact ((rangeFrom?_suffix h).trans (skipSpace_suffix f more)).trans (readMember?_suffix hm)

/-- A range is read the same, unless it is a single member before the parenthesis. -/
theorem readRange?_append {s : CharSet} {left : List Char}
    (h : readRange? f (cs ++ [')']) = some (s, left)) :
    left = [')'] ∨ Leaves left fun rest => readRange? f cs = some (s, rest) := by
  rw [readRange?_eq] at h ⊢
  obtain ⟨⟨m, more⟩, hm, h⟩ := Option.bind_eq_some_iff.1 h
  rcases (reads_member f).enclosed hm with rfl | ⟨more, rfl, hown⟩
  · -- The parenthesis is the member itself, and nothing stands behind it.
    simp [rangeFrom?] at h
  · rw [hown, Option.bind_some]
    rcases skipSpace_append f more with hnil | ⟨_, heq, rfl⟩
    · simp [hnil, rangeFrom?] at h
    · rw [heq] at h
      exact rangeFrom?_append h

/-! ## Named classes -/

/-- A reader that never takes the closing parenthesis, and reads with it what it reads without
it. -/
structure Stops {α : Type} (read : List Char → Option (α × List Char)) : Prop where
  suffix {cs rest : List Char} {x : α} (h : read cs = some (x, rest)) : rest <:+ cs
  append (cs : List Char) : read (cs ++ [')']) = (read cs).map fun r => (r.1, r.2 ++ [')'])

theorem Stops.fail {α : Type} : Stops fun _ => (none : Option (α × List Char)) :=
  ⟨by simp, fun _ => rfl⟩

theorem Stops.sign {α : Type} {read other : List Char → Option (α × List Char)} (h : Stops read)
    (hother : Stops other) {c : Char} (hc : c ≠ ')') : Stops (onSign c read other) := by
  constructor
  · exact onSign_suffix h.suffix hother.suffix
  · intro cs
    cases cs with
    | nil =>
        rw [List.nil_append, onSign_of_ne hc.symm]
        exact hother.append []
    | cons d cs =>
        simp only [List.cons_append, onSign]
        split
        · exact h.append cs
        · exact hother.append (d :: cs)

/-- Reads the name of an ASCII class, which has to be followed by the closing signs. -/
def asciiName? (negated : Bool) (cs : List Char) : Option ((CharSet × Bool) × List Char) :=
  match cs.drop (cs.takeWhile (· != ':')).length with
  | ':' :: ']' :: rest =>
      (asciiClass? (String.ofList (cs.takeWhile (· != ':')))).map fun s => ((s, negated), rest)
  | _ => none

theorem stops_asciiName (negated : Bool) : Stops (asciiName? negated) := by
  constructor
  · intro cs rest x h
    unfold asciiName? at h
    split at h
    · rename_i more heq
      obtain ⟨_, -, hx⟩ := Option.map_eq_some_iff.1 h
      cases hx
      have hsuffix := List.drop_suffix (cs.takeWhile (· != ':')).length cs
      rw [heq] at hsuffix
      exact ((List.suffix_cons _ _).trans (List.suffix_cons _ _)).trans hsuffix
    · simp at h
  · intro cs
    unfold asciiName?
    rcases takeWhile_enclosed (p := (· != ':')) (by decide) cs with ⟨hown, hnil⟩ | ⟨hname, hdrop⟩
    · rw [hown, hnil]
      rfl
    · rw [hname, hdrop]
      rcases cs.drop (cs.takeWhile (· != ':')).length with _ | ⟨c, _ | ⟨d, rest⟩⟩
      · rfl
      · by_cases hc : c = ':' <;> simp [hc]
      · by_cases hc : c = ':'
        · by_cases hd : d = ']'
          · subst hc hd
            simp [Option.map_map, Function.comp_def]
          · simp [hd]
        · simp [hc]

theorem readAsciiClass?_eq (cs : List Char) : readAsciiClass? cs =
    onSign ':' (onSign '^' (asciiName? true) (asciiName? false)) (fun _ => none) cs := by
  unfold readAsciiClass?
  split
  · rename_i cs
    rw [onSign_self]
    cases cs with
    | nil => rfl
    | cons c cs =>
        by_cases hc : c = '^'
        · subst hc
          rfl
        · rw [onSign_of_ne hc]
          simp only [List.cons.injEq, hc, false_and, imp_self, implies_true]
          rfl
  · rename_i hcolon
    rw [onSign_of_forall hcolon]

theorem stops_asciiClass : Stops readAsciiClass? := by
  have hname := (stops_asciiName true).sign (stops_asciiName false) (c := '^') (by decide)
  exact funext readAsciiClass?_eq ▸ hname.sign .fail (c := ':') (by decide)

/-! ## The start of a class -/

/-- A class that begins with some minus signs. -/
def Class.ofDashes (dashes : List Char) : Class :=
  ⟨none, dashes.foldl (fun m c => m.add (.single c) 0) Members.empty⟩

/-- Whether a class begins with the sign that takes the characters outside it. -/
def openSign (f : Flags) : List Char → Bool × List Char
  | '^' :: rest => (true, skipSpace f rest)
  | rest => (false, rest)

/-- Goes on after the minus signs at the start of a class: without them a closing bracket stands for
itself. -/
def openFrom (negated : Bool) : List Char → List Char → Bool × Class × List Char
  | [], ']' :: rest => (negated, (Class.ofDashes []).add (.single ']') 0, rest)
  | dashes, rest => (negated, Class.ofDashes dashes, rest)

theorem openBracket_eq (f : Flags) (cs : List Char) :
    openBracket f cs =
      let start := openSign f (skipSpace f cs)
      let row := takeSpaced f (· == '-') start.2.length start.2
      openFrom start.1 row.1 row.2 := by
  have hopen : ∀ (negated : Bool) (row : List Char × List Char),
      (match row.1, row.2 with
        | [], ']' :: rest => (negated, (Class.ofDashes row.1).add (.single ']') 0, rest)
        | _, rest => (negated, Class.ofDashes row.1, rest)) = openFrom negated row.1 row.2 := by
    rintro negated ⟨dashes, rest⟩
    cases dashes with
    | nil =>
        cases rest with
        | nil => rfl
        | cons c rest =>
            by_cases hc : c = ']'
            · subst hc
              rfl
            · simp [openFrom, hc]
    | cons d dashes => rfl
  exact hopen (openSign f (skipSpace f cs)).1 _

/-- The parts of what was read of a class before its members. -/
def Opened (r : Bool × Class × List Char) : Option ((Bool × Class) × List Char) :=
  some ((r.1, r.2.1), r.2.2)

theorem reads_openSign (f : Flags) : Reads fun cs => some (openSign f cs) := by
  refine (((Reads.done true).skipSpace f).sign (Reads.done false) (c := '^') (by decide)).of_eq
    fun cs => ?_
  cases cs with
  | nil => rfl
  | cons c rest =>
      by_cases hc : c = '^'
      · subst hc
        rfl
      · rw [onSign_of_ne hc]
        simp [openSign, hc]

theorem reads_openFrom (negated : Bool) (dashes : List Char) :
    Reads fun rest => Opened (openFrom negated dashes rest) := by
  cases dashes with
  | nil =>
      refine ((Reads.done (negated, (Class.ofDashes []).add (.single ']') 0)).sign
        (Reads.done (negated, Class.ofDashes [])) (c := ']') (by decide)).of_eq fun rest => ?_
      cases rest with
      | nil => rfl
      | cons c rest =>
          by_cases hc : c = ']'
          · subst hc
            rfl
          · rw [onSign_of_ne hc]
            simp [openFrom, Opened, hc]
  | cons d dashes => exact Reads.done (negated, Class.ofDashes (d :: dashes))

theorem reads_openBracket (f : Flags) : Reads fun cs => Opened (openBracket f cs) :=
  (((reads_openSign f).skipSpace f).bind fun negated =>
    (Reads.row f (· == '-')).bind (reads_openFrom negated)).of_eq fun cs =>
      congrArg Opened (openBracket_eq f cs)

theorem openBracket_suffix (f : Flags) (cs : List Char) : (openBracket f cs).2.2 <:+ cs :=
  (reads_openBracket f).suffix rfl

theorem openBracket_append (f : Flags) (cs : List Char) :
    Leaves (openBracket f (cs ++ [')'])).2.2 fun rest => rest <:+ cs ∧ openBracket f cs =
      ((openBracket f (cs ++ [')'])).1, (openBracket f (cs ++ [')'])).2.1, rest) := by
  have hread : Opened (openBracket f (cs ++ [')'])) = some _ := rfl
  refine ((reads_openBracket f).enclosed hread).mono fun rest hrest =>
    ⟨(reads_openBracket f).suffix hrest, ?_⟩
  obtain ⟨hstart, hrest⟩ := Prod.mk.inj (Option.some.inj hrest)
  obtain ⟨hnegated, hclass⟩ := Prod.mk.inj hstart
  exact Prod.ext hnegated (Prod.ext hclass hrest)

/-! ## Classes -/

/-- What comes next in a class, and what comes after its signs. -/
inductive Piece where
  | nothing
  | closing (rest : List Char)
  | operator (op : SetOp) (rest : List Char)
  | opening (rest : List Char)
  | range (cs : List Char)

/-- The operator whose sign is the character twice. -/
def operator? (c : Char) : Option SetOp :=
  if c = '&' then some .intersection
  else if c = '-' then some .difference
  else if c = '~' then some .symmetricDifference
  else none

/-- What comes next in a class. -/
def nextPiece : List Char → Piece
  | [] => .nothing
  | c :: rest =>
      if c = ']' then .closing rest
      else if c = '[' then .opening rest
      else
        match operator? c with
        | some op =>
            match rest with
            | d :: more => if d = c then .operator op more else .range (c :: rest)
            | [] => .range (c :: rest)
        | none => .range (c :: rest)

namespace Piece

/-- The piece with the parenthesis behind the text. -/
def enclosed : Piece → Piece
  | nothing => .nothing
  | closing rest => .closing (rest ++ [')'])
  | operator op rest => .operator op (rest ++ [')'])
  | opening rest => .opening (rest ++ [')'])
  | range cs => .range (cs ++ [')'])

/-- The piece takes the first character at least, unless a range comes next. -/
def IsOf (c : Char) (cs : List Char) : Piece → Prop
  | nothing => False
  | closing rest => rest <:+ cs
  | operator _ rest => rest <:+ cs
  | opening rest => rest <:+ cs
  | range ds => ds = c :: cs

end Piece

theorem operator?_eq_some {c : Char} {op : SetOp} (h : operator? c = some op) :
    c = '&' ∨ c = '-' ∨ c = '~' := by
  unfold operator? at h
  split at h
  · exact Or.inl ‹_›
  · split at h
    · exact Or.inr (Or.inl ‹_›)
    · split at h
      · exact Or.inr (Or.inr ‹_›)
      · simp at h

theorem nextPiece_isOf (c : Char) (cs : List Char) : (nextPiece (c :: cs)).IsOf c cs := by
  rw [nextPiece]
  split
  · exact List.suffix_refl cs
  · split
    · exact List.suffix_refl cs
    · split
      · split
        · split
          · exact List.suffix_cons _ _
          · rfl
        · rfl
      · rfl

theorem nextPiece_append (c : Char) (cs : List Char) :
    nextPiece (c :: cs ++ [')']) = (nextPiece (c :: cs)).enclosed := by
  rw [List.cons_append, nextPiece, nextPiece]
  split
  · rfl
  · split
    · rfl
    · cases hop : operator? c with
      | none => rfl
      | some op =>
          cases cs with
          | nil =>
              have hpar : ')' ≠ c := by
                rintro rfl
                simpa using operator?_eq_some hop
              exact if_neg hpar
          | cons d more =>
              simp only [List.cons_append]
              split <;> rfl

/-- Goes on with the members of a class after a bracket in it. -/
def nested? (f : Flags) (negated : Bool) (n : Nat) (k : Class) (cs : List Char) :
    Option ((CharSet × Nat) × List Char) :=
  match readAsciiClass? cs with
  | some ((s, negatedClass), rest) =>
      (f.foldClass? negatedClass s).bind fun s => readMembers? f negated n (k.add s 0) rest
  | none =>
      (readMembers? f (openBracket f cs).1 n (openBracket f cs).2.1 (openBracket f cs).2.2).bind
        fun r => readMembers? f negated n (k.add r.1.1 r.1.2) r.2

/-- Goes on with the members of a class after a piece. -/
def afterPiece? (f : Flags) (negated : Bool) (n : Nat) (k : Class) :
    Piece → Option ((CharSet × Nat) × List Char)
  | .nothing => none
  | .closing rest => (f.foldClass? negated (k.all f).1).map fun s => ((s, (k.all f).2 + 1), rest)
  | .operator op rest => readMembers? f negated n (k.apply f op) rest
  | .opening rest => nested? f negated n k rest
  | .range cs => (readRange? f cs).bind fun r => readMembers? f negated n (k.add r.1 0) r.2

theorem nextPiece_eq_range {text : List Char} (hnil : text ≠ []) (hclose : ∀ rest, text ≠ ']' :: rest)
    (hopen : ∀ rest, text ≠ '[' :: rest)
    (hop : ∀ c rest, c = '&' ∨ c = '-' ∨ c = '~' → text ≠ c :: c :: rest) :
    nextPiece text = .range text := by
  cases text with
  | nil => exact absurd rfl hnil
  | cons c rest =>
      have hc : c ≠ ']' := by
        rintro rfl
        exact hclose rest rfl
      have hc' : c ≠ '[' := by
        rintro rfl
        exact hopen rest rfl
      rw [nextPiece, if_neg hc, if_neg hc']
      cases hsign : operator? c with
      | none => rfl
      | some op =>
          cases rest with
          | nil => rfl
          | cons d more =>
              refine if_neg ?_
              rintro rfl
              exact hop d more (operator?_eq_some hsign) rfl

/-- One round of a class, by what comes next in it. -/
theorem readMembers?_succ (f : Flags) (negated : Bool) (n : Nat) (k : Class) (cs : List Char) :
    readMembers? f negated (n + 1) k cs =
      afterPiece? f negated n k (nextPiece (skipSpace f cs)) := by
  rw [readMembers?]
  generalize skipSpace f cs = text
  split
  · rfl
  · rfl
  · rfl
  · rfl
  · rfl
  · rename_i rest
    rw [show nextPiece ('[' :: rest) = .opening rest from rfl]
    simp only [afterPiece?, nested?]
    rcases readAsciiClass? rest with _ | ⟨⟨s, negatedClass⟩, more⟩
    · simp only
      cases readMembers? f (openBracket f rest).1 n _ _ <;> rfl
    · simp only
      cases f.foldClass? negatedClass s <;> rfl
  · rename_i hnil hclose hand hminus htilde hopen
    rw [nextPiece_eq_range hnil hclose hopen fun c rest hc => by
      rcases hc with rfl | rfl | rfl
      · exact hand rest
      · exact hminus rest
      · exact htilde rest, afterPiece?]
    cases readRange? f text <;> rfl

@[simp] theorem readMembers?_nil (f : Flags) (negated : Bool) (n : Nat) (k : Class) :
    readMembers? f negated n k [] = none := by
  cases n with
  | zero => rfl
  | succ n => simp [readMembers?]

/-- A class does not end before the parenthesis. -/
theorem readMembers?_paren (f : Flags) (negated : Bool) (n : Nat) (k : Class)
    (h : skipSpace f cs = []) :
    readMembers? f negated n k (cs ++ [')']) = none := by
  cases n with
  | zero => rfl
  | succ n =>
      rw [readMembers?_succ]
      rcases skipSpace_append f cs with hnil | ⟨_, heq, rfl⟩
      · rw [hnil]
        rfl
      · rw [heq, h]
        have hrange : readRange? f [')'] = none := by simp [readRange?, readMember?]
        change (readRange? f [')']).bind _ = none
        rw [hrange]
        rfl

/-- In so many rounds the members of a class are read up to an end of the text. With the parenthesis
at the end of the text they are read the same, and any number of rounds larger than the text will do
without it. -/
structure ReadsMembers (f : Flags) (n : Nat) : Prop where
  suffix {negated : Bool} {k : Class} {cs rest : List Char} {x : CharSet × Nat}
    (h : readMembers? f negated n k cs = some (x, rest)) : rest <:+ cs
  enclosed {negated : Bool} {k : Class} {cs left : List Char} {x : CharSet × Nat}
    (h : readMembers? f negated n k (cs ++ [')']) = some (x, left)) :
    ∃ rest, left = rest ++ [')'] ∧ rest <:+ cs ∧
      ∀ m, cs.length < m → readMembers? f negated m k cs = some (x, rest)

namespace ReadsMembers

variable {negated : Bool} {n : Nat} {k : Class} {x : CharSet × Nat} {left : List Char}

theorem nested_suffix (ih : ReadsMembers f n) {rest : List Char}
    (h : nested? f negated n k cs = some (x, rest)) : rest <:+ cs := by
  unfold nested? at h
  split at h
  · rename_i hclass
    obtain ⟨s, -, h⟩ := Option.bind_eq_some_iff.1 h
    exact (ih.suffix h).trans (stops_asciiClass.suffix hclass)
  · obtain ⟨inner, hinner, h⟩ := Option.bind_eq_some_iff.1 h
    exact ((ih.suffix h).trans (ih.suffix hinner)).trans (openBracket_suffix f _)

theorem nested_enclosed (ih : ReadsMembers f n)
    (h : nested? f negated n k (cs ++ [')']) = some (x, left)) :
    ∃ rest, left = rest ++ [')'] ∧ rest <:+ cs ∧
      ∀ m, cs.length < m → nested? f negated m k cs = some (x, rest) := by
  unfold nested? at h ⊢
  rw [stops_asciiClass.append] at h
  cases hclass : readAsciiClass? cs with
  | some r =>
      obtain ⟨⟨s, negatedClass⟩, more⟩ := r
      simp only [hclass, Option.map_some] at h ⊢
      obtain ⟨t, ht, h⟩ := Option.bind_eq_some_iff.1 h
      obtain ⟨rest, rfl, hsuffix, hown⟩ := ih.enclosed h
      have hmore := stops_asciiClass.suffix hclass
      refine ⟨rest, rfl, hsuffix.trans hmore, fun m hm => ?_⟩
      rw [ht, Option.bind_some]
      exact hown m (Nat.lt_of_le_of_lt hmore.length_le hm)
  | none =>
      simp only [hclass, Option.map_none] at h ⊢
      obtain ⟨⟨⟨s, depth⟩, middle⟩, hinner, h⟩ := Option.bind_eq_some_iff.1 h
      rcases openBracket_append f cs with hnil | ⟨first, hfirst, hmore, hopened⟩
      · simp [hnil] at hinner
      · rw [hfirst] at hinner
        obtain ⟨middle, rfl, hmiddle, hown⟩ := ih.enclosed hinner
        obtain ⟨rest, rfl, hsuffix, hown'⟩ := ih.enclosed h
        have hle := hmiddle.trans hmore
        refine ⟨rest, rfl, hsuffix.trans hle, fun m hm => ?_⟩
        simp only [hopened]
        rw [hown m (Nat.lt_of_le_of_lt hmore.length_le hm), Option.bind_some]
        exact hown' m (Nat.lt_of_le_of_lt hle.length_le hm)

theorem afterPiece_suffix (ih : ReadsMembers f n) {p : Piece} {c : Char} {rest : List Char}
    (hof : p.IsOf c cs) (h : afterPiece? f negated n k p = some (x, rest)) : rest <:+ cs := by
  cases p with
  | nothing => exact hof.elim
  | closing more =>
      obtain ⟨_, -, heq⟩ := Option.map_eq_some_iff.1 h
      cases heq
      exact hof
  | operator op more => exact (ih.suffix h).trans hof
  | opening more => exact (ih.nested_suffix h).trans hof
  | range ds =>
      obtain rfl : ds = c :: cs := hof
      obtain ⟨r, hr, h⟩ := Option.bind_eq_some_iff.1 h
      exact (ih.suffix h).trans (readRange?_suffix hr)

theorem afterPiece_enclosed (ih : ReadsMembers f n) {p : Piece} {c : Char} (hof : p.IsOf c cs)
    (h : afterPiece? f negated n k p.enclosed = some (x, left)) :
    ∃ rest, left = rest ++ [')'] ∧ rest <:+ cs ∧
      ∀ m, cs.length < m → afterPiece? f negated m k p = some (x, rest) := by
  cases p with
  | nothing => exact hof.elim
  | closing more =>
      obtain ⟨s, hs, heq⟩ := Option.map_eq_some_iff.1 h
      cases heq
      refine ⟨more, rfl, hof, fun m _ => ?_⟩
      rw [afterPiece?, hs, Option.map_some]
  | operator op more =>
      obtain ⟨rest, rfl, hrest, hmore⟩ := ih.enclosed h
      exact ⟨rest, rfl, hrest.trans hof, fun m hm =>
        hmore m (Nat.lt_of_le_of_lt hof.length_le hm)⟩
  | opening more =>
      obtain ⟨rest, rfl, hrest, hmore⟩ := ih.nested_enclosed h
      exact ⟨rest, rfl, hrest.trans hof, fun m hm =>
        hmore m (Nat.lt_of_le_of_lt hof.length_le hm)⟩
  | range ds =>
      obtain rfl : ds = c :: cs := hof
      obtain ⟨⟨s, middle⟩, hr, h⟩ := Option.bind_eq_some_iff.1 h
      rcases readRange?_append hr with rfl | rfl | ⟨middle, rfl, hrange⟩
      · -- Behind a single member that ends the text, the parenthesis would be another one.
        have hnone := readMembers?_paren f negated n (k.add s 0) (skipSpace_nil f)
        rw [List.nil_append] at hnone
        simp [hnone] at h
      · simp at h
      · have hmiddle := readRange?_suffix hrange
        obtain ⟨rest, rfl, hrest, hmore⟩ := ih.enclosed h
        refine ⟨rest, rfl, hrest.trans hmiddle, fun m hm => ?_⟩
        rw [afterPiece?, hrange, Option.bind_some]
        exact hmore m (Nat.lt_of_le_of_lt hmiddle.length_le hm)

theorem succ_suffix (ih : ReadsMembers f n) {rest : List Char}
    (h : readMembers? f negated (n + 1) k cs = some (x, rest)) : rest <:+ cs := by
  rw [readMembers?_succ] at h
  cases hskip : skipSpace f cs with
  | nil => simp [hskip, nextPiece, afterPiece?] at h
  | cons c tail =>
      rw [hskip] at h
      have hsuffix : c :: tail <:+ cs := hskip ▸ skipSpace_suffix f cs
      exact (ih.afterPiece_suffix (nextPiece_isOf c tail) h).trans
        ((List.suffix_cons c tail).trans hsuffix)

theorem succ_enclosed (ih : ReadsMembers f n)
    (h : readMembers? f negated (n + 1) k (cs ++ [')']) = some (x, left)) :
    ∃ rest, left = rest ++ [')'] ∧ rest <:+ cs ∧
      ∀ m, cs.length < m → readMembers? f negated m k cs = some (x, rest) := by
  cases hskip : skipSpace f cs with
  | nil => simp [readMembers?_paren f negated (n + 1) k hskip] at h
  | cons c tail =>
      have hsuffix : c :: tail <:+ cs := hskip ▸ skipSpace_suffix f cs
      rw [readMembers?_succ] at h
      rcases skipSpace_append f cs with hnil | ⟨_, heq, rfl⟩
      · simp [hnil, nextPiece, afterPiece?] at h
      · rw [heq, hskip, nextPiece_append] at h
        obtain ⟨rest, rfl, hrest, hown⟩ := ih.afterPiece_enclosed (nextPiece_isOf c tail) h
        refine ⟨rest, rfl, hrest.trans ((List.suffix_cons c tail).trans hsuffix), fun m hm => ?_⟩
        -- The round takes a character, so one round less is left for what comes after it.
        have hle := hsuffix.length_le
        rw [List.length_cons] at hle
        obtain ⟨m, rfl⟩ : ∃ m', m = m' + 1 := ⟨m - 1, by omega⟩
        rw [readMembers?_succ, hskip]
        exact hown m (by omega)

end ReadsMembers

theorem readsMembers (f : Flags) (n : Nat) : ReadsMembers f n := by
  induction n with
  | zero => exact ⟨by simp [readMembers?], by simp [readMembers?]⟩
  | succ n ih => exact ⟨ih.succ_suffix, ih.succ_enclosed⟩

/-- A class in brackets is read the same. -/
theorem reads_bracket (f : Flags) : Reads (readBracket? f) := by
  constructor
  · intro cs rest x h
    exact ((readsMembers f _).suffix h).trans (openBracket_suffix f _)
  · intro cs left x h
    unfold readBracket? at h ⊢
    simp only at h ⊢
    rcases openBracket_append f cs with hnil | ⟨first, hfirst, hmore, hopened⟩
    · simp [hnil] at h
    · rw [hfirst] at h
      obtain ⟨rest, rfl, -, hown⟩ := (readsMembers f _).enclosed h
      refine Or.inr ⟨rest, rfl, ?_⟩
      rw [hopened]
      exact hown _ (Nat.lt_succ_of_le hmore.length_le)

end SmallLang.Pattern
