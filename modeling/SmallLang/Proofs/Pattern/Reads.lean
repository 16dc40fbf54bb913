import SmallLang.Pattern.Read

/-!
# Readers of parts of a pattern

A part of a pattern is read by a function that takes a piece from the start of a text and leaves the
rest. The text of a pattern may be put into a group, so that a closing parenthesis stands behind it.
`Pattern.Reads` says that such a function reads the same then, unless it takes the parenthesis as
well. It is kept by the ways in which readers are put together: one after the other, with blanks and
comments passed over, or chosen by the next character.

Blanks and comments themselves may take the parenthesis: a comment goes to the end of the line.
-/

set_option autoImplicit false

namespace SmallLang.Pattern

open List (IsSuffix)

variable {f : Flags} {cs : List Char}

/-! ## What is left -/

/-- What is left of a text with a closing parenthesis at its end: nothing, or the parenthesis after
something that could be left of the text alone. -/
def Leaves (left : List Char) (alone : List Char → Prop) : Prop :=
  left = [] ∨ ∃ rest, left = rest ++ [')'] ∧ alone rest

theorem Leaves.mono {left : List Char} {alone alone' : List Char → Prop} (h : Leaves left alone)
    (himp : ∀ rest, alone rest → alone' rest) : Leaves left alone' :=
  h.imp_right fun ⟨rest, heq, hrest⟩ => ⟨rest, heq, himp rest hrest⟩

/-! ## Blanks and comments -/

theorem isBlank_paren : Text.isBlank ')' = false := by decide +kernel

theorem dropWhile_isBlank_append (cs : List Char) :
    (cs ++ [')']).dropWhile Text.isBlank = cs.dropWhile Text.isBlank ++ [')'] := by
  rw [List.dropWhile_append]
  split
  · rename_i hnil
    simp [List.isEmpty_iff.1 hnil, isBlank_paren]
  · rfl

theorem dropComment_suffix (cs : List Char) : dropComment cs <:+ cs :=
  (List.drop_suffix 1 _).trans (List.dropWhile_suffix _)

theorem dropComment_append (cs : List Char) :
    Leaves (dropComment (cs ++ [')'])) (· = dropComment cs) := by
  induction cs with
  | nil => exact Or.inl rfl
  | cons c cs ih =>
      by_cases hc : c = '\n'
      · subst hc
        exact Or.inr ⟨cs, rfl, rfl⟩
      · have hdrop : ∀ rest, dropComment (c :: rest) = dropComment rest := fun rest => by
          simp [dropComment, hc]
        rw [List.cons_append, hdrop, hdrop]
        exact ih

theorem go_suffix (n : Nat) (cs : List Char) : skipSpace.go n cs <:+ cs := by
  induction n generalizing cs with
  | zero => exact List.suffix_refl cs
  | succ n ih =>
      cases cs with
      | nil => exact List.suffix_refl []
      | cons c cs =>
          rw [skipSpace.go]
          split
          · exact (ih cs).trans (List.suffix_cons c cs)
          · split
            · exact ((ih _).trans (dropComment_suffix cs)).trans (List.suffix_cons c cs)
            · exact List.suffix_refl _

/-- As many rounds as there are characters are enough. -/
theorem go_succ {n : Nat} (h : cs.length ≤ n) : skipSpace.go (n + 1) cs = skipSpace.go n cs := by
  induction n generalizing cs with
  | zero =>
      obtain rfl := List.length_eq_zero_iff.1 (Nat.le_zero.1 h)
      rfl
  | succ n ih =>
      cases cs with
      | nil => rfl
      | cons c cs =>
          have hle : cs.length ≤ n := Nat.le_of_succ_le_succ h
          have hcomment := Nat.le_trans (dropComment_suffix cs).length_le hle
          rw [skipSpace.go, skipSpace.go, ih hle, ih hcomment]

theorem go_append (n : Nat) (cs : List Char) :
    Leaves (skipSpace.go n (cs ++ [')'])) (· = skipSpace.go n cs) := by
  induction n generalizing cs with
  | zero => exact Or.inr ⟨cs, rfl, rfl⟩
  | succ n ih =>
      cases cs with
      | nil =>
          exact Or.inr ⟨[], by simp [skipSpace.go, isBlank_paren], rfl⟩
      | cons c cs =>
          rw [List.cons_append, skipSpace.go, skipSpace.go]
          split
          · exact ih cs
          · split
            · rcases dropComment_append cs with hnil | ⟨_, heq, rfl⟩
              · -- The comment takes the parenthesis.
                rw [hnil]
                exact Or.inl (List.suffix_nil.1 (go_suffix n []))
              · rw [heq]
                exact ih _
            · exact Or.inr ⟨c :: cs, rfl, rfl⟩

theorem skipSpace_suffix (f : Flags) (cs : List Char) : skipSpace f cs <:+ cs := by
  unfold skipSpace
  split
  · exact go_suffix _ cs
  · exact List.suffix_refl cs

theorem skipSpace_append (f : Flags) (cs : List Char) :
    Leaves (skipSpace f (cs ++ [')'])) (· = skipSpace f cs) := by
  unfold skipSpace
  split
  · rw [List.length_append, List.length_singleton]
    rcases go_append (cs.length + 1) cs with hnil | ⟨_, heq, rfl⟩
    · exact Or.inl hnil
    · exact Or.inr ⟨_, heq, go_succ (Nat.le_refl _)⟩
  · exact Or.inr ⟨cs, rfl, rfl⟩

theorem skipSpace_cons {c : Char} (hblank : Text.isBlank c = false) (hcomment : c ≠ '#') :
    skipSpace f (c :: cs) = c :: cs := by
  unfold skipSpace
  split
  · simp [skipSpace.go, hblank, hcomment]
  · rfl

@[simp] theorem skipSpace_nil (f : Flags) : skipSpace f [] = [] :=
  List.suffix_nil.1 (skipSpace_suffix f [])

/-! ## Rows of characters of a kind -/

variable {kind : Char → Bool}

@[simp] theorem takeSpaced_zero (cs : List Char) : takeSpaced f kind 0 cs = ([], cs) := by
  cases cs <;> rfl

@[simp] theorem takeSpaced_nil (n : Nat) : takeSpaced f kind n [] = ([], []) := by
  cases n <;> rfl

theorem takeSpaced_suffix (f : Flags) (kind : Char → Bool) (n : Nat) (cs : List Char) :
    (takeSpaced f kind n cs).2 <:+ cs := by
  induction n generalizing cs with
  | zero =>
      have hzero : takeSpaced f kind 0 cs = ([], cs) := takeSpaced_zero cs
      exact hzero ▸ List.suffix_refl cs
  | succ n ih =>
      cases cs with
      | nil => exact List.suffix_refl []
      | cons c cs =>
          rw [takeSpaced]
          split
          · exact ((ih _).trans (skipSpace_suffix f cs)).trans (List.suffix_cons c cs)
          · exact List.suffix_refl _

theorem takeSpaced_succ {n : Nat} (h : cs.length ≤ n) :
    takeSpaced f kind (n + 1) cs = takeSpaced f kind n cs := by
  induction n generalizing cs with
  | zero =>
      obtain rfl := List.length_eq_zero_iff.1 (Nat.le_zero.1 h)
      rfl
  | succ n ih =>
      cases cs with
      | nil => rfl
      | cons c cs =>
          have hle := Nat.le_trans (skipSpace_suffix f cs).length_le (Nat.le_of_succ_le_succ h)
          rw [takeSpaced, takeSpaced, ih hle]

theorem takeSpaced_append (f : Flags) (kind : Char → Bool) (n : Nat) (cs : List Char) :
    Leaves (takeSpaced f kind n (cs ++ [')'])).2 fun rest =>
      takeSpaced f kind n cs = ((takeSpaced f kind n (cs ++ [')'])).1, rest) := by
  induction n generalizing cs with
  | zero => exact Or.inr ⟨cs, by simp, by simp⟩
  | succ n ih =>
      cases cs with
      | nil =>
          by_cases hkind : kind ')' = true
          · exact Or.inl (by simp [takeSpaced, hkind])
          · exact Or.inr ⟨[], by simp [takeSpaced, hkind], by simp [takeSpaced, hkind]⟩
      | cons c cs =>
          rw [List.cons_append, takeSpaced, takeSpaced]
          split
          · rcases skipSpace_append f cs with hnil | ⟨_, heq, rfl⟩
            · rw [hnil]
              exact Or.inl (by simp)
            · rw [heq]
              refine (ih (skipSpace f cs)).mono fun rest hrest => ?_
              rw [hrest]
          · exact Or.inr ⟨c :: cs, rfl, rfl⟩

theorem takeSpaced_of_le {n : Nat} (h : cs.length ≤ n) :
    takeSpaced f kind n cs = takeSpaced f kind cs.length cs := by
  induction n with
  | zero => rw [Nat.le_zero.1 h]
  | succ n ih =>
      rcases Nat.lt_or_eq_of_le h with hlt | heq
      · rw [takeSpaced_succ (Nat.le_of_lt_succ hlt), ih (Nat.le_of_lt_succ hlt)]
      · rw [heq]

/-! ## Signs -/

section

variable {α : Type} {c : Char} {read other : List Char → α}

/-- Goes on in one way behind a sign, and in another way where the sign does not stand. -/
def onSign (c : Char) (read other : List Char → α) : List Char → α
  | [] => other []
  | d :: cs => if d = c then read cs else other (d :: cs)

@[simp] theorem onSign_nil : onSign c read other [] = other [] := rfl

@[simp] theorem onSign_self (cs : List Char) : onSign c read other (c :: cs) = read cs := if_pos rfl

theorem onSign_of_ne {d : Char} (h : d ≠ c) (cs : List Char) :
    onSign c read other (d :: cs) = other (d :: cs) := if_neg h

/-- Where both ways leave an end of the text, so does the choice between them. -/
theorem onSign_suffix {β : Type} {read other : List Char → Option (β × List Char)}
    (h : ∀ {cs rest x}, read cs = some (x, rest) → rest <:+ cs)
    (hother : ∀ {cs rest x}, other cs = some (x, rest) → rest <:+ cs) {cs rest : List Char} {x : β}
    (hx : onSign c read other cs = some (x, rest)) : rest <:+ cs := by
  cases cs with
  | nil => exact hother hx
  | cons d cs =>
      rw [onSign] at hx
      split at hx
      · exact (h hx).trans (List.suffix_cons d cs)
      · exact hother hx

theorem onSign_of_forall {cs : List Char} (h : ∀ rest, cs = c :: rest → False) :
    onSign c read other cs = other cs := by
  cases cs with
  | nil => rfl
  | cons d cs =>
      refine onSign_of_ne ?_ cs
      rintro rfl
      exact h cs rfl

end

/-- What stands between braces, the opening one of which was read, and what comes after them. -/
def takeBraced? (f : Flags) (kind : Char → Bool) (cs : List Char) : Option (List Char × List Char) :=
  let row := takeSpaced f kind cs.length (skipSpace f cs)
  onSign '\x7d' (fun rest => some (row.1, rest)) (fun _ => none) row.2

/-! ## Readers of parts -/

/-- A reader leaves an end of the text. With a closing parenthesis at the end of the text it reads
the same, unless nothing is left. -/
structure Reads {α : Type} (read : List Char → Option (α × List Char)) : Prop where
  suffix {cs rest : List Char} {x : α} (h : read cs = some (x, rest)) : rest <:+ cs
  enclosed {cs left : List Char} {x : α} (h : read (cs ++ [')']) = some (x, left)) :
    Leaves left fun rest => read cs = some (x, rest)

namespace Reads

variable {α β : Type} {read : List Char → Option (α × List Char)}

/-- Where nothing is left to be read, nothing is left after it. -/
theorem leaves_of_nil (h : Reads read) {left : List Char} {x : α} (hread : read [] = some (x, left))
    (alone : List Char → Prop) : Leaves left alone :=
  Or.inl (List.suffix_nil.1 (h.suffix hread))

theorem fail : Reads fun _ => (none : Option (α × List Char)) :=
  ⟨by simp, by simp⟩

theorem done (x : α) : Reads fun cs => some (x, cs) := by
  constructor
  · rintro cs rest y ⟨⟩
    exact List.suffix_refl cs
  · rintro cs left y ⟨⟩
    exact Or.inr ⟨cs, rfl, rfl⟩

theorem ofOption (o : Option β) (g : β → α) : Reads fun cs => o.map fun y => (g y, cs) := by
  cases o with
  | none => exact fail
  | some y => exact done (g y)

theorem bind (h : Reads read) {next : α → List Char → Option (β × List Char)}
    (hnext : ∀ x, Reads (next x)) : Reads fun cs => (read cs).bind fun r => next r.1 r.2 := by
  constructor
  · intro cs rest y hy
    obtain ⟨⟨x, middle⟩, hx, hy⟩ := Option.bind_eq_some_iff.1 hy
    exact ((hnext x).suffix hy).trans (h.suffix hx)
  · intro cs left y hy
    obtain ⟨⟨x, middle⟩, hx, hy⟩ := Option.bind_eq_some_iff.1 hy
    rcases h.enclosed hx with rfl | ⟨middle, rfl, hown⟩
    · exact (hnext x).leaves_of_nil hy _
    · refine ((hnext x).enclosed hy).mono fun rest hrest => ?_
      rw [hown]
      exact hrest

theorem map (h : Reads read) (g : α → β) : Reads fun cs => (read cs).map fun r => (g r.1, r.2) := by
  have hmap := h.bind fun x => done (g x)
  simpa only [Option.map_eq_bind, Function.comp_def] using hmap

/-- Blanks are passed over first. -/
theorem skipSpace (h : Reads read) (f : Flags) : Reads fun cs => read (skipSpace f cs) := by
  constructor
  · intro cs rest x hx
    exact (h.suffix hx).trans (skipSpace_suffix f cs)
  · intro cs left x hx
    rcases skipSpace_append f cs with hnil | ⟨_, heq, rfl⟩
    · rw [hnil] at hx
      exact h.leaves_of_nil hx _
    · rw [heq] at hx
      exact h.enclosed hx

/-- Only blanks are passed over first. -/
theorem dropBlanks (h : Reads read) : Reads fun cs => read (cs.dropWhile Text.isBlank) := by
  constructor
  · intro cs rest x hx
    exact (h.suffix hx).trans (List.dropWhile_suffix _)
  · intro cs left x hx
    rw [dropWhile_isBlank_append] at hx
    exact h.enclosed hx

/-- The first character decides how to go on. -/
theorem cons {next : Char → List Char → Option (α × List Char)} (h : ∀ c, Reads (next c)) :
    Reads fun | [] => none | c :: cs => next c cs := by
  constructor
  · intro cs rest x hx
    cases cs with
    | nil => simp at hx
    | cons c cs => exact ((h c).suffix hx).trans (List.suffix_cons c cs)
  · intro cs left x hx
    cases cs with
    | nil => exact (h ')').leaves_of_nil hx _
    | cons c cs => exact (h c).enclosed hx

/-- A sign, or else something that begins at the same place. -/
theorem sign {other : List Char → Option (α × List Char)} (h : Reads read) (hother : Reads other)
    {c : Char} (hc : c ≠ ')') : Reads (onSign c read other) := by
  constructor
  · exact onSign_suffix h.suffix hother.suffix
  · intro cs left x hx
    cases cs with
    | nil =>
        -- The sign is not the parenthesis.
        rw [List.nil_append, onSign_of_ne hc.symm] at hx
        exact hother.enclosed hx
    | cons d cs =>
        rw [List.cons_append, onSign] at hx
        rw [show onSign c read other (d :: cs) = if d = c then read cs else other (d :: cs) from rfl]
        split at hx
        · rename_i hd
          rw [if_pos hd]
          exact h.enclosed hx
        · rename_i hd
          rw [if_neg hd]
          exact hother.enclosed hx

/-- So many characters of a kind. -/
theorem takeSpaced (f : Flags) (kind : Char → Bool) (n : Nat) :
    Reads fun cs => some (takeSpaced f kind n cs) := by
  constructor
  · intro cs rest x hx
    have hsuffix := takeSpaced_suffix f kind n cs
    rwa [Option.some.inj hx] at hsuffix
  · intro cs left x hx
    have hleaves := takeSpaced_append f kind n cs
    rw [Option.some.inj hx] at hleaves
    exact hleaves.mono fun rest hrest => congrArg some hrest

/-- As many characters of a kind as there are. -/
theorem row (f : Flags) (kind : Char → Bool) :
    Reads fun cs => some (Pattern.takeSpaced f kind cs.length cs) := by
  constructor
  · intro cs rest x hx
    have hsuffix := takeSpaced_suffix f kind cs.length cs
    rwa [Option.some.inj hx] at hsuffix
  · intro cs left x hx
    have hleaves := takeSpaced_append f kind (cs ++ [')']).length cs
    rw [Option.some.inj hx, takeSpaced_of_le (by simp)] at hleaves
    exact hleaves.mono fun rest hrest => congrArg some hrest

theorem of_eq {read' : List Char → Option (α × List Char)} (h : Reads read)
    (heq : ∀ cs, read' cs = read cs) : Reads read' := funext heq ▸ h

/-- A sign that has to come next. -/
theorem expect (x : α) {c : Char} (hc : c ≠ ')') :
    Reads (onSign c (fun rest => some (x, rest)) fun _ => none) := (done x).sign fail hc

/-- As many characters of a kind as there are, after blanks. -/
theorem between (f : Flags) (kind : Char → Bool) :
    Reads fun cs => some (Pattern.takeSpaced f kind cs.length (Pattern.skipSpace f cs)) :=
  ((row f kind).skipSpace f).of_eq fun cs => by rw [takeSpaced_of_le (skipSpace_suffix f cs).length_le]

/-- What stands between braces, the opening one of which was read. -/
theorem braced (f : Flags) (kind : Char → Bool) : Reads (takeBraced? f kind) :=
  (between f kind).bind fun name => expect name (c := '\x7d') (by decide)

end Reads

end SmallLang.Pattern
