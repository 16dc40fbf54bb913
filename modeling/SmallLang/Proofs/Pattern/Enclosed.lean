import SmallLang.Proofs.Pattern.Reads

/-!
# Parts of a pattern with a parenthesis behind them

The readers for the parts of a pattern do not notice that a closing parenthesis stands behind the
pattern, unless nothing is left after they have read it. There is one exception: what begins as the
name of a boundary of words, but has none, is left for the bounds of a repetition, and it depends on
the parenthesis which of them is tried (`Pattern.Stuck`). No bounds are read then.
-/

set_option autoImplicit false

namespace SmallLang.Pattern

variable {f : Flags} {cs : List Char}

/-- A closing brace has to come next. -/
theorem match_brace {β : Type} {next : List Char → List Char → Option β} (r : List Char × List Char) :
    (match r with
      | (name, '\x7d' :: rest) => next name rest
      | _ => none) = onSign '\x7d' (next r.1) (fun _ => none) r.2 := by
  obtain ⟨name, rest⟩ := r
  cases rest with
  | nil => rfl
  | cons c rest =>
      by_cases hc : c = '\x7d'
      · subst hc
        rfl
      · rw [onSign_of_ne hc]
        simp [hc]

theorem takeBraced?_bind {β : Type} {kind : Char → Bool} {next : List Char × List Char → Option β} :
    (takeBraced? f kind cs).bind next =
      onSign '\x7d' (fun rest => next ((takeSpaced f kind cs.length (skipSpace f cs)).1, rest))
        (fun _ => none) (takeSpaced f kind cs.length (skipSpace f cs)).2 := by
  rw [takeBraced?]
  cases (takeSpaced f kind cs.length (skipSpace f cs)).2 with
  | nil => rfl
  | cons c rest =>
      simp only [onSign]
      split <;> rfl

/-! ## Escapes -/

/-- The character whose code was written by digits alone. -/
def plainHex? (f : Flags) (digits : Nat) (code : List Char) : Option Char :=
  if code.length < digits then none
  else
    match hexChar? code with
    | some c => if digits = 2 ∧ f.alphabet = .ascii ∧ 0x80 ≤ c.toNat then none else some c
    | none => none

theorem reads_hex (f : Flags) (digits : Nat) : Reads (readHex? f digits) := by
  have hbraced : Reads fun cs => (takeBraced? f (· != '\x7d') cs).bind fun r =>
      (hexChar? r.1).map (·, skipSpace f r.2) :=
    (Reads.braced f _).bind fun code => (Reads.ofOption (hexChar? code) id).skipSpace f
  have hdigits : Reads fun cs => (some (takeSpaced f (fun c => (hexValue? c).isSome) digits cs)).bind
      fun r => (plainHex? f digits r.1).map (·, r.2) :=
    (Reads.takeSpaced f _ digits).bind fun code => Reads.ofOption _ id
  refine ((hbraced.sign hdigits (c := '\x7b') (by decide)).skipSpace f).of_eq fun cs => ?_
  unfold readHex?
  split
  · rename_i inner heq
    rw [heq, onSign_self, takeBraced?_bind]
    exact match_brace _
  · rename_i hbrace
    rw [onSign_of_forall hbrace, Option.bind_some, plainHex?]
    simp only
    split
    · rfl
    · cases hexChar? (takeSpaced f (fun c => (hexValue? c).isSome) digits (skipSpace f cs)).1 with
      | none => rfl
      | some c =>
          simp only
          split <;> rfl

/-- The characters with a property, if all scripts count. -/
def scriptClass? (f : Flags) (negated : Bool) (s : CharSet) : Option CharSet :=
  match f.alphabet with
  | .full => f.foldClass? negated s
  | .ascii => none

/-- The class for the name of a property, with what comes after the name. -/
def propertyClass? (f : Flags) (negated : Bool) (name : List Char) (rest : List Char) :
    Option (CharSet × List Char) :=
  (property? name).bind fun s =>
    match f.alphabet with
    | .full => (f.foldClass? negated s).map (·, rest)
    | .ascii => none

theorem propertyClass?_eq (f : Flags) (negated : Bool) (name rest : List Char) :
    propertyClass? f negated name rest =
      ((property? name).bind (scriptClass? f negated)).map (id ·, rest) := by
  unfold propertyClass? scriptClass?
  cases property? name with
  | none => rfl
  | some s => cases f.alphabet <;> rfl

theorem reads_property (f : Flags) (negated : Bool) : Reads (readProperty? f negated) := by
  have hname := ((Reads.braced f (· != '\x7d')).sign (Reads.cons fun c => Reads.done [c])
    (c := '\x7b') (by decide)).skipSpace f
  refine (hname.bind fun name =>
    Reads.ofOption ((property? name).bind (scriptClass? f negated)) id).of_eq fun cs => ?_
  simp only [← propertyClass?_eq]
  unfold readProperty?
  cases skipSpace f cs with
  | nil => rfl
  | cons c rest =>
      by_cases hc : c = '\x7b'
      · subst hc
        rw [onSign_self, takeBraced?_bind]
        exact match_brace _
      · rw [onSign_of_ne hc]
        simp only [Option.bind_eq_bind, Option.bind_some]
        rfl

/-- All escapes but the one for boundaries of words. -/
theorem reads_escape (f : Flags) {c : Char} (hc : c ≠ 'b') :
    Reads fun cs => readEscape? f (c :: cs) := by
  have hset : ∀ (o : Option CharSet), Reads fun cs => o.map (Escape.charSet ·, cs) :=
    fun o => Reads.ofOption o Escape.charSet
  unfold readEscape?
  simp only
  split
  · exact .done _
  · exact .done _
  · exact .done _
  · exact hset _
  · exact hset _
  · exact hset _
  · exact (reads_property f false).map Escape.charSet
  · exact (reads_property f true).map Escape.charSet
  · exact (reads_hex f 2).map Escape.literal
  · exact (reads_hex f 4).map Escape.literal
  · exact (reads_hex f 8).map Escape.literal
  · exact .done _
  · exact .done _
  · exact .done _
  · exact .done _
  · exact .done _
  · exact .done _
  · exact .done _
  · exact .done _
  · exact absurd rfl hc
  · exact .done _
  · exact .done _
  · exact .done _
  · split
    · exact .done _
    · exact .fail

/-- A brace before nothing but a closing parenthesis, with which no bounds begin. -/
def Stuck (f : Flags) (left : List Char) : Prop :=
  ∃ inner, left = '\x7b' :: inner ∧ skipSpace f inner = [')']

theorem takeSpaced_eq_of_nil {kind : Char → Bool} {n : Nat} {cs rest : List Char}
    (h : takeSpaced f kind n cs = ([], rest)) : rest = cs := by
  cases n with
  | zero => simpa using h.symm
  | succ n =>
      cases cs with
      | nil => simpa using h.symm
      | cons c cs =>
          rw [takeSpaced] at h
          split at h
          · simp at h
          · simpa using h.symm

theorem readBoundary?_suffix {rest : List Char} {edge : WordEdge}
    (h : readBoundary? f cs = some (edge, rest)) : rest <:+ cs := by
  unfold readBoundary? at h
  split at h
  · rename_i inner
    simp only at h
    split at h
    · cases h
      exact List.suffix_refl _
    · rename_i name more _ hrow
      have hsuffix := (Reads.between f fun c => c.isAlpha || c = '-').suffix (congrArg some hrow)
      obtain ⟨_, -, hrest⟩ := Option.map_eq_some_iff.1 h
      obtain rfl := (Prod.mk.inj hrest).2
      exact ((List.suffix_cons _ _).trans hsuffix).trans (List.suffix_cons _ _)
    · simp at h
  · cases h
    exact List.suffix_refl _

theorem readBoundary?_brace_enclosed {left : List Char} {edge : WordEdge}
    (h : readBoundary? f ('\x7b' :: (cs ++ [')'])) = some (edge, left)) :
    Leaves left (fun rest => readBoundary? f ('\x7b' :: cs) = some (edge, rest)) ∨ Stuck f left := by
  unfold readBoundary? at h ⊢
  simp only at h
  generalize hpair : takeSpaced f (fun c => c.isAlpha || c = '-') (cs ++ [')']).length
    (skipSpace f (cs ++ [')'])) = pair at h
  obtain ⟨name, more⟩ := pair
  rcases (Reads.between f fun c => c.isAlpha || c = '-').enclosed (congrArg some hpair) with
    rfl | ⟨rest, rfl, hown⟩
  · cases name <;> simp at h
  · simp only [Option.some.inj hown]
    rcases rest with _ | ⟨d, rest⟩
    · cases name with
      | nil =>
          -- Nothing but the parenthesis comes after the brace.
          cases h
          exact Or.inr ⟨_, rfl, (takeSpaced_eq_of_nil hpair).symm⟩
      | cons x name => simp at h
    · cases name with
      | nil =>
          cases h
          exact Or.inl (Or.inr ⟨'\x7b' :: cs, rfl, rfl⟩)
      | cons x name =>
          by_cases hd : d = '\x7d'
          · subst hd
            obtain ⟨edge', hedge, heq⟩ := Option.map_eq_some_iff.1 h
            cases heq
            refine Or.inl (Or.inr ⟨rest, rfl, ?_⟩)
            simp only [hedge, Option.map_some]
          · simp [hd] at h

/-- The name of a boundary is read the same, unless the brace stands before the parenthesis. -/
theorem readBoundary?_enclosed {left : List Char} {edge : WordEdge}
    (h : readBoundary? f (cs ++ [')']) = some (edge, left)) :
    Leaves left (fun rest => readBoundary? f cs = some (edge, rest)) ∨ Stuck f left := by
  cases cs with
  | nil =>
      cases h
      exact Or.inl (Or.inr ⟨[], rfl, rfl⟩)
  | cons c inner =>
      by_cases hc : c = '\x7b'
      · subst hc
        exact readBoundary?_brace_enclosed h
      · have hall : ∀ rest, readBoundary? f (c :: rest) = some (.boundary, c :: rest) := by
          intro rest
          simp [readBoundary?, hc]
        rw [List.cons_append, hall] at h
        cases h
        exact Or.inl (Or.inr ⟨c :: inner, rfl, hall inner⟩)

/-- An escape is read the same, unless it is a boundary and the brace after it stands before the
parenthesis. -/
theorem readEscape?_enclosed {left : List Char} {e : Escape}
    (h : readEscape? f (cs ++ [')']) = some (e, left)) :
    Leaves left (fun rest => readEscape? f cs = some (e, rest)) ∨
      (∃ a, e = .anchor a) ∧ Stuck f left := by
  cases cs with
  | nil =>
      have hpar : (')' : Char) ≠ 'b' := by decide
      exact Or.inl ((reads_escape f hpar).leaves_of_nil h _)
  | cons c cs =>
      by_cases hc : c = 'b'
      · subst hc
        obtain ⟨⟨edge, rest⟩, hedge, heq⟩ := Option.map_eq_some_iff.1 h
        cases heq
        rcases readBoundary?_enclosed hedge with hleaves | hstuck
        · refine Or.inl (hleaves.mono fun rest hrest => ?_)
          simp only [readEscape?, hrest, Option.map_some]
        · exact Or.inr ⟨⟨_, rfl⟩, hstuck⟩
      · exact Or.inl ((reads_escape f hc).enclosed h)

theorem readEscape?_suffix {rest : List Char} {e : Escape} (h : readEscape? f cs = some (e, rest)) :
    rest <:+ cs := by
  cases cs with
  | nil => simp [readEscape?] at h
  | cons c cs =>
      refine List.IsSuffix.trans ?_ (List.suffix_cons c cs)
      by_cases hc : c = 'b'
      · subst hc
        obtain ⟨⟨edge, rest⟩, hedge, heq⟩ := Option.map_eq_some_iff.1 h
        cases heq
        exact readBoundary?_suffix hedge
      · exact (reads_escape f hc).suffix h

/-! ## Bounds of repetitions -/

/-- The count that some digits stand for. -/
def count? (digits : List Char) : Option Nat :=
  match Text.readNatural? digits with
  | some n => if n ≤ maxCount then some n else none
  | none => none

theorem reads_count (f : Flags) : Reads (readCount? f) := by
  have hdigits := ((Reads.row f Char.isDigit).bind fun digits =>
    (Reads.ofOption (count? digits) id).dropBlanks).dropBlanks
  refine hdigits.of_eq fun cs => ?_
  rw [Option.bind_some]
  unfold readCount? count?
  simp only
  generalize takeSpaced f Char.isDigit (cs.dropWhile Text.isBlank).length
    (cs.dropWhile Text.isBlank) = row
  cases Text.readNatural? row.1 with
  | none => rfl
  | some n =>
      simp only
      split <;> rfl

/-- The second bound and the brace behind it. -/
def upperBound? (f : Flags) (least : Nat) (cs : List Char) :
    Option ((Nat × Option Nat) × List Char) :=
  (readCount? f cs).bind fun r =>
    onSign '\x7d'
      (fun rest => (if least ≤ r.1 then some (least, some r.1) else none).map fun b => (id b, rest))
      (fun _ => none) r.2

theorem reads_upperBound (f : Flags) (least : Nat) : Reads (upperBound? f least) :=
  (reads_count f).bind fun most =>
    (Reads.ofOption (if least ≤ most then some (least, some most) else none) id).sign Reads.fail
      (c := '\x7d') (by decide)

theorem reads_bounds (f : Flags) : Reads (readBounds? f) := by
  have hbounds := ((reads_count f).skipSpace f).bind fun least =>
    (Reads.done (least, some least)).sign
      ((((Reads.done (least, (none : Option Nat))).sign (reads_upperBound f least)
        (c := '\x7d') (by decide)).skipSpace f).sign Reads.fail (c := ',') (by decide))
      (c := '\x7d') (by decide)
  refine hbounds.of_eq fun cs => ?_
  unfold readBounds?
  cases readCount? f (skipSpace f cs) with
  | none => rfl
  | some r =>
      obtain ⟨least, rest⟩ := r
      simp only [Option.bind_eq_bind, Option.bind_some]
      split
      · rw [onSign_self]
      · have hcomma : (',' : Char) ≠ '\x7d' := by decide
        rw [onSign_of_ne hcomma, onSign_self]
        split
        · rename_i heq
          rw [heq, onSign_self]
        · rename_i hbrace
          rw [onSign_of_forall hbrace, upperBound?]
          rcases readCount? f _ with _ | ⟨most, rest⟩
          · rfl
          · simp only [Option.bind_some]
            split
            · rw [onSign_self]
              split <;> rfl
            · rename_i hbrace
              rw [onSign_of_forall hbrace]
      · rename_i hbrace hcomma
        rw [onSign_of_forall hbrace, onSign_of_forall hcomma]

/-! ## Starts of groups -/

/-- What stands before a sign and what comes from the sign on, if there is one. -/
theorem takeWhile_enclosed {p : Char → Bool} (hp : p ')' = true) (cs : List Char) :
    (cs.drop (cs.takeWhile p).length = [] ∧
        (cs ++ [')']).drop ((cs ++ [')']).takeWhile p).length = []) ∨
      (cs ++ [')']).takeWhile p = cs.takeWhile p ∧
        (cs ++ [')']).drop (cs.takeWhile p).length = cs.drop (cs.takeWhile p).length ++ [')'] := by
  rw [List.takeWhile_append]
  split
  · rename_i hall
    exact Or.inl ⟨by simp [hall], by simp [hp]⟩
  · exact Or.inr ⟨rfl, List.drop_append_of_le_length (List.takeWhile_prefix p).length_le⟩

theorem reads_name : Reads readName? := by
  constructor
  · intro cs rest x h
    unfold readName? at h
    simp only at h
    split at h
    · rename_i heq _
      split at h
      · cases h
        have hsuffix := List.drop_suffix (cs.takeWhile (· != '>')).length cs
        rw [heq] at hsuffix
        exact (List.suffix_cons _ _).trans hsuffix
      · simp at h
    · simp at h
  · intro cs left x h
    unfold readName? at h ⊢
    simp only at h ⊢
    -- A parenthesis closes no name, so with it and without it the name ends at the same place.
    rcases takeWhile_enclosed (p := (· != '>')) (by decide) cs with ⟨-, hnil⟩ | ⟨hname, hdrop⟩
    · rw [hnil] at h
      simp at h
    · rw [hname, hdrop] at h
      generalize cs.drop (cs.takeWhile (· != '>')).length = body at h ⊢
      generalize cs.takeWhile (· != '>') = name at h ⊢
      cases name with
      | nil => simp at h
      | cons c more =>
          cases body with
          | nil =>
              simp only [List.nil_append] at h
              split at h
              · exact Or.inl (Prod.mk.inj (Option.some.inj h)).2.symm
              · simp at h
          | cons d rest =>
              simp only [List.cons_append] at h ⊢
              split at h
              · rename_i hvalid
                obtain ⟨rfl, rfl⟩ := Prod.mk.inj (Option.some.inj h)
                exact Or.inr ⟨rest, rfl, if_pos hvalid⟩
              · simp at h

theorem flags_read_suffix {seen : List Char} {on dangling : Bool} {g : Flags} {c : Char} {any : Bool}
    {rest : List Char} (h : f.read seen on dangling cs = some (g, c, any, rest)) : rest <:+ cs := by
  induction cs generalizing f seen on dangling with
  | nil => simp [Flags.read] at h
  | cons d cs ih =>
      refine List.IsSuffix.trans ?_ (List.suffix_cons d cs)
      rw [Flags.read] at h
      split at h
      · split at h
        · simp at h
        · cases h
          exact List.suffix_refl _
      · split at h
        · split at h
          · exact ih h
          · simp at h
        · split at h
          · simp at h
          · split at h
            · exact ih h
            · simp at h

theorem flags_read_enclosed {seen : List Char} {on dangling : Bool} {g : Flags} {c : Char} {any : Bool}
    {left : List Char} (h : f.read seen on dangling (cs ++ [')']) = some (g, c, any, left)) :
    Leaves left fun rest => f.read seen on dangling cs = some (g, c, any, rest) := by
  induction cs generalizing f seen on dangling with
  | nil =>
      -- The parenthesis ends the letters.
      refine Or.inl ?_
      rw [List.nil_append, Flags.read, if_pos (by simp)] at h
      split at h
      · simp at h
      · cases h
        rfl
  | cons d cs ih =>
      rw [List.cons_append, Flags.read] at h
      rw [Flags.read]
      split at h
      · rename_i hend
        rw [if_pos hend]
        split at h
        · simp at h
        · rename_i hdangling
          cases h
          exact Or.inr ⟨cs, rfl, if_neg hdangling⟩
      · rename_i hend
        rw [if_neg hend]
        split at h
        · rename_i hminus
          rw [if_pos hminus]
          split at h
          · rename_i hon
            rw [if_pos hon]
            exact ih h
          · simp at h
        · rename_i hminus
          rw [if_neg hminus]
          split at h
          · simp at h
          · rename_i hseen
            rw [if_neg hseen]
            split at h
            · exact ih h
            · simp at h

/-- How a group begins that changes the settings, by the sign at their end and whether any were
read. -/
def settingsStart? (g : Flags) (c : Char) (any : Bool) : Option GroupStart :=
  if c = ':' then some (.plain g) else if any then some (.settings g) else none

theorem reads_settings (f : Flags) : Reads fun cs => (f.read [] true false cs).bind fun r =>
    (settingsStart? r.1 r.2.1 r.2.2.1).map (·, r.2.2.2) := by
  constructor
  · intro cs rest x h
    obtain ⟨⟨g, c, any, left⟩, hread, h⟩ := Option.bind_eq_some_iff.1 h
    obtain ⟨_, -, heq⟩ := Option.map_eq_some_iff.1 h
    cases heq
    exact flags_read_suffix hread
  · intro cs left x h
    obtain ⟨⟨g, c, any, middle⟩, hread, h⟩ := Option.bind_eq_some_iff.1 h
    obtain ⟨start, hstart, heq⟩ := Option.map_eq_some_iff.1 h
    cases heq
    refine (flags_read_enclosed hread).mono fun rest hrest => ?_
    simp only [hrest, Option.bind_some, hstart, Option.map_some]

theorem reads_group (f : Flags) : Reads (readGroup? f) := by
  have hnamed := reads_name.map fun name => GroupStart.numbered (some name)
  have hmarked := hnamed.sign ((hnamed.sign Reads.fail (c := '<') (by decide)).sign (reads_settings f)
    (c := 'P') (by decide)) (c := '<') (by decide)
  refine ((hmarked.sign (Reads.done (GroupStart.numbered none)) (c := '?') (by decide)).skipSpace
    f).of_eq fun cs => ?_
  unfold readGroup?
  simp only
  split
  · rename_i heq
    rw [heq, onSign_self, onSign_of_ne (by decide), onSign_self, onSign_self]
  · rename_i heq
    rw [heq, onSign_self, onSign_self]
  · rename_i rest hP hless heq
    rw [heq, onSign_self, onSign_of_forall hless]
    by_cases hletter : ∃ more, rest = 'P' :: more
    · -- There is no setting of that letter.
      obtain ⟨more, rfl⟩ := hletter
      rw [onSign_self, onSign_of_forall fun others hothers => hP others (hothers ▸ rfl)]
      simp [Flags.read, Flags.set]
    · rw [onSign_of_forall fun more hmore => hletter ⟨more, hmore⟩]
      cases f.read [] true false rest with
      | none => rfl
      | some r =>
          obtain ⟨g, c, any, more⟩ := r
          by_cases hc : c = ':'
          · subst hc
            rfl
          · cases any <;> simp [settingsStart?, hc]
  · rename_i hmark
    rw [onSign_of_forall hmark]

end SmallLang.Pattern
