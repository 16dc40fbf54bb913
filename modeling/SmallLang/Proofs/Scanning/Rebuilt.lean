import SmallLang.Proofs.Parsing.Alike
import SmallLang.Proofs.Scanning.Winner

/-!
# Rebuilding tokens by name

A token that does not come from a text is made from the name of a terminal. Literals and classes share
the names, and a class is found first. So a literal whose text is the name of a class is hidden by it
(`Arena.hides`): its tokens cannot be made by name. Every other token of a text is made again from the name
of its terminal and its own text, with the same value. If no token of a text is of a hidden literal, the
tokens made by name parse to what the text parses to (`Language.rebuild_tokens`).
-/

set_option autoImplicit false

namespace SmallLang

open List (Forall₂)

/-! ## Names of terminals -/

namespace Arena

variable {a : Arena} {i j : Nat} {t : Terminal}

/-- A class has the name of the literal, so the literal is not found by it. -/
def hides (a : Arena) : Terminal → Bool
  | .literal text => a.terminals.any (·.isClassNamed text)
  | .ofClass _ => false

/-- The terminal at the number that a search finds. -/
theorem exists_of_findIdx? {p : Terminal → Bool} (h : a.terminals.findIdx? p = some i) :
    ∃ t, a.get? i = some t ∧ p t = true := by
  obtain ⟨hi, hp, -⟩ := List.findIdx?_eq_some_iff_getElem.1 h
  exact ⟨_, List.getElem?_eq_getElem hi, hp⟩

theorem exists_findIdx? {p : Terminal → Bool} (hi : a.get? i = some t) (hp : p t = true) :
    ∃ j, a.terminals.findIdx? p = some j := by
  refine Option.isSome_iff_exists.1 ?_
  rw [List.findIdx?_isSome, List.any_eq_true]
  exact ⟨t, List.mem_of_getElem? hi, hp⟩

/-- A class and a literal that is not hidden are found by their name. -/
theorem find?_name (ha : a.Keyed) (hi : a.get? i = some t) (hhides : a.hides t = false) :
    a.find? t.name = some i := by
  cases t with
  | ofClass c =>
      -- The class itself has its name, so the search finds a class of the same key.
      obtain ⟨j, hj⟩ := exists_findIdx? (p := (·.isClassNamed c.name)) hi (beq_self_eq_true c.name)
      obtain ⟨s, hs, hkey⟩ := exists_of_findIdx? hj
      have hsame : s.sameKey (.ofClass c) = true := by
        cases s with
        | literal text => exact absurd hkey Bool.false_ne_true
        | ofClass d => exact hkey
      rw [find?, Terminal.name, hj, Option.some_or, ha.eq_of_sameKey hs hi hsame]
  | literal text =>
      -- No class has the name, so it is looked for among the literals.
      have hnone : a.terminals.findIdx? (·.isClassNamed text) = none := by
        rw [List.findIdx?_eq_none_iff]
        intro s hs
        exact Bool.eq_false_iff.2 fun hkey => Bool.false_ne_true <|
          hhides.symm.trans (List.any_eq_true.2 ⟨s, hs, hkey⟩)
      obtain ⟨j, hj⟩ := exists_findIdx? (p := (· = Terminal.literal text)) hi (decide_eq_true rfl)
      obtain ⟨s, hs, hkey⟩ := exists_of_findIdx? hj
      obtain rfl := of_decide_eq_true hkey
      rw [find?, Terminal.name, hnone, Option.none_or, hj,
        ha.eq_of_sameKey hs hi (beq_self_eq_true text)]

/-- By the name of a hidden literal the class is found. -/
theorem find?_ne_of_hides (hi : a.get? i = some t) (hhides : a.hides t = true) :
    a.find? t.name ≠ some i := by
  cases t with
  | ofClass c => exact absurd hhides Bool.false_ne_true
  | literal text =>
      obtain ⟨s, hs, hnamed⟩ := List.any_eq_true.1 hhides
      obtain ⟨k, hk⟩ := List.getElem?_of_mem hs
      obtain ⟨j, hj⟩ := exists_findIdx? (p := (·.isClassNamed text)) hk hnamed
      obtain ⟨u, hu, hkey⟩ := exists_of_findIdx? hj
      rw [find?, Terminal.name, hj, Option.some_or]
      -- What is found is a class, and the terminal is a literal.
      intro heq
      obtain rfl := Option.some.inj heq
      obtain rfl := Option.some.inj (hu.symm.trans hi)
      exact absurd hkey Bool.false_ne_true

end Arena

/-- The value of a text does not depend on its place. -/
theorem Terminal.decode_place {t : Terminal} {text : String} {position : Position} {v : Value}
    (h : t.decode text position = .ok v) (other : Position) : t.decode text other = .ok v := by
  cases t with
  | literal _ => exact h
  | ofClass c =>
      rw [decode] at h ⊢
      cases hv : c.decoder.decode text with
      | none => simp [hv] at h
      | some w => simpa [hv] using h

/-! ## Tokens by name -/

/-- The token without its place in a text. -/
def Token.outside (t : Token) : Token := { t with position := Position.outside }

/-- A token without its place is alike. -/
theorem Token.alike_outside (t : Token) : t.Alike t.outside := ⟨rfl, rfl⟩

namespace Language

/-- A token made again, from the name of its terminal and its text. -/
def rebuild (l : Language) (t : Token) : Except ParseError Token :=
  match l.arena.get? t.terminal with
  | some terminal => l.token terminal.name t.text
  | none => .error (.foreignToken t.terminal t.position)

/-- Whether a class hides the terminal of the token. -/
def hides (l : Language) (t : Token) : Bool := (l.arena.get? t.terminal).any l.arena.hides

variable {declared : List NodeType} {config : Config} {l : Language} {text : String}
  {tokens : List Token} {t t' : Token}

/-- The terminal of a token made by name is the one that is found. -/
theorem find?_of_token {name : String} (h : l.token name text = .ok t) :
    l.arena.find? name = some t.terminal := by
  rw [token, Token.ofName] at h
  split at h
  · simp at h
  · rename_i i hfind
    split at h
    · simp at h
    · rename_i terminal _
      cases hv : terminal.decode text Position.outside with
      | error e => simp [hv, Except.map] at h
      | ok v =>
          obtain rfl : (⟨i, text, v, Position.outside⟩ : Token) = t := by
            simpa [hv, Except.map] using h
          exact hfind

theorem lt_size_of_get? {a : Arena} {i : Nat} {terminal : Terminal} (h : a.get? i = some terminal) :
    i < a.size :=
  (List.getElem?_eq_some_iff.1 h).1

/-- A token made by name is of a terminal of the language. -/
theorem lt_size_of_token {name : String} (h : l.token name text = .ok t) : t.terminal < l.arena.size := by
  have hfind := find?_of_token h
  rw [Arena.find?, Option.or_eq_some_iff] at hfind
  rcases hfind with hclass | ⟨-, hliteral⟩
  · obtain ⟨_, hget, -⟩ := Arena.exists_of_findIdx? hclass
    exact lt_size_of_get? hget
  · obtain ⟨_, hget, -⟩ := Arena.exists_of_findIdx? hliteral
    exact lt_size_of_get? hget

/-- So is a token of a text. -/
theorem lt_size_of_tokenize (hl : assemble declared config = .ok l)
    (htokens : l.tokenize text = .ok tokens) : ∀ t ∈ tokens, t.terminal < l.arena.size := by
  intro t ht
  obtain ⟨terminal, hget, -⟩ :=
    (takes_of_tokenize htokens t ht).exists_terminal (scanner_of_assemble hl).1
  exact lt_size_of_get? hget

/-- A token of a text is made again, but for its place, unless its terminal is hidden. -/
theorem rebuild_of_tokenize (hl : assemble declared config = .ok l)
    (htokens : l.tokenize text = .ok tokens) (ht : t ∈ tokens) (hhides : l.hides t = false) :
    l.rebuild t = .ok t.outside := by
  obtain ⟨hscanner, hkeyed⟩ := scanner_of_assemble hl
  obtain ⟨terminal, hterminal, hvalue⟩ :=
    (takes_of_tokenize htokens t ht).exists_terminal hscanner
  rw [hides, hterminal, Option.any_some] at hhides
  rw [rebuild, hterminal]
  simp only
  rw [token, Token.ofName, Arena.find?_name hkeyed hterminal hhides]
  simp only [hterminal]
  rw [Terminal.decode_place hvalue]
  rfl

/-- A token with a hidden terminal is not made again. -/
theorem terminal_ne_of_rebuild (hhides : l.hides t = true) (h : l.rebuild t = .ok t') :
    t'.terminal ≠ t.terminal := by
  rw [hides, Option.any_eq_true] at hhides
  obtain ⟨terminal, hterminal, hhides⟩ := hhides
  rw [rebuild, hterminal] at h
  intro heq
  exact Arena.find?_ne_of_hides hterminal hhides (heq ▸ find?_of_token h)

theorem mapM_rebuild (h : ∀ t ∈ tokens, l.rebuild t = .ok t.outside) :
    tokens.mapM l.rebuild = .ok (tokens.map Token.outside) := by
  induction tokens with
  | nil => rfl
  | cons t tokens ih =>
      obtain ⟨ht, hothers⟩ := List.forall_mem_cons.1 h
      rw [List.mapM_cons, ht, ih hothers]
      rfl

/-- Tokens made by name agree with the tokens of a text, but for hidden literals. A token is made again, with
its terminal and value and without its place, if its terminal is not hidden; else what is made, if
anything, is of another terminal. If none is hidden, the tokens that are made again parse if and only if the
text does, and to the same value. -/
theorem rebuild_tokens (hl : assemble declared config = .ok l)
    (htokens : l.tokenize text = .ok tokens) :
    (∀ t ∈ tokens, (l.hides t = false → l.rebuild t = .ok t.outside) ∧
      (l.hides t = true → ∀ t', l.rebuild t = .ok t' → t'.terminal ≠ t.terminal)) ∧
    ((∀ t ∈ tokens, l.hides t = false) → ∃ rebuilt, tokens.mapM l.rebuild = .ok rebuilt ∧
      ∀ v, l.parseTokens rebuilt = .ok v ↔ l.parse text = .ok v) := by
  refine ⟨fun t ht => ⟨rebuild_of_tokenize hl htokens ht, fun hhides t' => ?_⟩, fun hall => ?_⟩
  · exact terminal_ne_of_rebuild hhides
  · have hrebuild := mapM_rebuild fun t ht => rebuild_of_tokenize hl htokens ht (hall t ht)
    refine ⟨tokens.map Token.outside, hrebuild, fun v => ?_⟩
    have halike : Forall₂ Token.Alike tokens (tokens.map Token.outside) :=
      List.forall₂_map_right_iff.2 (List.forall₂_same.2 fun t _ => t.alike_outside)
    rw [← parseTokens_iff_of_alike hl halike, parse, htokens]
    rfl

/-- Whole numbers, under a short name. -/
def amount : Terminal := .tokenClass "N" "[0-9]+" .integer

/-- An amount with a unit. -/
def measured (unit : String) : List NodeType :=
  [(NodeType.named "Measure").generates
    [.field "amount" (.terminal amount) none, .literal unit] Prec.default |>.start]

/-- The value of `7` with a unit. -/
def sevenOf : Value := .node "Measure" [("amount", .int 7)]

set_option maxRecDepth 20000 in
theorem parse_measured : ∃ l tokens, assemble (measured "m") .quiet = .ok l ∧
    l.tokenize "7 m" = .ok tokens ∧ (∀ t ∈ tokens, l.hides t = false) ∧
      l.parse "7 m" = .ok sevenOf := by
  have hcheck : (assemble (measured "m") .quiet).toOption.any (fun l =>
      (l.tokenize "7 m").toOption.any (fun tokens => tokens.all fun t => !l.hides t) &&
        (l.parse "7 m").toOption == some sevenOf) = true := by
    cbv
  obtain ⟨l, hl, hcheck⟩ := exists_of_any_assemble hcheck
  rw [Bool.and_eq_true] at hcheck
  obtain ⟨tokens, htokens, hall⟩ := Except.exists_of_any hcheck.1
  refine ⟨l, tokens, hl, htokens, fun t ht => ?_, Except.eq_ok_of_beq hcheck.2⟩
  simpa using List.all_eq_true.1 hall t ht

/-- The tokens of `7 m` are made again and have the value of the text. -/
theorem rebuild_tokens_measured : ∃ l tokens rebuilt, assemble (measured "m") .quiet = .ok l ∧
    l.tokenize "7 m" = .ok tokens ∧ tokens.mapM l.rebuild = .ok rebuilt ∧
      l.parseTokens rebuilt = .ok sevenOf := by
  obtain ⟨l, tokens, hl, htokens, hall, hvalue⟩ := parse_measured
  obtain ⟨rebuilt, hrebuilt, hparse⟩ := (rebuild_tokens hl htokens).2 hall
  exact ⟨l, tokens, rebuilt, hl, htokens, hrebuilt, (hparse _).2 hvalue⟩

set_option maxRecDepth 20000 in
/-- A unit that is called as amounts are is scanned and parsed, but it cannot be made by name, since its text
is not a number. -/
theorem exists_token_not_rebuilt : ∃ l tokens, assemble (measured "N") .quiet = .ok l ∧
    l.tokenize "7 N" = .ok tokens ∧ l.parse "7 N" = .ok sevenOf ∧
      ∃ t ∈ tokens, l.rebuild t = .error (.invalidLiteral "N" "N" .outside) := by
  have hcheck : (assemble (measured "N") .quiet).toOption.any (fun l =>
      decide (l.arena = ⟨[amount, .literal "N"]⟩) &&
        ((l.tokenize "7 N").toOption.any (·.any fun t => t.terminal == 1 && t.text == "N") &&
          (l.parse "7 N").toOption == some sevenOf)) = true := by
    cbv
  obtain ⟨l, hl, hcheck⟩ := exists_of_any_assemble hcheck
  rw [Bool.and_eq_true, Bool.and_eq_true, decide_eq_true_eq] at hcheck
  obtain ⟨harena, htokens, hvalue⟩ := hcheck
  obtain ⟨tokens, htokens, hunit⟩ := Except.exists_of_any htokens
  obtain ⟨t, ht, hunit⟩ := List.any_eq_true.1 hunit
  rw [Bool.and_eq_true, beq_iff_eq, beq_iff_eq] at hunit
  refine ⟨l, tokens, hl, htokens, Except.eq_ok_of_beq hvalue, t, ht, ?_⟩
  have hget : l.arena.get? t.terminal = some (.literal "N") := by
    rw [harena, hunit.1]
    rfl
  rw [rebuild, hget]
  show l.token "N" t.text = _
  rw [token, harena, hunit.2]
  rfl

end Language

end SmallLang
