import SmallLang.Proofs.Mixed.Ladder

/-!
# The words of mixed operators

Without priorities a word of a mixture is flat: an operand, and then a chain of operators with a left
operand, each followed by its right operand if it has one (`Mixture.Word`). An operand is a number or a
word in parentheses, behind any number of operators that stand before their operand. Whatever is
derived from a grammar of the mixture is such a word (`Describes.word_of_derives`).
-/

set_option autoImplicit false

namespace SmallLang

namespace Mixture

/-- The two parts of a word. -/
inductive Part where
  | operand
  | chain
  deriving DecidableEq

/-- The rows of tokens that are a part of a word. -/
inductive Spells (m : Mixture) : Part → List Token → Prop
  | number {t : Token} (ht : t.terminal = m.number) : Spells m .operand [t]
  | parens {a b : Token} {w r : List Token} (ha : a.terminal = m.opening)
      (hb : b.terminal = m.closing) (hw : Spells m .operand w) (hr : Spells m .chain r) :
      Spells m .operand (a :: (w ++ r ++ [b]))
  | before {o : Sign} {t : Token} {w : List Token} (ho : o ∈ m.operators)
      (hbefore : o.fixity = .before) (ht : t.terminal = o.terminal) (hw : Spells m .operand w) :
      Spells m .operand (t :: w)
  | nil : Spells m .chain []
  | after {o : Sign} {t : Token} {r : List Token} (ho : o ∈ m.operators)
      (hafter : o.fixity = .after) (ht : t.terminal = o.terminal) (hr : Spells m .chain r) :
      Spells m .chain (t :: r)
  | between {o : Sign} {t : Token} {w r : List Token} (ho : o ∈ m.operators)
      (hbetween : o.fixity = .between) (ht : t.terminal = o.terminal) (hw : Spells m .operand w)
      (hr : Spells m .chain r) : Spells m .chain (t :: (w ++ r))

/-- An operand and a chain after it. -/
def Word (m : Mixture) (tokens : List Token) : Prop :=
  ∃ w r, m.Spells .operand w ∧ m.Spells .chain r ∧ tokens = w ++ r

variable {m : Mixture} {g : Grammar}

theorem Spells.chain_append {r s : List Token} (hr : m.Spells .chain r) (hs : m.Spells .chain s) :
    m.Spells .chain (r ++ s) := by
  generalize hpart : Part.chain = part at hr
  induction hr with
  | number _ => exact Part.noConfusion hpart
  | parens _ _ _ _ _ _ => exact Part.noConfusion hpart
  | before _ _ _ _ _ => exact Part.noConfusion hpart
  | nil => exact hs
  | after ho hafter ht _ ih => exact .after ho hafter ht (ih rfl)
  | between ho hbetween ht hw _ _ ih =>
      rw [List.cons_append, List.append_assoc]
      exact .between ho hbetween ht hw (ih rfl)

/-- A chain begins with an operator that has a left operand. -/
theorem Spells.exists_of_chain {t : Token} {r : List Token} (h : m.Spells .chain (t :: r)) :
    ∃ o ∈ m.operators, o.Continues ∧ t.terminal = o.terminal := by
  cases h with
  | after ho hafter ht _ => exact ⟨_, ho, by simp [Sign.Continues, hafter], ht⟩
  | between ho hbetween ht _ _ => exact ⟨_, ho, by simp [Sign.Continues, hbetween], ht⟩

/-! ## Words are closed under the productions -/

theorem word_number {t : Token} (ht : t.terminal = m.number) : m.Word [t] :=
  ⟨[t], [], .number ht, .nil, rfl⟩

theorem word_parens {a b : Token} {tokens : List Token} (ha : a.terminal = m.opening)
    (hb : b.terminal = m.closing) (h : m.Word tokens) : m.Word (a :: (tokens ++ [b])) := by
  obtain ⟨w, r, hw, hr, rfl⟩ := h
  exact ⟨_, [], .parens ha hb hw hr, .nil, by simp⟩

theorem word_before {o : Sign} (ho : o ∈ m.operators) (hbefore : o.fixity = .before) {t : Token}
    (ht : t.terminal = o.terminal) {tokens : List Token} (h : m.Word tokens) :
    m.Word (t :: tokens) := by
  obtain ⟨w, r, hw, hr, rfl⟩ := h
  exact ⟨t :: w, r, .before ho hbefore ht hw, hr, rfl⟩

theorem word_after {o : Sign} (ho : o ∈ m.operators) (hafter : o.fixity = .after) {t : Token}
    (ht : t.terminal = o.terminal) {tokens : List Token} (h : m.Word tokens) :
    m.Word (tokens ++ [t]) := by
  obtain ⟨w, r, hw, hr, rfl⟩ := h
  refine ⟨w, r ++ [t], hw, hr.chain_append (.after ho hafter ht .nil), ?_⟩
  rw [List.append_assoc]

theorem word_between {o : Sign} (ho : o ∈ m.operators) (hbetween : o.fixity = .between) {t : Token}
    (ht : t.terminal = o.terminal) {tokens tokens' : List Token} (h : m.Word tokens)
    (h' : m.Word tokens') : m.Word (tokens ++ t :: tokens') := by
  obtain ⟨w, r, hw, hr, rfl⟩ := h
  obtain ⟨w', r', hw', hr', rfl⟩ := h'
  refine ⟨w, r ++ t :: (w' ++ r'), hw, hr.chain_append (.between ho hbetween ht hw' hr'), ?_⟩
  rw [List.append_assoc]

/-- Whatever is derived from a grammar of the mixture is a word. -/
theorem Describes.word_of_derives (d : m.Describes g) {nt : Nat} {t : ParseTree}
    (h : g.Derives (.nonTerminal nt) t) : m.Word t.tokens := by
  suffices hall : ∀ {s : Symbol}, g.Derives s t → ∀ nt, s = .nonTerminal nt → m.Word t.tokens from
    hall h nt rfl
  intro s hs
  clear h
  induction hs using Grammar.Derives.rec_on with
  | token t => exact fun nt hnt => Symbol.noConfusion hnt
  | node nt p production children hp hc ih =>
      intro _ _
      rw [ParseTree.tokens_node]
      clear hc
      -- By the form of the production: its children are words already, and its terminals are signs.
      cases d.form nt production (Grammar.mem_productionsOf_iff.2 ⟨p, hp⟩) with
      | parens c =>
          obtain _ | ⟨⟨ha, -⟩, _ | ⟨⟨-, hinner⟩, _ | ⟨⟨hb, -⟩, _ | _⟩⟩⟩ := ih
          obtain ⟨a, rfl, hopening⟩ := Grammar.derives_terminal_iff.1 ha
          obtain ⟨b, rfl, hclosing⟩ := Grammar.derives_terminal_iff.1 hb
          simpa using word_parens hopening hclosing (hinner _ rfl)
      | number c =>
          obtain _ | ⟨⟨ht, -⟩, _ | _⟩ := ih
          obtain ⟨token, rfl, htoken⟩ := Grammar.derives_terminal_iff.1 ht
          exact word_number htoken
      | numberUnit =>
          obtain _ | ⟨⟨-, hinner⟩, _ | _⟩ := ih
          simpa using hinner _ rfl
      | operatorUnit o ho =>
          obtain _ | ⟨⟨-, hinner⟩, _ | _⟩ := ih
          simpa using hinner _ rfl
      | operator o ho c =>
          cases hfixity : o.fixity with
          | between =>
              simp only [Sign.symbols, hfixity] at ih
              obtain _ | ⟨⟨-, hleft⟩, _ | ⟨⟨hs, -⟩, _ | ⟨⟨-, hright⟩, _ | _⟩⟩⟩ := ih
              obtain ⟨s, rfl, hsign⟩ := Grammar.derives_terminal_iff.1 hs
              simpa using word_between ho hfixity hsign (hleft _ rfl) (hright _ rfl)
          | before =>
              simp only [Sign.symbols, hfixity] at ih
              obtain _ | ⟨⟨hs, -⟩, _ | ⟨⟨-, hright⟩, _ | _⟩⟩ := ih
              obtain ⟨s, rfl, hsign⟩ := Grammar.derives_terminal_iff.1 hs
              simpa using word_before ho hfixity hsign (hright _ rfl)
          | after =>
              simp only [Sign.symbols, hfixity] at ih
              obtain _ | ⟨⟨-, hleft⟩, _ | ⟨⟨hs, -⟩, _ | _⟩⟩ := ih
              obtain ⟨s, rfl, hsign⟩ := Grammar.derives_terminal_iff.1 hs
              simpa using word_after ho hfixity hsign (hleft _ rfl)

end Mixture

end SmallLang
