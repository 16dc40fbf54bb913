import SmallLang.Proofs.Mixed.Ladder
import SmallLang.Proofs.Operator.Limit
import SmallLang.Proofs.Prefix.Extent

/-!
# Operands of a sign in front

In a mixture with one operator before its operand (`Mixture.SoleBefore`), the trees that a table without
ties makes have few shapes. `Mixture.Grows` lists them, with the tokens that come after the tree: a tail
ends only where no operator of its level comes next. From the shapes alone follow three facts about the
operand of a level. No operator of this or a tighter level comes after it (`Grows.looser`), reading on
passes over it as a whole if the sign in front admits its level (`Grows.passed`), and so every operand
of the sign is what `operandOf` reads off the tokens after the sign (`Grows.operandsOf`).
-/

set_option autoImplicit false

namespace SmallLang.Mixture

/-- One operator stands before its operand, and all others stand between two. -/
structure SoleBefore (m : Mixture) (x : Sign) : Prop where
  mem : x ∈ m.operators
  before : x.fixity = .before
  others : ∀ o ∈ m.operators, o = x ∨ o.fixity = .between

/-- What tokens mean for the operand of the sign: an operator between operands stops it, unless it binds
tightly enough. -/
def brackets (m : Mixture) (x : Sign) : Brackets where
  opens t := t.terminal == m.opening
  closes t := t.terminal == m.closing
  stops t := m.operators.any fun o =>
    o.fixity == .between && t.terminal == o.terminal && !decide (x.prec.Admits o.prec.priority)

/-- The operators between operands that come next, if one does, have levels of which this holds. -/
def Next (m : Mixture) (level : Sign → Nat) (P : Nat → Prop) (tokens : List Token) : Prop :=
  ∀ t ∈ tokens.head?, ∀ o ∈ m.operators, o.fixity = .between → t.terminal = o.terminal →
    P (level o)

/-- Nothing comes next, or the closing parenthesis, or an operator between operands. -/
def EndsOperand (m : Mixture) (tokens : List Token) : Prop :=
  ∀ t ∈ tokens.head?, t.terminal = m.closing ∨
    ∃ o ∈ m.operators, o.fixity = .between ∧ t.terminal = o.terminal

/-- No operator is of that level or a tighter one. -/
def Above (m : Mixture) (level : Sign → Nat) (k : Nat) : Prop :=
  ∀ o ∈ m.operators, o.fixity = .between → level o < k

/-- The operators of that level and of tighter ones are those that the sign admits. -/
def Limits (m : Mixture) (x : Sign) (level : Sign → Nat) (j : Nat) : Prop :=
  ∀ o ∈ m.operators, o.fixity = .between → (j ≤ level o ↔ x.prec.Admits o.prec.priority)

/-- What a tree is for a level. -/
inductive Role where
  | operand
  | tail
  deriving DecidableEq

/-- The trees of a level before the given tokens. -/
inductive Grows (m : Mixture) (x : Sign) (level : Sign → Nat) :
    Role → Nat → ParseTree → List Token → Prop
  | parens {k j : Nat} (nt p : Nat) {a b : Token} {inner : ParseTree} {rest : List Token}
      (ha : a.terminal = m.opening) (hb : b.terminal = m.closing)
      (hinner : Grows m x level .operand j inner (b :: rest)) (habove : m.Above level k) :
      Grows m x level .operand k (.node nt p [.token a, inner, .token b]) rest
  | number {k : Nat} (nt p : Nat) {t : Token} (rest : List Token) (ht : t.terminal = m.number)
      (habove : m.Above level k) : Grows m x level .operand k (.node nt p [.token t]) rest
  | signed {k j : Nat} (nt p : Nat) {t : Token} {operand : ParseTree} {rest : List Token}
      (ht : t.terminal = x.terminal) (hlimits : m.Limits x level j)
      (hoperand : Grows m x level .operand j operand rest) (habove : m.Above level k) :
      Grows m x level .operand k (.node nt p [.token t, operand]) rest
  | unit {k : Nat} (nt p : Nat) {operand : ParseTree} {rest : List Token}
      (hoperand : Grows m x level .operand k operand rest) :
      Grows m x level .operand k (.node nt p [operand]) rest
  | climb {k : Nat} (nt p : Nat) {operand tail : ParseTree} {rest : List Token}
      (hoperand : Grows m x level .operand (k + 1) operand (tail.tokens ++ rest))
      (htail : Grows m x level .tail k tail rest) :
      Grows m x level .operand k (.node nt p [operand, tail]) rest
  | right {o : Sign} (nt p : Nat) {t : Token} {operand : ParseTree} {rest : List Token}
      (ho : o ∈ m.operators) (hbetween : o.fixity = .between) (ht : t.terminal = o.terminal)
      (hoperand : Grows m x level .operand (level o) operand rest) :
      Grows m x level .tail (level o) (.node nt p [.token t, operand]) rest
  | left {o : Sign} (nt p : Nat) {t : Token} {operand tail : ParseTree} {rest : List Token}
      (ho : o ∈ m.operators) (hbetween : o.fixity = .between) (ht : t.terminal = o.terminal)
      (hoperand : Grows m x level .operand (level o + 1) operand (tail.tokens ++ rest))
      (htail : Grows m x level .tail (level o) tail rest) :
      Grows m x level .tail (level o) (.node nt p [.token t, operand, tail]) rest
  | nothing {k : Nat} (nt p : Nat) {rest : List Token} (hnext : m.Next level (· ≠ k) rest) :
      Grows m x level .tail k (.node nt p []) rest

variable {m : Mixture} {x : Sign} {level : Sign → Nat}

/-! ## What comes after an operand -/

/-- No operator of the level or of a tighter one comes after an operand, and none after a tail if none of
the tighter ones comes at its beginning. -/
theorem Grows.looser {role : Role} {k : Nat} {t : ParseTree} {rest : List Token}
    (h : m.Grows x level role k t rest) :
    (role = .operand → m.Next level (· < k) rest) ∧
      (role = .tail → m.Next level (· < k + 1) (t.tokens ++ rest) → m.Next level (· < k) rest) := by
  induction h with
  | parens nt p ha hb hinner habove ih =>
      exact ⟨fun _ t _ o ho hbetween _ => habove o ho hbetween, fun h => Role.noConfusion h⟩
  | number nt p rest ht habove =>
      exact ⟨fun _ t _ o ho hbetween _ => habove o ho hbetween, fun h => Role.noConfusion h⟩
  | signed nt p ht hlimits hoperand habove ih =>
      exact ⟨fun _ t _ o ho hbetween _ => habove o ho hbetween, fun h => Role.noConfusion h⟩
  | unit nt p hoperand ih => exact ⟨ih.1, fun h => Role.noConfusion h⟩
  | climb nt p hoperand htail ih ih' =>
      exact ⟨fun _ => ih'.2 rfl (ih.1 rfl), fun h => Role.noConfusion h⟩
  | right nt p ho hbetween ht hoperand ih =>
      exact ⟨fun h => Role.noConfusion h, fun _ _ => ih.1 rfl⟩
  | left nt p ho hbetween ht hoperand htail ih ih' =>
      exact ⟨fun h => Role.noConfusion h, fun _ _ => ih'.2 rfl (ih.1 rfl)⟩
  | nothing nt p hnext =>
      refine ⟨fun h => Role.noConfusion h, fun _ hlooser t ht o ho hbetween heq => ?_⟩
      have hlt := hlooser t (by simpa using ht) o ho hbetween heq
      have hne := hnext t ht o ho hbetween heq
      omega

/-! ## What an operand consists of -/

section Tokens

variable {t : Token}

theorem opens_eq_false (ht : t.terminal ≠ m.opening) : (m.brackets x).opens t = false :=
  beq_eq_false_iff_ne.2 ht

theorem closes_eq_false (ht : t.terminal ≠ m.closing) : (m.brackets x).closes t = false :=
  beq_eq_false_iff_ne.2 ht

/-- An operator stops the operand if and only if it is not admitted. -/
theorem stops_iff {o : Sign} (ho : o ∈ m.operators) (hbetween : o.fixity = .between)
    (ht : t.terminal = o.terminal) :
    (m.brackets x).stops t = true ↔ ¬ x.prec.Admits o.prec.priority := by
  simp only [brackets, List.any_eq_true, Bool.and_eq_true, beq_iff_eq, Bool.not_eq_true',
    decide_eq_false_iff_not]
  constructor
  · rintro ⟨o', ho', ⟨-, hterminal⟩, hnot⟩
    rwa [← eq_of_terminal_eq ho' ho (hterminal.symm.trans ht)]
  · intro hnot
    exact ⟨o, ho, ⟨hbetween, ht⟩, hnot⟩

/-- What is no operator between operands does not stop one. -/
theorem stops_eq_false (ht : ∀ o ∈ m.operators, o.fixity = .between → t.terminal ≠ o.terminal) :
    (m.brackets x).stops t = false := by
  rw [← Bool.not_eq_true]
  intro hstops
  simp only [brackets, List.any_eq_true, Bool.and_eq_true, beq_iff_eq] at hstops
  obtain ⟨o, ho, ⟨hbetween, hterminal⟩, -⟩ := hstops
  exact ht o ho hbetween hterminal

end Tokens

section Tokens

variable {t : Token}

/-- A number is part of the operand. -/
theorem passed_number (ht : t.terminal = m.number) {depth : Nat} {ts : List Token}
    (h : Passed (m.brackets x) depth ts) : Passed (m.brackets x) depth (t :: ts) :=
  h.cons (opens_eq_false (ht ▸ number_ne_opening)) (closes_eq_false (ht ▸ number_ne_closing))
    (Or.inr (stops_eq_false fun _ ho _ heq => terminal_ne_number ho (heq.symm.trans ht)))

/-- So is a sign in front. -/
theorem passed_sign (hx : m.SoleBefore x) (ht : t.terminal = x.terminal) {depth : Nat}
    {ts : List Token} (h : Passed (m.brackets x) depth ts) :
    Passed (m.brackets x) depth (t :: ts) := by
  refine h.cons (opens_eq_false (ht ▸ terminal_ne_opening hx.mem))
    (closes_eq_false (ht ▸ terminal_ne_closing hx.mem)) (Or.inr (stops_eq_false ?_))
  intro o ho hbetween heq
  obtain rfl := eq_of_terminal_eq hx.mem ho (ht.symm.trans heq)
  exact Fixity.noConfusion (hx.before.symm.trans hbetween)

/-- An operator is passed over inside of parentheses, and elsewhere if it is admitted. -/
theorem passed_operator {o : Sign} (ho : o ∈ m.operators) (hbetween : o.fixity = .between)
    (ht : t.terminal = o.terminal) {depth : Nat} (hadmits : 0 < depth ∨ x.prec.Admits o.prec.priority)
    {ts : List Token} (h : Passed (m.brackets x) depth ts) :
    Passed (m.brackets x) depth (t :: ts) := by
  refine h.cons (opens_eq_false (ht ▸ terminal_ne_opening ho))
    (closes_eq_false (ht ▸ terminal_ne_closing ho)) (hadmits.imp_right fun hadmits => ?_)
  rw [← Bool.not_eq_true]
  intro hstops
  exact (stops_iff ho hbetween ht).1 hstops hadmits

end Tokens

/-- Reading the operand of the sign passes over whatever it admits, and inside of parentheses over
everything. -/
theorem Grows.passed (hx : m.SoleBefore x) {role : Role} {k : Nat} {t : ParseTree} {rest : List Token}
    (h : m.Grows x level role k t rest) {depth : Nat}
    (hadmits : 0 < depth ∨ ∀ o ∈ m.operators, o.fixity = .between → k ≤ level o →
      x.prec.Admits o.prec.priority) : Passed (m.brackets x) depth t.tokens := by
  induction h generalizing depth with
  | @parens k j nt p a b inner rest ha hb hinner habove ih =>
      have hinside : Passed (m.brackets x) (depth + 1) inner.tokens := ih (Or.inl (Nat.succ_pos depth))
      have hopens : (m.brackets x).opens a = true := beq_iff_eq.2 ha
      have hcloses : (m.brackets x).closes b = true := beq_iff_eq.2 hb
      simpa using hinside.parens hopens (opens_eq_false (hb ▸ closing_ne_opening)) hcloses
  | number nt p rest ht habove => simpa using passed_number ht (passed_nil depth)
  | signed nt p ht hlimits hoperand habove ih =>
      simpa using passed_sign hx ht
        (ih (Or.inr fun o ho hbetween hle => (hlimits o ho hbetween).1 hle))
  | unit nt p hoperand ih => simpa using ih hadmits
  | climb nt p hoperand htail ih ih' =>
      have htight := hadmits.imp_right fun h o ho hbetween hle => h o ho hbetween (Nat.le_of_lt hle)
      simpa using (ih htight).append (ih' hadmits)
  | @right o nt p t operand rest ho hbetween ht hoperand ih =>
      have hadmits' := hadmits.imp_right fun h => h o ho hbetween (Nat.le_refl _)
      simpa using passed_operator ho hbetween ht hadmits' (ih hadmits)
  | @left o nt p t operand tail rest ho hbetween ht hoperand htail ih ih' =>
      have hadmits' := hadmits.imp_right fun h => h o ho hbetween (Nat.le_refl _)
      have htight := hadmits.imp_right fun h o ho hbetween hle => h o ho hbetween (Nat.le_of_lt hle)
      simpa using passed_operator ho hbetween ht hadmits' ((ih htight).append (ih' hadmits))
  | nothing nt p hnext => exact passed_nil depth

/-! ## The operands of the sign -/

/-- The operand of a sign is what is read off the tokens from its beginning. -/
theorem Grows.tokens_eq_operandOf (hx : m.SoleBefore x) {j : Nat} {operand : ParseTree}
    {rest : List Token} (h : m.Grows x level .operand j operand rest)
    (hlimits : m.Limits x level j) (hends : m.EndsOperand rest) :
    operand.tokens = operandOf (m.brackets x) 0 (operand.tokens ++ rest) := by
  have hpassed : Passed (m.brackets x) 0 operand.tokens :=
    h.passed hx (Or.inr fun o ho hbetween hle => (hlimits o ho hbetween).1 hle)
  suffices hnothing : operandOf (m.brackets x) 0 rest = [] by
    rw [hpassed, hnothing, List.append_nil]
  cases rest with
  | nil => rfl
  | cons t rest =>
      rcases hends t rfl with hcloses | ⟨o, ho, hbetween, ht⟩
      · exact operandOf_ends (opens_eq_false (hcloses ▸ closing_ne_opening))
          (Or.inl (beq_iff_eq.2 hcloses)) rest
      · refine operandOf_ends (opens_eq_false (ht ▸ terminal_ne_opening ho))
          (Or.inr ((stops_iff ho hbetween ht).2 fun hadmits => ?_)) rest
        -- An operator that is admitted would be part of the operand.
        have hlt := h.looser.1 rfl t rfl o ho hbetween ht
        exact Nat.not_lt.2 ((hlimits o ho hbetween).2 hadmits) hlt

/-- Each sign of the tree, with `rest` after the tree, stands in a node with its operand. -/
def OperandsOf (m : Mixture) (x : Sign) (t : ParseTree) (rest : List Token) : Prop :=
  ∀ before sign after, sign.terminal = x.terminal → t.tokens = before ++ sign :: after →
    ∃ nt p operand last, t.Holds before (.node nt p [.token sign, operand]) last ∧
      operand.tokens = operandOf (m.brackets x) 0 (after ++ rest)

theorem operandsOf_token {t : Token} (ht : t.terminal ≠ x.terminal) (rest : List Token) :
    m.OperandsOf x (.token t) rest := by
  intro before sign after hsign heq
  rcases before with _ | ⟨u, before⟩
  · obtain ⟨rfl, -⟩ := List.cons.inj heq
    exact absurd hsign ht
  · exact absurd (List.cons.inj heq).2 (by simp)

/-- The same for the trees of a row, one after the other. -/
def OperandsOfAll (m : Mixture) (x : Sign) : List ParseTree → List Token → Prop
  | [], _ => True
  | c :: cs, rest => m.OperandsOf x c (cs.flatMap ParseTree.tokens ++ rest) ∧ OperandsOfAll m x cs rest

theorem OperandsOfAll.of_append {us vs : List ParseTree} {c : ParseTree} {rest : List Token}
    (h : m.OperandsOfAll x (us ++ c :: vs) rest) :
    m.OperandsOf x c (vs.flatMap ParseTree.tokens ++ rest) := by
  induction us with
  | nil => exact h.1
  | cons u us ih => exact ih h.2

/-- The signs of a node are those of its children. -/
theorem OperandsOfAll.node (nt p : Nat) {children : List ParseTree} {rest : List Token}
    (h : m.OperandsOfAll x children rest) : m.OperandsOf x (.node nt p children) rest := by
  intro before sign after hsign heq
  rw [ParseTree.tokens_node] at heq
  obtain ⟨us, c, vs, first, last, rfl, hc, rfl, rfl⟩ := exists_of_flatMap_eq_append_cons heq
  obtain ⟨nt', p', operand, last', hholds, htokens⟩ := h.of_append first sign last hsign hc
  refine ⟨nt', p', operand, _, .child nt p us vs hholds, ?_⟩
  rw [htokens, List.append_assoc]

/-- Before its operand, the sign is the only one that is no sign of the operand. -/
theorem operandsOf_signed (nt p : Nat) {t : Token} {operand : ParseTree} {rest : List Token}
    (hoperand : m.OperandsOf x operand rest)
    (htokens : operand.tokens = operandOf (m.brackets x) 0 (operand.tokens ++ rest)) :
    m.OperandsOf x (.node nt p [.token t, operand]) rest := by
  intro before sign after hsign heq
  have heq' : t :: operand.tokens = before ++ sign :: after := by simpa using heq
  rcases before with _ | ⟨u, before⟩
  · obtain ⟨rfl, rfl⟩ := List.cons.inj heq'
    exact ⟨nt, p, operand, [], .self _, htokens⟩
  · obtain ⟨rfl, hrest⟩ := List.cons.inj heq'
    obtain ⟨nt', p', operand', last, hholds, htokens'⟩ := hoperand before sign after hsign hrest
    exact ⟨nt', p', operand', _, .child nt p [.token t] [] hholds, htokens'⟩

theorem endsOperand_nil : m.EndsOperand [] := fun _ ht => absurd ht (by simp)

theorem EndsOperand.closing {t : Token} (ht : t.terminal = m.closing) (rest : List Token) :
    m.EndsOperand (t :: rest) := by
  intro u hu
  obtain rfl := Option.some.inj hu
  exact Or.inl ht

/-- A tail begins with an operator or has no tokens. -/
theorem Grows.endsOperand_tail {k : Nat} {t : ParseTree} {rest : List Token}
    (h : m.Grows x level .tail k t rest) (hends : m.EndsOperand rest) :
    m.EndsOperand (t.tokens ++ rest) := by
  cases h with
  | right nt p ho hbetween ht hoperand =>
      intro u hu
      obtain rfl := Option.some.inj hu
      exact Or.inr ⟨_, ho, hbetween, ht⟩
  | left nt p ho hbetween ht hoperand htail =>
      intro u hu
      obtain rfl := Option.some.inj hu
      exact Or.inr ⟨_, ho, hbetween, ht⟩
  | nothing nt p hnext => simpa using hends

/-- The operand of every sign in the tree goes as far as `operandOf` says. -/
theorem Grows.operandsOf (hx : m.SoleBefore x) {role : Role} {k : Nat} {t : ParseTree}
    {rest : List Token} (h : m.Grows x level role k t rest) (hends : m.EndsOperand rest) :
    m.OperandsOf x t rest := by
  have hother : ∀ {o : Sign}, o ∈ m.operators → o.fixity = .between → o.terminal ≠ x.terminal := by
    intro o ho hbetween heq
    obtain rfl := eq_of_terminal_eq ho hx.mem heq
    exact Fixity.noConfusion (hx.before.symm.trans hbetween)
  induction h with
  | parens nt p ha hb hinner habove ih =>
      have hopening := ha ▸ (terminal_ne_opening hx.mem).symm
      have hclosing := hb ▸ (terminal_ne_closing hx.mem).symm
      exact OperandsOfAll.node nt p ⟨operandsOf_token hopening _, ih (.closing hb _),
        operandsOf_token hclosing _, trivial⟩
  | number nt p rest ht habove =>
      have hnumber := ht ▸ (terminal_ne_number hx.mem).symm
      exact OperandsOfAll.node nt p ⟨operandsOf_token hnumber _, trivial⟩
  | signed nt p ht hlimits hoperand habove ih =>
      exact operandsOf_signed nt p (ih hends) (hoperand.tokens_eq_operandOf hx hlimits hends)
  | unit nt p hoperand ih => exact OperandsOfAll.node nt p ⟨ih hends, trivial⟩
  | @climb k nt p operand tail rest hoperand htail ih ih' =>
      have hoperand' := ih (htail.endsOperand_tail hends)
      refine OperandsOfAll.node nt p ⟨?_, ih' hends, trivial⟩
      simpa using hoperand'
  | right nt p ho hbetween ht hoperand ih =>
      have hsign := ht ▸ hother ho hbetween
      exact OperandsOfAll.node nt p ⟨operandsOf_token hsign _, ih hends, trivial⟩
  | left nt p ho hbetween ht hoperand htail ih ih' =>
      have hsign := ht ▸ hother ho hbetween
      have hoperand' := ih (htail.endsOperand_tail hends)
      refine OperandsOfAll.node nt p ⟨operandsOf_token hsign _, ?_, ih' hends, trivial⟩
      simpa using hoperand'
  | nothing nt p hnext => exact OperandsOfAll.node nt p trivial

end SmallLang.Mixture
