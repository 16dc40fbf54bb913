import SmallLang.Proofs.Parsing.Guided

/-!
# How far an operand goes

`operandOf` reads the tokens of an operand off a row of tokens: up to the first one outside of
parentheses that stops it, or up to the closing parenthesis around it. Rows that it passes over as a
whole (`Passed`) can be put together, and between parentheses. Where a tree stands in another one is said
by `ParseTree.Holds`, and a token of a node is one of exactly one of its children
(`exists_of_flatMap_eq_append_cons`).
-/

set_option autoImplicit false

namespace SmallLang

/-- What tokens mean for the extent of an operand: parentheses, and what stops it. -/
structure Brackets where
  opens : Token → Bool
  closes : Token → Bool
  stops : Token → Bool

/-- The tokens up to the first one that stops outside of parentheses, or up to the closing one of the
parentheses around, inside of that many pairs of parentheses. -/
def operandOf (b : Brackets) : Nat → List Token → List Token
  | _, [] => []
  | depth, t :: ts =>
      if b.opens t then t :: operandOf b (depth + 1) ts
      else if depth = 0 ∧ (b.closes t || b.stops t) then []
      else t :: operandOf b (if b.closes t then depth - 1 else depth) ts

section

variable {b : Brackets}

@[simp] theorem operandOf_nil (depth : Nat) : operandOf b depth [] = [] := rfl

theorem operandOf_opens {t : Token} (ht : b.opens t = true) (depth : Nat) (ts : List Token) :
    operandOf b depth (t :: ts) = t :: operandOf b (depth + 1) ts := by
  rw [operandOf, if_pos ht]

theorem operandOf_closes {t : Token} (ht : b.opens t = false) (ht' : b.closes t = true) (depth : Nat)
    (ts : List Token) : operandOf b (depth + 1) (t :: ts) = t :: operandOf b depth ts := by
  simp [operandOf, ht, ht']

theorem operandOf_ends {t : Token} (ht : b.opens t = false)
    (hends : b.closes t = true ∨ b.stops t = true) (ts : List Token) :
    operandOf b 0 (t :: ts) = [] := by
  simp [operandOf, ht, hends]

theorem operandOf_goes {t : Token} (ht : b.opens t = false) (ht' : b.closes t = false) {depth : Nat}
    (hgoes : 0 < depth ∨ b.stops t = false) (ts : List Token) :
    operandOf b depth (t :: ts) = t :: operandOf b depth ts := by
  have hgoes' : ¬ (depth = 0 ∧ (b.closes t || b.stops t) = true) := by
    rintro ⟨rfl, hstops⟩
    rcases hgoes with hpos | hgoes
    · exact Nat.lt_irrefl 0 hpos
    · simp [ht', hgoes] at hstops
  rw [operandOf, if_neg (by simp [ht]), if_neg hgoes', if_neg (by simp [ht'])]

/-- An operand goes on over the whole row, whatever comes after it. -/
def Passed (b : Brackets) (depth : Nat) (ts : List Token) : Prop :=
  ∀ more, operandOf b depth (ts ++ more) = ts ++ operandOf b depth more

theorem passed_nil (depth : Nat) : Passed b depth [] := fun _ => rfl

theorem Passed.append {depth : Nat} {ts us : List Token} (h : Passed b depth ts)
    (h' : Passed b depth us) : Passed b depth (ts ++ us) := fun more => by
  rw [List.append_assoc, h, h', List.append_assoc]

theorem Passed.cons {t : Token} (ht : b.opens t = false) (ht' : b.closes t = false) {depth : Nat}
    (hgoes : 0 < depth ∨ b.stops t = false) {ts : List Token} (h : Passed b depth ts) :
    Passed b depth (t :: ts) := fun more => by
  rw [List.cons_append, operandOf_goes ht ht' hgoes, h, List.cons_append]

/-- What stands between parentheses is passed over, together with them. -/
theorem Passed.parens {t u : Token} (ht : b.opens t = true) (hu : b.opens u = false)
    (hu' : b.closes u = true) {depth : Nat} {ts : List Token} (h : Passed b (depth + 1) ts) :
    Passed b depth (t :: (ts ++ [u])) := fun more => by
  rw [List.cons_append, operandOf_opens ht, List.append_assoc, h, List.singleton_append,
    operandOf_closes hu hu', List.cons_append, List.append_assoc, List.singleton_append]

end

namespace ParseTree

/-- The second tree stands in the first one, between those tokens of it. -/
inductive Holds : ParseTree → List Token → ParseTree → List Token → Prop
  | self (t : ParseTree) : Holds t [] t []
  | child (nt p : Nat) (us vs : List ParseTree) {c s : ParseTree} {before after : List Token}
      (h : Holds c before s after) :
      Holds (.node nt p (us ++ c :: vs)) (us.flatMap tokens ++ before) s
        (after ++ vs.flatMap tokens)

theorem Holds.tokens_eq {t s : ParseTree} {before after : List Token} (h : t.Holds before s after) :
    t.tokens = before ++ s.tokens ++ after := by
  induction h with
  | self t => simp
  | child nt p us vs h ih => simp [ih]

end ParseTree

/-- A token of a row of trees is one of exactly one of them. -/
theorem exists_of_flatMap_eq_append_cons {cs : List ParseTree} {before after : List Token} {t : Token}
    (h : cs.flatMap ParseTree.tokens = before ++ t :: after) :
    ∃ us c vs first last, cs = us ++ c :: vs ∧ c.tokens = first ++ t :: last ∧
      before = us.flatMap ParseTree.tokens ++ first ∧
      after = last ++ vs.flatMap ParseTree.tokens := by
  induction cs generalizing before with
  | nil => simp at h
  | cons c cs ih =>
      have hin : (∃ rest, before = c.tokens ++ rest ∧
            cs.flatMap ParseTree.tokens = rest ++ t :: after) ∨
          ∃ last, c.tokens = before ++ t :: last ∧ after = last ++ cs.flatMap ParseTree.tokens := by
        rw [List.flatMap_cons, List.append_eq_append_iff] at h
        rcases h with h | ⟨_ | ⟨u, last⟩, hc, hafter⟩
        · exact Or.inl h
        · exact Or.inl ⟨[], by simpa using hc.symm, hafter.symm⟩
        · obtain ⟨rfl, rfl⟩ := List.cons.inj hafter
          exact Or.inr ⟨last, hc, rfl⟩
      rcases hin with ⟨rest, rfl, hrest⟩ | ⟨last, hc, rfl⟩
      · obtain ⟨us, d, vs, first, last, rfl, hd, rfl, rfl⟩ := ih hrest
        exact ⟨c :: us, d, vs, first, last, rfl, hd, by simp, rfl⟩
      · exact ⟨[], c, cs, before, last, rfl, hc, rfl, rfl⟩

end SmallLang
