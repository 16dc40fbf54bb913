import Mathlib.Logic.Relation
import SmallLang.Proofs.Lookahead.First

/-!
# Derived forms

A form is a row of symbols. It becomes another form when one of its non-terminals is replaced by the
symbols of one of its productions (`Grammar.Produces`), and derives what any number of such
replacements leads to (`Grammar.DerivesForm`). Unlike a derivation tree, a form may keep non-terminals
that derive no tokens at all.

What can happen to a part of a form can happen to it inside the whole (`Grammar.DerivesForm.append`), and
forms of symbols that exist lead to forms of symbols that exist
(`Grammar.SymbolsExist.of_derivesForm`).
-/

set_option autoImplicit false

namespace SmallLang.Grammar

/-- One non-terminal of the form is replaced by the symbols of one of its productions. -/
inductive Produces (g : Grammar) : List Symbol → List Symbol → Prop
  | replace (before after : List Symbol) {nt p : Nat} {production : Production}
      (hp : g.production? nt p = some production) :
      Produces g (before ++ .nonTerminal nt :: after) (before ++ (production.symbols ++ after))

/-- A form becomes another one by replacements, none or more. -/
abbrev DerivesForm (g : Grammar) : List Symbol → List Symbol → Prop :=
  Relation.ReflTransGen g.Produces

/-- A form becomes another one by replacements, one or more. -/
abbrev DerivesProperly (g : Grammar) : List Symbol → List Symbol → Prop :=
  Relation.TransGen g.Produces

variable {g : Grammar} {u v w x : List Symbol}

/-! ## Parts of a form -/

theorem produces_production {nt p : Nat} {production : Production}
    (hp : g.production? nt p = some production) :
    g.Produces [.nonTerminal nt] production.symbols := by
  have h := Produces.replace [] [] hp
  rwa [List.nil_append, List.nil_append, List.append_nil] at h

/-- A non-terminal alone can only be replaced itself. -/
theorem exists_production_of_produces {nt : Nat} (h : g.Produces [.nonTerminal nt] v) :
    ∃ p production, g.production? nt p = some production ∧ v = production.symbols := by
  generalize hu : [Symbol.nonTerminal nt] = u at h
  cases h with
  | @replace before after i p production hp =>
      cases before with
      | nil =>
          simp only [List.nil_append, List.cons.injEq, Symbol.nonTerminal.injEq] at hu
          obtain ⟨rfl, rfl⟩ := hu
          exact ⟨p, production, hp, by simp⟩
      | cons s before => simp at hu

/-- A replacement can be made inside a larger form. -/
theorem Produces.surround (h : g.Produces u v) (before after : List Symbol) :
    g.Produces (before ++ (u ++ after)) (before ++ (v ++ after)) := by
  cases h with
  | replace before' after' hp =>
      have h := Produces.replace (before ++ before') (after' ++ after) hp
      simpa only [List.append_assoc, List.cons_append] using h

theorem DerivesForm.surround (h : g.DerivesForm u v) (before after : List Symbol) :
    g.DerivesForm (before ++ (u ++ after)) (before ++ (v ++ after)) := by
  induction h with
  | refl => exact .refl
  | tail _ hstep ih => exact ih.tail (hstep.surround before after)

/-- The parts of a form derive what they derive, one after the other. -/
theorem DerivesForm.append (huv : g.DerivesForm u v) (hwx : g.DerivesForm w x) :
    g.DerivesForm (u ++ w) (v ++ x) := by
  have hleft := huv.surround [] w
  have hright := hwx.surround v []
  simp only [List.nil_append, List.append_nil] at hleft hright
  exact hleft.trans hright

/-- The parts of a form may derive nothing. -/
theorem DerivesForm.append_nil (hu : g.DerivesForm u []) (hwx : g.DerivesForm w x) :
    g.DerivesForm (u ++ w) x :=
  hu.append hwx

/-! ## Where a symbol comes from -/

/-- After a replacement, a symbol with others before and after it was there already, and the replacement
was made on one side of it, or it is one of the symbols of the production. -/
inductive Origin (g : Grammar) (u before : List Symbol) (s : Symbol) (after : List Symbol) : Prop
  | keptBefore (after' : List Symbol) (hu : u = before ++ s :: after')
      (hstep : g.Produces after' after) : Origin g u before s after
  | keptAfter (before' : List Symbol) (hu : u = before' ++ s :: after)
      (hstep : g.Produces before' before) : Origin g u before s after
  | produced (left right x y : List Symbol) {nt p : Nat} {production : Production}
      (hp : g.production? nt p = some production) (hsymbols : production.symbols = x ++ s :: y)
      (hu : u = left ++ .nonTerminal nt :: right) (hbefore : before = left ++ x)
      (hafter : after = y ++ right) : Origin g u before s after

theorem Produces.origin {before after : List Symbol} {s : Symbol}
    (h : g.Produces u (before ++ s :: after)) : g.Origin u before s after := by
  generalize hv : before ++ s :: after = v at h
  cases h with
  | @replace left right nt p production hp =>
      -- The symbol is not on the left of what was replaced.
      have hinside : ∀ x, before = left ++ x → production.symbols ++ right = x ++ s :: after →
          g.Origin (left ++ .nonTerminal nt :: right) before s after := by
        intro x hbefore hright
        rcases List.append_eq_append_iff.1 hright with ⟨c, hx, hc⟩ | ⟨c, hsymbols, hc⟩
        · apply Origin.keptAfter (left ++ .nonTerminal nt :: c)
          · rw [hc, List.append_assoc, List.cons_append]
          · rw [hbefore, hx]
            exact .replace left c hp
        · cases c with
          | nil =>
              rw [List.append_nil] at hsymbols
              apply Origin.keptAfter (left ++ [.nonTerminal nt])
              · rw [List.nil_append] at hc
                rw [← hc, List.append_assoc, List.cons_append, List.nil_append]
              · rw [hbefore, ← hsymbols]
                simpa using Produces.replace left [] hp
          | cons s' y =>
              obtain ⟨rfl, rfl⟩ := List.cons.inj hc
              exact .produced left right x y hp hsymbols rfl hbefore rfl
      rcases List.append_eq_append_iff.1 hv with ⟨c, hleft, hc⟩ | ⟨x, hbefore, hright⟩
      · cases c with
        | nil =>
            rw [List.append_nil] at hleft
            apply hinside []
            · rw [hleft, List.append_nil]
            · exact hc.symm
        | cons s' c =>
            obtain ⟨rfl, rfl⟩ := List.cons.inj hc
            apply Origin.keptBefore (c ++ .nonTerminal nt :: right)
            · rw [hleft, List.append_assoc, List.cons_append]
            · exact .replace c right hp
      · exact hinside x hbefore hright

/-! ## Symbols that exist -/

theorem SymbolsExist.of_produces (hg : g.SymbolsExist) (h : g.Produces u v)
    (hu : ∀ s ∈ u, g.HasSymbol s) : ∀ s ∈ v, g.HasSymbol s := by
  cases h with
  | replace before after hp =>
      intro s hs
      rcases List.mem_append.1 hs with hs | hs
      · exact hu s (by simp [hs])
      rcases List.mem_append.1 hs with hs | hs
      · exact hg.of_production hp s hs
      · exact hu s (by simp [hs])

/-- Symbols that exist derive symbols that exist. -/
theorem SymbolsExist.of_derivesForm (hg : g.SymbolsExist) (h : g.DerivesForm u v)
    (hu : ∀ s ∈ u, g.HasSymbol s) : ∀ s ∈ v, g.HasSymbol s := by
  induction h with
  | refl => exact hu
  | tail _ hstep ih => exact hg.of_produces hstep ih

/-- Whatever a non-terminal derives but itself consists of symbols that exist. -/
theorem SymbolsExist.of_derivesForm_nonTerminal (hg : g.SymbolsExist) {nt : Nat}
    (h : g.DerivesForm [.nonTerminal nt] v) :
    v = [.nonTerminal nt] ∨ ∀ s ∈ v, g.HasSymbol s := by
  rcases Relation.ReflTransGen.cases_head h with rfl | ⟨w, hstep, hrest⟩
  · exact Or.inl rfl
  · obtain ⟨p, production, hp, rfl⟩ := exists_production_of_produces hstep
    exact Or.inr (hg.of_derivesForm hrest (hg.of_production hp))

end SmallLang.Grammar
