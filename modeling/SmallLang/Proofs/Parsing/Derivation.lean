import Mathlib.Data.List.Forall2
import SmallLang.Parsing.Fold

/-!
# Derivation trees

`Grammar.Derives g s t` says that `t` is a derivation tree of the symbol `s`, and
`Grammar.DerivesRow g ss ts` that `ts` are derivation trees of a row of symbols, one for each. A
derivation tree is a token of its terminal, or a node over a production with derivation trees of the
production's symbols (`Grammar.derives_node_iff`); `Grammar.Derives.rec_on` is the induction that
goes with this.

Tokens, meanings and derivations of a list of trees are read off its members.
-/

set_option autoImplicit false

namespace SmallLang

open List (Forall₂)

/-! ## Rows -/

theorem exists_append_of_forall₂ {α β : Type} {R : α → β → Prop} {xs ys : List α} {zs : List β}
    (h : Forall₂ R (xs ++ ys) zs) :
    ∃ us vs, zs = us ++ vs ∧ Forall₂ R xs us ∧ Forall₂ R ys vs := by
  induction xs generalizing zs with
  | nil => exact ⟨[], zs, rfl, .nil, h⟩
  | cons x xs ih =>
      cases h with
      | @cons _ z _ zs hx h =>
          obtain ⟨us, vs, rfl, hus, hvs⟩ := ih h
          exact ⟨z :: us, vs, rfl, .cons hx hus, hvs⟩

theorem forall₂_imp_of_mem {α β : Type} {R S : α → β → Prop} {xs : List α} {ys : List β}
    (h : Forall₂ R xs ys) (himp : ∀ x, ∀ y ∈ ys, R x y → S x y) : Forall₂ S xs ys := by
  induction h with
  | nil => exact .nil
  | cons hR _ ih =>
      refine .cons (himp _ _ List.mem_cons_self hR) (ih fun x y hy => ?_)
      exact himp x y (List.mem_cons_of_mem _ hy)

theorem forall₂_pair {α β : Type} {R : α → β → Prop} {x y : α} {zs : List β}
    (h : Forall₂ R [x, y] zs) : ∃ u v, zs = [u, v] ∧ R x u ∧ R y v := by
  cases h with
  | cons hx h =>
      cases h with
      | cons hy h =>
          cases h
          exact ⟨_, _, rfl, hx, hy⟩

namespace ParseTree

/-! ## Trees and their children -/

/-- Induction over a tree: a property that passes from all children of a node to the node, and that
holds of tokens, holds of every tree. -/
theorem induct {motive : ParseTree → Prop} (token : ∀ t, motive (.token t))
    (node : ∀ nt p children, (∀ c ∈ children, motive c) → motive (.node nt p children)) :
    ∀ t, motive t := by
  intro t
  refine @ParseTree.rec motive (fun ts => ∀ c ∈ ts, motive c) token ?_ ?_ ?_ t
  · intro nt p children ih
    exact node nt p children ih
  · intro c hc
    exact absurd hc List.not_mem_nil
  · intro t ts iht ihts c hc
    rcases List.mem_cons.1 hc with rfl | hc
    · exact iht
    · exact ihts c hc

theorem tokensAll_eq_flatMap (ts : List ParseTree) : tokensAll ts = ts.flatMap tokens := by
  induction ts with
  | nil => rfl
  | cons t ts ih => simp only [tokensAll, List.flatMap_cons, ih]

@[simp] theorem tokens_token (t : Token) : (token t).tokens = [t] := rfl

@[simp] theorem tokens_node (nt p : Nat) (children : List ParseTree) :
    (node nt p children).tokens = children.flatMap tokens := by
  rw [tokens, tokensAll_eq_flatMap]

theorem meaningAll_eq_map (g : Grammar) (ts : List ParseTree) :
    meaningAll g ts = ts.map (meaning g) := by
  induction ts with
  | nil => rfl
  | cons t ts ih => simp only [meaningAll, List.map_cons, ih]

@[simp] theorem meaning_token (g : Grammar) (t : Token) : (token t).meaning g = .plain t.value :=
  rfl

@[simp] theorem meaning_node (g : Grammar) (nt p : Nat) (children : List ParseTree) :
    (node nt p children).meaning g =
      .ofNode (g.constructionOf nt p) (children.map (meaning g)) := by
  rw [meaning, meaningAll_eq_map]

theorem allDerivations_iff (g : Grammar) (ts : List ParseTree) :
    AllDerivations g ts ↔ ∀ t ∈ ts, IsDerivation g t := by
  induction ts with
  | nil => simp [AllDerivations]
  | cons t ts ih => simp only [AllDerivations, List.forall_mem_cons, ih]

mutual

/-- Whether every node has the children that its production asks for can be tested. -/
def decidableIsDerivation (g : Grammar) : (t : ParseTree) → Decidable (IsDerivation g t)
  | token _ => .isTrue trivial
  | node _ _ children =>
      have := decidableAllDerivations g children
      inferInstanceAs (Decidable (_ ∧ _))

/-- The test on some trees. -/
def decidableAllDerivations (g : Grammar) :
    (ts : List ParseTree) → Decidable (AllDerivations g ts)
  | [] => .isTrue trivial
  | t :: ts =>
      have := decidableIsDerivation g t
      have := decidableAllDerivations g ts
      inferInstanceAs (Decidable (_ ∧ _))

end

instance (g : Grammar) (t : ParseTree) : Decidable (IsDerivation g t) := decidableIsDerivation g t

/-- The non-terminals of all nodes of a tree, each node before its children. -/
def nonTerminals : ParseTree → List Nat
  | token _ => []
  | node nt _ children => nt :: nonTerminalsAll children
where
  /-- The non-terminals of all nodes of some trees. -/
  nonTerminalsAll : List ParseTree → List Nat
    | [] => []
    | t :: ts => nonTerminals t ++ nonTerminalsAll ts

theorem nonTerminalsAll_eq_flatMap (ts : List ParseTree) :
    nonTerminals.nonTerminalsAll ts = ts.flatMap nonTerminals := by
  induction ts with
  | nil => rfl
  | cons t ts ih => simp only [nonTerminals.nonTerminalsAll, List.flatMap_cons, ih]

@[simp] theorem nonTerminals_token (t : Token) : (token t).nonTerminals = [] := rfl

@[simp] theorem nonTerminals_node (nt p : Nat) (children : List ParseTree) :
    (node nt p children).nonTerminals = nt :: children.flatMap nonTerminals := by
  rw [nonTerminals, nonTerminalsAll_eq_flatMap]

end ParseTree

namespace Grammar

variable {g : Grammar}

/-! ## Derivations of a symbol -/

/-- The tree is a derivation tree of the symbol. -/
def Derives (g : Grammar) (s : Symbol) (t : ParseTree) : Prop := t.root = s ∧ t.IsDerivation g

instance (g : Grammar) (s : Symbol) (t : ParseTree) : Decidable (g.Derives s t) :=
  inferInstanceAs (Decidable (_ ∧ _))

/-- The trees are derivation trees of the symbols of a row, one for each. -/
abbrev DerivesRow (g : Grammar) (ss : List Symbol) (ts : List ParseTree) : Prop :=
  Forall₂ g.Derives ss ts

theorem derivesRow_iff (ss : List Symbol) (ts : List ParseTree) :
    g.DerivesRow ss ts ↔ ts.map ParseTree.root = ss ∧ ∀ t ∈ ts, t.IsDerivation g := by
  induction ts generalizing ss with
  | nil => cases ss <;> simp
  | cons t ts ih =>
      cases ss with
      | nil => simp
      | cons s ss =>
          simp only [List.forall₂_cons, ih, Derives, List.map_cons, List.cons.injEq,
            List.forall_mem_cons]
          tauto

@[simp] theorem derives_token_iff {s : Symbol} {t : Token} :
    g.Derives s (.token t) ↔ s = .terminal t.terminal := by
  simp only [Derives, ParseTree.root, ParseTree.IsDerivation, and_true]
  exact eq_comm

theorem derives_node_iff {s : Symbol} {nt p : Nat} {children : List ParseTree} :
    g.Derives s (.node nt p children) ↔
      s = .nonTerminal nt ∧
        ∃ production, g.production? nt p = some production ∧
          g.DerivesRow production.symbols children := by
  simp only [Derives, ParseTree.root, ParseTree.IsDerivation, ParseTree.allDerivations_iff,
    derivesRow_iff, Option.map_eq_some_iff]
  constructor
  · rintro ⟨rfl, ⟨production, hp, hsymbols⟩, hall⟩
    exact ⟨rfl, production, hp, hsymbols.symm, hall⟩
  · rintro ⟨rfl, production, hp, hsymbols, hall⟩
    exact ⟨rfl, ⟨production, hp, hsymbols.symm⟩, hall⟩

/-- A node over a production with derivation trees of the production's symbols. -/
theorem Derives.node {nt p : Nat} {production : Production} {children : List ParseTree}
    (hp : g.production? nt p = some production)
    (hc : g.DerivesRow production.symbols children) :
    g.Derives (.nonTerminal nt) (.node nt p children) :=
  derives_node_iff.2 ⟨rfl, production, hp, hc⟩

theorem Derives.token (t : Token) : g.Derives (.terminal t.terminal) (.token t) :=
  derives_token_iff.2 rfl

/-- Only tokens derive from a terminal. -/
theorem derives_terminal_iff {i : Nat} {t : ParseTree} :
    g.Derives (.terminal i) t ↔ ∃ token, t = .token token ∧ token.terminal = i := by
  constructor
  · intro h
    cases t with
    | token token => exact ⟨token, rfl, (Symbol.terminal.inj (derives_token_iff.1 h)).symm⟩
    | node nt p children => exact absurd (derives_node_iff.1 h).1 (by simp)
  · rintro ⟨token, rfl, rfl⟩
    exact Derives.token token

/-- Only nodes derive from a non-terminal. -/
theorem derives_nonTerminal_iff {nt : Nat} {t : ParseTree} :
    g.Derives (.nonTerminal nt) t ↔
      ∃ p production children, t = .node nt p children ∧ g.production? nt p = some production ∧
        g.DerivesRow production.symbols children := by
  constructor
  · intro h
    cases t with
    | token token => exact absurd (derives_token_iff.1 h) (by simp)
    | node nt' p children =>
        obtain ⟨hnt, production, hp, hc⟩ := derives_node_iff.1 h
        obtain rfl := Symbol.nonTerminal.inj hnt
        exact ⟨p, production, children, rfl, hp, hc⟩
  · rintro ⟨p, production, children, rfl, hp, hc⟩
    exact Derives.node hp hc

theorem lt_size_of_production? {nt p : Nat} {production : Production}
    (h : g.production? nt p = some production) : nt < g.size := by
  unfold production? productionsOf at h
  by_contra hnt
  have hnone : g.nonTerminals[nt]? = none := List.getElem?_eq_none (Nat.le_of_not_lt hnt)
  simp [hnone] at h

theorem constructionOf_eq {nt i : Nat} {p : Production} (h : g.production? nt i = some p) :
    g.constructionOf nt i = p.construction := by
  rw [constructionOf, h]
  rfl

/-- A non-terminal with a derivation tree exists. -/
theorem lt_size_of_derives {nt : Nat} {t : ParseTree} (h : g.Derives (.nonTerminal nt) t) :
    nt < g.size := by
  obtain ⟨p, production, children, -, hp, -⟩ := derives_nonTerminal_iff.1 h
  exact lt_size_of_production? hp

/-- Induction over derivations: what holds of tokens, and passes from the children of a node to the
node, holds of every derivation tree. -/
@[elab_as_elim] theorem Derives.rec_on
    {motive : (s : Symbol) → (t : ParseTree) → g.Derives s t → Prop} {s : Symbol} {t : ParseTree}
    (h : g.Derives s t) (token : ∀ t, motive (.terminal t.terminal) (.token t) (Derives.token t))
    (node : ∀ nt p production children (hp : g.production? nt p = some production)
      (hc : g.DerivesRow production.symbols children),
      Forall₂ (fun s c => ∃ h, motive s c h) production.symbols children →
      motive (.nonTerminal nt) (.node nt p children) (Derives.node hp hc)) :
    motive s t h := by
  induction t using ParseTree.induct generalizing s with
  | token t =>
      obtain rfl := derives_token_iff.1 h
      exact token t
  | node nt p children ih =>
      obtain ⟨rfl, production, hp, hc⟩ := derives_node_iff.1 h
      refine node nt p production children hp hc ?_
      generalize production.symbols = symbols at hc
      clear h hp
      induction hc with
      | nil => exact .nil
      | @cons s c ss cs hs _ ihc =>
          exact .cons ⟨hs, ih c List.mem_cons_self hs⟩
            (ihc fun c' hc' => ih c' (List.mem_cons_of_mem _ hc'))

end Grammar

end SmallLang
