import SmallLang.Proofs.Mixed.Exact
import SmallLang.Proofs.Operator.Ending
import SmallLang.Proofs.Prefix.Tree

/-!
# Trees of a ladder with a sign in front

In the grammar of a mixture with one operator before its operand, what the parser makes has the shapes of
`Mixture.Grows`: in the ladder (`Describes.grows_ladder`), where a table without ties does not end a tail
before an operator of its level, and where there is no ladder because no operator stands between operands
(`Describes.grows_flat`). So the operands of the sign go as far as `operandOf` says in every tree that the
parser returns (`Describes.operandsOf_parse`).
-/

set_option autoImplicit false

namespace SmallLang

open List (Forall₂)
open ParseTree (Guided GuidedAll guided_node_iff guidedAll_cons_iff)
open Parser.Setup (lookahead)

/-- A row of trees begins with a token where its symbols begin with a terminal. -/
theorem Grammar.exists_token_of_derivesRow {g : Grammar} {i : Nat} {ss : List Symbol}
    {ts : List ParseTree} (h : g.DerivesRow (.terminal i :: ss) ts) :
    ∃ token rest, ts = .token token :: rest ∧ token.terminal = i ∧ g.DerivesRow ss rest := by
  obtain ⟨t, rest, ht, hrest, rfl⟩ := List.forall₂_cons_left_iff.1 h
  obtain ⟨token, rfl, htoken⟩ := derives_terminal_iff.1 ht
  exact ⟨token, rest, rfl, htoken, hrest⟩

/-- A production that begins with a terminal applies to it. -/
theorem Grammar.applies_of_terminal {g : Grammar} (hg : g.WellFormed) {nt p i : Nat}
    {production : Production} (hp : g.production? nt p = some production) {ss : List Symbol}
    (hsymbols : production.symbols = .terminal i :: ss) : g.Applies nt (.terminal i) p := by
  have hlt : g.HasSymbol (.terminal i) := hg.hasSymbol hp (hsymbols ▸ List.mem_cons_self)
  refine ⟨production, hp, Lookahead.admitted_iff.2 ⟨hlt, ?_⟩⟩
  have hstarts := FirstSet.starts_single (t := Mixture.Describes.tokenOf i) hlt []
  rw [hsymbols]
  exact Bool.or_eq_true_iff.2 (Or.inl hstarts.2)

namespace Mixture

variable {m : Mixture} {x : Sign} {g : Grammar}

theorem SoleBefore.between (hx : m.SoleBefore x) {o : Sign} (ho : o ∈ m.operators)
    (hc : o.Continues) : o.fixity = .between :=
  (hx.others o ho).resolve_left fun heq => hc (heq ▸ hx.before)

theorem SoleBefore.eq (hx : m.SoleBefore x) {o : Sign} (ho : o ∈ m.operators)
    (hbefore : o.fixity = .before) : o = x :=
  (hx.others o ho).resolve_right fun hbetween => Fixity.noConfusion (hbefore.symm.trans hbetween)

theorem continues_of_between {o : Sign} (h : o.fixity = .between) : o.Continues := by
  simp [Sign.Continues, h]

namespace Describes

section Ladder

variable (d : m.Describes g) (hx : m.SoleBefore x)
include d

/-- No level is above the tightest one. -/
theorem above_height : m.Above (m.level g) (g.ladder m.base).height :=
  fun _ ho hbetween => d.level_lt ho (continues_of_between hbetween)

/-- The operand of a sign in front is the level that limits it. -/
theorem exists_limits (hladder : g.HasLadder m.base) (x : Sign) :
    ∃ j ≤ (g.ladder m.base).height, (g.ladder m.base).prefixOperand x.prec = (g.ladder m.base).head j ∧
      m.Limits x (m.level g) j := by
  rcases (g.ladder m.base).prefixOperand_spec x.prec with
    ⟨k, p, hp, hadmits, hfirst, heq⟩ | ⟨hnone, heq⟩
  · refine ⟨k, Nat.le_of_lt (List.getElem?_eq_some_iff.1 hp).1, heq, fun o ho hbetween => ?_⟩
    have hlevel := d.getElem?_level ho (continues_of_between hbetween)
    constructor
    · intro hle
      exact hadmits.of_le ((g.sorted_ladder m.base).le_of_getElem? hp hlevel hle)
    · intro h
      by_contra hlt
      exact hfirst _ (Nat.lt_of_not_le hlt) _ hlevel h
  · refine ⟨_, Nat.le_refl _, heq.trans (Ladder.atom_eq_head hladder.height_pos), ?_⟩
    intro o ho hbetween
    have hc := continues_of_between hbetween
    refine iff_of_false (Nat.not_le.2 (d.level_lt ho hc)) (hnone _ ?_)
    exact List.mem_of_getElem? (d.getElem?_level ho hc)

variable {table : ParseTable}

include hx in
/-- What an atom grows to, if what is inside it grows. -/
theorem grows_atom (hladder : g.HasLadder m.base) {nt p : Nat} {q : Production}
    (hq : q ∈ g.stratify.productionsOf (g.ladder m.base).atom) {children : List ParseTree}
    (hrow : g.stratify.DerivesRow q.symbols children) {rest : List Token}
    (hguided : GuidedAll table children rest)
    (ih : ∀ c ∈ children, ∀ k ≤ (g.ladder m.base).height,
      g.stratify.Derives (.nonTerminal ((g.ladder m.base).head k)) c → ∀ rest, Guided table c rest →
        m.Grows x (m.level g) .operand k c rest) :
    m.Grows x (m.level g) .operand (g.ladder m.base).height (.node nt p children) rest := by
  have habove := d.above_height
  obtain ⟨t, ss, hsymbols, hatom⟩ := d.atom_cases hladder hq
  generalize q.prec = prec at hatom
  rw [hsymbols] at hrow
  obtain ⟨token, after, rfl, htoken, hafter⟩ := Grammar.exists_token_of_derivesRow hrow
  cases hatom with
  | parens =>
      obtain ⟨inner, _, hinner, hends, rfl⟩ := List.forall₂_cons_left_iff.1 hafter
      obtain ⟨closing, _, rfl, hclosing, hnil⟩ := Grammar.exists_token_of_derivesRow hends
      obtain rfl := List.forall₂_nil_left_iff.1 hnil
      have hguided' := (guidedAll_cons_iff.1 (guidedAll_cons_iff.1 hguided).2).1
      refine .parens nt p htoken hclosing (ih inner (by simp) 0 (Nat.zero_le _) hinner _ ?_) habove
      exact hguided'
  | number =>
      obtain rfl := List.forall₂_nil_left_iff.1 hafter
      exact .number nt p rest htoken habove
  | before o ho hbefore =>
      obtain rfl := hx.eq ho hbefore
      obtain ⟨operand, _, hoperand, hnil, rfl⟩ := List.forall₂_cons_left_iff.1 hafter
      obtain rfl := List.forall₂_nil_left_iff.1 hnil
      obtain ⟨j, hj, heq, hlimits⟩ := d.exists_limits hladder o
      have hguided' := (guidedAll_cons_iff.1 (guidedAll_cons_iff.1 hguided).2).1
      exact .signed nt p htoken hlimits (ih operand (by simp) j hj (heq ▸ hoperand) _ hguided') habove

include hx in
/-- What a tail with an operator grows to, if its operand and the tail after it grow. -/
theorem grows_tail {o : Sign} (ho : o ∈ m.operators) (hc : o.Continues) {nt p : Nat}
    {children : List ParseTree} (hrow : g.stratify.DerivesRow (m.tailSymbols g o) children)
    {rest : List Token} (hguided : GuidedAll table children rest)
    (ih : ∀ c ∈ children,
      (∀ k ≤ (g.ladder m.base).height,
        g.stratify.Derives (.nonTerminal ((g.ladder m.base).head k)) c →
          ∀ rest, Guided table c rest → m.Grows x (m.level g) .operand k c rest) ∧
      ∀ k < (g.ladder m.base).height,
        g.stratify.Derives (.nonTerminal ((g.ladder m.base).tail k)) c →
          ∀ rest, Guided table c rest → m.Grows x (m.level g) .tail k c rest) :
    m.Grows x (m.level g) .tail (m.level g o) (.node nt p children) rest := by
  have hbetween := hx.between ho hc
  have hlt := d.level_lt ho hc
  rw [tailSymbols, hbetween] at hrow
  dsimp only at hrow
  split at hrow
  · obtain ⟨token, _, rfl, htoken, hafter⟩ := Grammar.exists_token_of_derivesRow hrow
    obtain ⟨operand, _, hoperand, hnil, rfl⟩ := List.forall₂_cons_left_iff.1 hafter
    obtain rfl := List.forall₂_nil_left_iff.1 hnil
    have hfirst := (guidedAll_cons_iff.1 (guidedAll_cons_iff.1 hguided).2).1
    exact .right nt p ho hbetween htoken
      ((ih operand (by simp)).1 _ (Nat.le_of_lt hlt) hoperand _ hfirst)
  · obtain ⟨token, _, rfl, htoken, hafter⟩ := Grammar.exists_token_of_derivesRow hrow
    obtain ⟨operand, tail, rfl, hoperand, htail⟩ := forall₂_pair hafter
    obtain ⟨hfirst, hlast⟩ := guidedAll_cons_iff.1 (guidedAll_cons_iff.1 hguided).2
    have hlast := (guidedAll_cons_iff.1 hlast).1
    refine .left nt p ho hbetween htoken ((ih operand (by simp)).1 _ hlt hoperand _ ?_)
      ((ih tail (by simp)).2 _ hlt htail _ hlast)
    simpa using hfirst

variable (htable : g.stratify.parseTable g.stratify.firstTable
  (g.stratify.followTable g.stratify.firstTable) = .ok table)
include htable

/-- A tail does not end before an operator of its level. -/
theorem next_of_end {k i : Nat} {rest : List Token}
    (hi : g.stratify.production? ((g.ladder m.base).tail k) i = some Ladder.endProduction)
    (hget : table.get? ((g.ladder m.base).tail k) (lookahead rest) = some i) :
    m.Next (m.level g) (· ≠ k) rest := by
  rintro t ht o ho hbetween hterminal rfl
  obtain ⟨types, hstaged⟩ := d.staged
  have hc := continues_of_between hbetween
  obtain ⟨p, hp, hsymbols, -⟩ := d.exists_tail ho hc
  obtain ⟨ss, hss⟩ := exists_tailSymbols m g o
  obtain ⟨j, hj⟩ := Grammar.mem_productionsOf_iff.1 hp
  have hends : g.stratify.EndsTail ((g.ladder m.base).tail (m.level g o)) i := by
    rw [Grammar.EndsTail, hi]
    rfl
  have hne : j ≠ i := by
    rintro rfl
    rw [Option.some.inj (hj.symm.trans hi), hss] at hsymbols
    exact absurd hsymbols (by simp [Ladder.endProduction])
  have htakes := hstaged.takesOperator_of_ne d.base_lt (d.getElem?_level ho hc) hends hj hne
  have happlies := Grammar.applies_of_terminal
    (hstaged.wellFormed_stratify (d.start ▸ d.base_lt)) hj (hsymbols.trans hss)
  have hla : lookahead rest = .terminal o.terminal := by
    obtain ⟨rest', rfl⟩ := List.head?_eq_some_iff.1 ht
    rw [← hterminal]
    rfl
  exact hstaged.get?_ne_of_endsTail hends htakes happlies htable (hla ▸ hget)

include hx in
/-- In the ladder, what the parser makes of a level grows to an operand and a tail of the level. -/
theorem grows_ladder (hladder : g.HasLadder m.base) (t : ParseTree) :
    (∀ k ≤ (g.ladder m.base).height,
        g.stratify.Derives (.nonTerminal ((g.ladder m.base).head k)) t →
          ∀ rest, Guided table t rest → m.Grows x (m.level g) .operand k t rest) ∧
      ∀ k < (g.ladder m.base).height,
        g.stratify.Derives (.nonTerminal ((g.ladder m.base).tail k)) t →
          ∀ rest, Guided table t rest → m.Grows x (m.level g) .tail k t rest := by
  induction t using ParseTree.induct with
  | token t =>
      exact ⟨fun k _ h => absurd (Grammar.derives_token_iff.1 h) Symbol.noConfusion,
        fun k _ h => absurd (Grammar.derives_token_iff.1 h) Symbol.noConfusion⟩
  | node nt p children ih =>
      constructor
      · intro k hk h rest hguided
        obtain ⟨hnt, q, hq, hrow⟩ := Grammar.derives_node_iff.1 h
        obtain rfl := Symbol.nonTerminal.inj hnt
        obtain ⟨-, hchildren⟩ := guided_node_iff.1 hguided
        have hmem := Grammar.mem_productionsOf_iff.2 ⟨p, hq⟩
        -- A level below the highest one climbs to the next, the highest one is that of the atoms.
        rcases Nat.lt_or_eq_of_le hk with hlt | rfl
        · obtain ⟨climb, honly, hsymbols⟩ := d.productionsOf_head hlt
          rw [honly, List.mem_singleton] at hmem
          rw [hmem, hsymbols] at hrow
          obtain ⟨operand, tail, rfl, hoperand, htail⟩ := forall₂_pair hrow
          obtain ⟨hfirst, hlast⟩ := guidedAll_cons_iff.1 hchildren
          have hlast := (guidedAll_cons_iff.1 hlast).1
          refine .climb _ p ((ih operand (by simp)).1 (k + 1) hlt hoperand _ ?_)
            ((ih tail (by simp)).2 k hlt htail _ hlast)
          simpa using hfirst
        · rw [← Ladder.atom_eq_head hladder.height_pos] at hmem
          exact d.grows_atom hx hladder hmem hrow hchildren fun c hc => (ih c hc).1
      · intro k hk h rest hguided
        obtain ⟨hnt, q, hq, hrow⟩ := Grammar.derives_node_iff.1 h
        obtain rfl := Symbol.nonTerminal.inj hnt
        obtain ⟨hget, hchildren⟩ := guided_node_iff.1 hguided
        rcases d.tail_cases hk (Grammar.mem_productionsOf_iff.2 ⟨p, hq⟩) with
          ⟨o, ho, hc, rfl, hsymbols, -⟩ | rfl
        · exact d.grows_tail hx ho hc (hsymbols ▸ hrow) hchildren fun c hc => ih c hc
        · obtain rfl := List.forall₂_nil_left_iff.1 hrow
          exact .nothing _ p (d.next_of_end htable hq (by simpa using hget))

end Ladder

/-- Where no operator stands between operands there is no ladder, and what the parser makes of any type
grows from numbers, parentheses and signs. -/
theorem grows_flat (d : m.Describes g) (hx : m.SoleBefore x) (hladder : ¬ g.HasLadder m.base)
    (level : Sign → Nat) (k : Nat) {t : ParseTree} (rest : List Token) {nt : Nat}
    (h : g.Derives (.nonTerminal nt) t) : m.Grows x level .operand k t rest := by
  have hnone : ∀ {o : Sign}, o ∈ m.operators → o.fixity = .between → False := fun ho hbetween =>
    hladder (d.hasLadder ho (continues_of_between hbetween))
  have habove : m.Above level k := fun o ho hbetween => (hnone ho hbetween).elim
  -- No operator stands between operands, so every place is above all of them.
  induction t using ParseTree.induct generalizing nt k rest with
  | token t => exact absurd (Grammar.derives_token_iff.1 h) Symbol.noConfusion
  | node nt' p children ih =>
      obtain ⟨-, q, hq, hrow⟩ := Grammar.derives_node_iff.1 h
      have hform := d.form _ q (Grammar.mem_productionsOf_iff.2 ⟨p, hq⟩)
      clear hq
      cases hform with
      | parens c =>
          obtain ⟨a, _, rfl, ha, hinside⟩ := Grammar.exists_token_of_derivesRow hrow
          obtain ⟨inner, _, hinner, hends, rfl⟩ := List.forall₂_cons_left_iff.1 hinside
          obtain ⟨b, _, rfl, hb, hnil⟩ := Grammar.exists_token_of_derivesRow hends
          obtain rfl := List.forall₂_nil_left_iff.1 hnil
          exact .parens _ p ha hb (ih inner (by simp) 0 _ hinner fun o ho hbetween =>
            (hnone ho hbetween).elim) habove
      | number c =>
          obtain ⟨token, _, rfl, htoken, hnil⟩ := Grammar.exists_token_of_derivesRow hrow
          obtain rfl := List.forall₂_nil_left_iff.1 hnil
          exact .number _ p rest htoken habove
      | numberUnit =>
          obtain ⟨operand, _, hoperand, hnil, rfl⟩ := List.forall₂_cons_left_iff.1 hrow
          obtain rfl := List.forall₂_nil_left_iff.1 hnil
          exact .unit _ p (ih operand (by simp) k rest hoperand habove)
      | operator o ho c =>
          have hbefore := (hx.others o ho).elim (fun heq => heq ▸ hx.before)
            fun hbetween => (hnone ho hbetween).elim
          obtain rfl := hx.eq ho hbefore
          simp only [Sign.symbols, hbefore] at hrow
          obtain ⟨token, _, rfl, htoken, hafter⟩ := Grammar.exists_token_of_derivesRow hrow
          obtain ⟨operand, _, hoperand, hnil, rfl⟩ := List.forall₂_cons_left_iff.1 hafter
          obtain rfl := List.forall₂_nil_left_iff.1 hnil
          exact .signed _ p htoken (fun o ho hbetween => (hnone ho hbetween).elim)
            (ih operand (by simp) 0 rest hoperand fun o ho hbetween => (hnone ho hbetween).elim)
            habove
      | operatorUnit o ho =>
          obtain ⟨operand, _, hoperand, hnil, rfl⟩ := List.forall₂_cons_left_iff.1 hrow
          obtain rfl := List.forall₂_nil_left_iff.1 hnil
          exact .unit _ p (ih operand (by simp) k rest hoperand habove)

/-- In every tree that the parser returns, the operand of each sign in front is what `operandOf` reads off
the tokens after the sign. -/
theorem operandsOf_parse (d : m.Describes g) (hx : m.SoleBefore x) {table : ParseTable}
    (htable : g.stratify.parseTable g.stratify.firstTable
      (g.stratify.followTable g.stratify.firstTable) = .ok table)
    {tokens : List Token} {t : ParseTree} (ht : Parser.parse g.stratify table tokens = .ok t) :
    m.OperandsOf x t [] := by
  have hfits : table.Fits g.stratify := by
    rw [(Grammar.parseTable_eq_ok htable).1]
    exact Grammar.fits_allCells _ _ _
  obtain ⟨hderives, -⟩ := Parser.derives_of_parse hfits ht
  rw [d.stratify_start] at hderives
  by_cases hladder : g.HasLadder m.base
  · have hhead : (g.ladder m.base).head 0 = m.base := Ladder.head_zero _
    have hgrows := (d.grows_ladder hx htable hladder t).1 0 (Nat.zero_le _) (hhead.symm ▸ hderives) []
      (Parser.guided_of_parse ht)
    exact hgrows.operandsOf hx endsOperand_nil
  · rw [d.stratify_eq hladder] at hderives
    exact (d.grows_flat hx hladder (m.level g) 0 [] hderives).operandsOf hx endsOperand_nil

end Describes

end Mixture

end SmallLang
