import SmallLang.Proofs.Language
import SmallLang.Proofs.Mixed.Greedy

/-!
# Which mixtures keep all words

The stratified grammar accepts every word of the grammar it was made of, if and only if the operators
that stand after their operand bind tightest (`Describes.accepts_iff`). One direction is the greedy
reading; where no operator has a left operand, stratification changes nothing, and what a production
begins with tells which one it is (`Describes.best_of_not_hasLadder`). For the other direction, a number
and an operator after it are followed by no tighter operator in the stratified grammar
(`Describes.tightFrom_of_derives`), while the grammar it was made of goes on with any operator.
-/

set_option autoImplicit false

namespace SmallLang

namespace Mixture

variable {m : Mixture} {g : Grammar}

/-! ## Without a ladder -/

/-- The terminal that a production begins with, and its precedence, where no operator has a left
operand. -/
inductive Start (m : Mixture) : Nat → Nat → Prec → Prop
  | parens : Start m m.base m.opening m.parensPrec
  | number : Start m m.numberType m.number m.numberPrec
  | numberUnit : Start m m.base m.number m.numberReplaces
  | operator (o : Sign) (ho : o ∈ m.operators) : Start m o.owner o.terminal o.prec
  | operatorUnit (o : Sign) (ho : o ∈ m.operators) : Start m m.base o.terminal o.replaces

theorem Start.of_numberType {t : Nat} {prec : Prec} (h : m.Start m.numberType t prec) :
    t = m.number := by
  generalize hnt : m.numberType = nt at h
  cases h with
  | parens => exact absurd hnt numberType_ne_base
  | number => rfl
  | numberUnit => rfl
  | operator o ho => exact absurd hnt.symm (owner_ne_numberType ho)
  | operatorUnit o ho => exact absurd hnt numberType_ne_base

theorem Start.of_owner {o : Sign} (ho : o ∈ m.operators) {t : Nat} {prec : Prec}
    (h : m.Start o.owner t prec) : t = o.terminal := by
  generalize hnt : o.owner = nt at h
  cases h with
  | parens => exact absurd hnt (owner_ne_base ho)
  | number => exact absurd hnt (owner_ne_numberType ho)
  | numberUnit => exact absurd hnt (owner_ne_base ho)
  | operator p hp => rw [eq_of_owner_eq ho hp hnt]
  | operatorUnit p hp => exact absurd hnt (owner_ne_base ho)

/-- Productions of one non-terminal that begin with one terminal have one precedence. -/
theorem Start.prec_unique {nt t : Nat} {prec prec' : Prec} (h : m.Start nt t prec)
    (h' : m.Start nt t prec') : prec = prec' := by
  cases h with
  | parens =>
      generalize hnt : m.base = nt at h'
      generalize ht : m.opening = t at h'
      cases h' with
      | parens => rfl
      | number => exact absurd hnt.symm numberType_ne_base
      | numberUnit => exact absurd ht.symm number_ne_opening
      | operator o ho => exact absurd hnt.symm (owner_ne_base ho)
      | operatorUnit o ho => exact absurd ht.symm (terminal_ne_opening ho)
  | number =>
      generalize hnt : m.numberType = nt at h'
      generalize m.number = t at h'
      cases h' with
      | parens => exact absurd hnt numberType_ne_base
      | number => rfl
      | numberUnit => exact absurd hnt numberType_ne_base
      | operator o ho => exact absurd hnt.symm (owner_ne_numberType ho)
      | operatorUnit o ho => exact absurd hnt numberType_ne_base
  | numberUnit =>
      generalize hnt : m.base = nt at h'
      generalize ht : m.number = t at h'
      cases h' with
      | parens => exact absurd ht number_ne_opening
      | number => exact absurd hnt.symm numberType_ne_base
      | numberUnit => rfl
      | operator o ho => exact absurd hnt.symm (owner_ne_base ho)
      | operatorUnit o ho => exact absurd ht.symm (terminal_ne_number ho)
  | operator o ho =>
      generalize hnt : o.owner = nt at h'
      generalize o.terminal = t at h'
      cases h' with
      | parens => exact absurd hnt (owner_ne_base ho)
      | number => exact absurd hnt (owner_ne_numberType ho)
      | numberUnit => exact absurd hnt (owner_ne_base ho)
      | operator p hp => rw [eq_of_owner_eq ho hp hnt]
      | operatorUnit p hp => exact absurd hnt (owner_ne_base ho)
  | operatorUnit o ho =>
      generalize hnt : m.base = nt at h'
      generalize ht : o.terminal = t at h'
      cases h' with
      | parens => exact absurd ht (terminal_ne_opening ho)
      | number => exact absurd hnt.symm numberType_ne_base
      | numberUnit => exact absurd ht (terminal_ne_number ho)
      | operator p hp => exact absurd hnt.symm (owner_ne_base hp)
      | operatorUnit p hp => rw [eq_of_terminal_eq ho hp ht]

namespace Describes

/-- Without operators that have a left operand no production is empty. -/
theorem not_nullRow (d : m.Describes g) {nt i : Nat} {p : Production}
    (hp : g.production? nt i = some p) : ¬ Grammar.NullRow (fun _ => False) p.symbols := by
  have hne : p.symbols ≠ [] := by
    cases d.form nt p (Grammar.mem_productionsOf_iff.2 ⟨i, hp⟩) with
    | operator o ho c =>
        cases hfixity : o.fixity <;> simp [Sign.symbols, hfixity]
    | _ => simp
  intro hnull
  obtain ⟨s, hs⟩ := List.exists_mem_of_ne_nil _ hne
  obtain ⟨-, -, hfalse⟩ := hnull s hs
  exact hfalse

/-- Without operators that have a left operand, what a production begins with comes with its
precedence. -/
theorem start_of_firstInRow (d : m.Describes g) (hladder : ¬ g.HasLadder m.base) {nt i t : Nat}
    {p : Production} (hp : g.production? nt i = some p)
    (ht : Grammar.FirstInRow (fun _ => False) (fun nt t => ∃ prec, m.Start nt t prec) p.symbols t) :
    m.Start nt t p.prec := by
  cases d.form nt p (Grammar.mem_productionsOf_iff.2 ⟨i, hp⟩) with
  | parens c =>
      obtain rfl : t = m.opening := ht
      exact .parens
  | number c =>
      obtain rfl : t = m.number := ht
      exact .number
  | numberUnit =>
      obtain ⟨prec, hstart⟩ | ⟨hfalse, -⟩ := ht
      · rw [hstart.of_numberType]
        exact .numberUnit
      · exact hfalse.elim
  | operator o ho c =>
      have hnone : ¬ o.Continues := fun hc => hladder (d.hasLadder ho hc)
      simp only [Sign.symbols, Decidable.not_not.1 hnone] at ht
      obtain rfl : t = o.terminal := ht
      exact .operator o ho
  | operatorUnit o ho =>
      obtain ⟨prec, hstart⟩ | ⟨hfalse, -⟩ := ht
      · rw [hstart.of_owner ho]
        exact .operatorUnit o ho
      · exact hfalse.elim

/-- Without operators that have a left operand no production is preferred to another one. -/
theorem best_of_not_hasLadder (d : m.Describes g) (hladder : ¬ g.HasLadder m.base) (nt p : Nat)
    (la : Lookahead) : g.Best nt p la := by
  have hclosed : g.FirstClosed (fun _ => False) fun nt t => ∃ prec, m.Start nt t prec :=
    ⟨fun _ _ _ hp hnull => d.not_nullRow hp hnull,
      fun _ _ _ _ hp ht => ⟨_, d.start_of_firstInRow hladder hp ht⟩⟩
  have hstart : ∀ {i : Nat} {production : Production}, g.production? nt i = some production →
      la.admits (g.firstTable.ofSymbols production.symbols)
        ((g.followTable g.firstTable).get nt) = true →
      ∃ t, la = .terminal t ∧ m.Start nt t production.prec := by
    intro i production hp hadmits
    have hfirst := Grammar.within_ofSymbols hclosed.within_firstTable production.symbols
    have hfollow : Grammar.FollowWithin ((g.followTable g.firstTable).get nt) True fun _ => True :=
      ⟨fun _ => trivial, fun _ _ => trivial⟩
    rcases Lookahead.cases_of_admits hadmits hfirst hfollow with ⟨t, rfl, ht | ⟨hnull, -⟩⟩ | hnull
    · exact ⟨t, rfl, d.start_of_firstInRow hladder hp ht⟩
    · exact absurd hnull (d.not_nullRow hp)
    · exact absurd hnull (d.not_nullRow hp)
  intro production hp q production' hq _ hadmits hadmits'
  obtain ⟨t, rfl, ht⟩ := hstart hp hadmits
  obtain ⟨t', heq, ht'⟩ := hstart hq hadmits'
  obtain rfl := Lookahead.terminal.inj heq
  rw [ht.prec_unique ht']
  exact Int32.le_refl _

/-! ## What the stratified grammar accepts -/

theorem stratify_start (d : m.Describes g) : g.stratify.start = m.base := by
  rw [Grammar.stratify_eq_stage, Grammar.stage_start, d.start]

/-- Where suffixes bind tightest, the table of the stratified grammar leads to a tree for every word. -/
theorem exists_parse (d : m.Describes g) (htight : m.SuffixesTightest) {table : ParseTable}
    (htable : g.stratify.parseTable g.stratify.firstTable
      (g.stratify.followTable g.stratify.firstTable) = .ok table)
    {t : ParseTree} (ht : g.Derives (.nonTerminal g.start) t) :
    ∃ t', Parser.parse g.stratify table t.tokens = .ok t' := by
  obtain ⟨types, hstaged⟩ := d.staged
  have hstart : g.start < g.size := by
    rw [d.start]
    exact d.base_lt
  have hwell := hstaged.wellFormed_stratify hstart
  obtain ⟨t', ht', htokens, hpreferred⟩ : ∃ t',
      g.stratify.Derives (.nonTerminal g.stratify.start) t' ∧ t'.tokens = t.tokens ∧
        g.stratify.Preferred t' [] := by
    by_cases hladder : g.HasLadder m.base
    · exact d.exists_preferred hladder htight (d.word_of_derives ht)
    · refine ⟨t, ?_, rfl, ?_⟩
      · rw [d.stratify_start, ← d.start, d.stratify_eq hladder]
        exact ht
      · rw [d.stratify_eq hladder]
        exact Grammar.preferred_of_best (d.best_of_not_hasLadder hladder) t []
  have hguided := hpreferred.guided hwell htable ht' (Grammar.canPrecede_start hwell)
  rw [← htokens]
  exact ⟨t', Parser.parse_eq_ok_of_guided ht' hguided⟩

/-! ## What the stratified grammar does not derive -/

/-- A tail begins with an operator of its level, and after a suffix it goes on. -/
theorem cases_of_derives_tail (d : m.Describes g) {k : Nat} (hk : k < (g.ladder m.base).height)
    {t : ParseTree} (h : g.stratify.Derives (.nonTerminal ((g.ladder m.base).tail k)) t)
    {s : Token} {rest : List Token} (htokens : t.tokens = s :: rest) :
    ∃ o ∈ m.operators, s.terminal = o.terminal ∧ m.level g o = k ∧
      (o.fixity = .after → ∃ t', t'.tokens = rest ∧
        g.stratify.Derives (.nonTerminal ((g.ladder m.base).tail k)) t') := by
  obtain ⟨p, production, children, rfl, hp, hc⟩ := Grammar.derives_nonTerminal_iff.1 h
  rcases d.tail_cases hk (Grammar.mem_productionsOf_iff.2 ⟨p, hp⟩) with
    ⟨o, ho, -, hlevel, hsymbols, -⟩ | rfl
  · obtain ⟨ss, hss⟩ := exists_tailSymbols m g o
    rw [hsymbols, hss] at hc
    obtain _ | ⟨hsign, hcs⟩ := hc
    obtain ⟨sign, rfl, hterminal⟩ := Grammar.derives_terminal_iff.1 hsign
    simp only [ParseTree.tokens_node, List.flatMap_cons, ParseTree.tokens_token,
      List.singleton_append, List.cons.injEq] at htokens
    obtain ⟨rfl, rfl⟩ := htokens
    refine ⟨o, ho, hterminal, hlevel, fun hafter => ?_⟩
    simp only [tailSymbols, hafter, List.cons.injEq, true_and] at hss
    rw [← hss, hlevel] at hcs
    obtain _ | ⟨htail, _ | _⟩ := hcs
    exact ⟨_, by simp, htail⟩
  · obtain _ | _ := hc
    exact absurd htokens (by simp)

/-- In a word that begins with a number and an operator after it, the operator is at the level or a
tighter one, and no tighter operator comes after a suffix. -/
def TightFrom (m : Mixture) (g : Grammar) (k : Nat) (ts : List Token) : Prop :=
  ∀ x y rest, ts = x :: y :: rest → x.terminal = m.number →
    ∀ o ∈ m.operators, y.terminal = o.terminal → k ≤ m.level g o ∧
      (o.fixity = .after → ∀ z rest', rest = z :: rest' →
        ∀ p ∈ m.operators, z.terminal = p.terminal → m.level g p ≤ m.level g o)

/-- An atom that begins with a number is this number. -/
theorem eq_nil_of_derives_atom (d : m.Describes g) (hladder : g.HasLadder m.base) {i : Nat}
    {production : Production} {children : List ParseTree}
    (hi : g.stratify.production? (g.ladder m.base).atom i = some production)
    (hc : g.stratify.DerivesRow production.symbols children) {x : Token} {rest : List Token}
    (htokens : children.flatMap ParseTree.tokens = x :: rest) (hx : x.terminal = m.number) :
    rest = [] := by
  obtain ⟨a, ss, hsymbols, hatom⟩ := d.atom_cases hladder (Grammar.mem_productionsOf_iff.2 ⟨i, hi⟩)
  rw [hsymbols] at hc
  obtain _ | ⟨hfirst, hcs⟩ := hc
  obtain ⟨token, rfl, ha⟩ := Grammar.derives_terminal_iff.1 hfirst
  simp only [List.flatMap_cons, ParseTree.tokens_token, List.singleton_append,
    List.cons.injEq] at htokens
  obtain ⟨rfl, htokens⟩ := htokens
  rw [← ha, hx] at hatom
  generalize hnumber : m.number = n at hatom
  generalize production.prec = prec at hatom
  cases hatom with
  | parens => exact absurd hnumber number_ne_opening
  | before p hp _ => exact absurd hnumber.symm (terminal_ne_number hp)
  | number =>
      obtain _ | _ := hcs
      exact htokens.symm

/-- What stands before a tail is of the next level: the operator is the first of the tail, or the operand
holds it already. -/
theorem tightFrom_append (d : m.Describes g) {k : Nat} (hk : k < (g.ladder m.base).height)
    {us : List Token} (hus : TightFrom m g (k + 1) us) {v : ParseTree}
    (htail : g.stratify.Derives (.nonTerminal ((g.ladder m.base).tail k)) v) :
    TightFrom m g k (us ++ v.tokens) := by
  intro x y rest htokens hx o ho hy
  match us with
  | [] =>
      obtain ⟨p, hp, hxp, -⟩ := d.cases_of_derives_tail hk htail htokens
      exact absurd (hxp.symm.trans hx) (terminal_ne_number hp)
  | [x'] =>
      rw [List.singleton_append, List.cons.injEq] at htokens
      obtain ⟨o', ho', hyo', hlevel, hsuffix⟩ := d.cases_of_derives_tail hk htail htokens.2
      obtain rfl := eq_of_terminal_eq ho ho' (hy.symm.trans hyo')
      refine ⟨Nat.le_of_eq hlevel.symm, fun hafter z rest' hrest p hp hz => ?_⟩
      obtain ⟨v', hv', htail'⟩ := hsuffix hafter
      obtain ⟨p', hp', hzp', hlevel', -⟩ := d.cases_of_derives_tail hk htail' (hv'.trans hrest)
      rw [eq_of_terminal_eq hp hp' (hz.symm.trans hzp'), hlevel', hlevel]
  | x' :: y' :: us =>
      rw [List.cons_append, List.cons_append, List.cons.injEq, List.cons.injEq] at htokens
      obtain ⟨rfl, rfl, rfl⟩ := htokens
      obtain ⟨hle, hnext⟩ := hus x' y' us rfl hx o ho hy
      refine ⟨Nat.le_of_succ_le hle, fun hafter z rest' hrest p hp hz => ?_⟩
      cases us with
      | cons z' us =>
          rw [List.cons_append, List.cons.injEq] at hrest
          exact hnext hafter z us (by rw [hrest.1]) p hp hz
      | nil =>
          obtain ⟨p', hp', hzp', hlevel', -⟩ := d.cases_of_derives_tail hk htail hrest
          rw [eq_of_terminal_eq hp hp' (hz.symm.trans hzp'), hlevel']
          exact Nat.le_of_succ_le hle

/-- What a level derives is tight from this level on. -/
theorem tightFrom_of_derives (d : m.Describes g) (hladder : g.HasLadder m.base) {s : Symbol}
    {t : ParseTree} (h : g.stratify.Derives s t) :
    ∀ k ≤ (g.ladder m.base).height, s = .nonTerminal ((g.ladder m.base).head k) →
      TightFrom m g k t.tokens := by
  induction h using Grammar.Derives.rec_on with
  | token t => exact fun k _ hs => Symbol.noConfusion hs
  | node nt i production children hi hc ih =>
      intro k hk hs
      obtain rfl := Symbol.nonTerminal.inj hs
      rw [ParseTree.tokens_node]
      rcases Nat.eq_or_lt_of_le hk with rfl | hlt
      · intro x y rest htokens hx
        rw [← Ladder.atom_eq_head hladder.height_pos] at hi
        exact absurd (d.eq_nil_of_derives_atom hladder hi hc htokens hx) (List.cons_ne_nil y rest)
      · obtain ⟨q, hq, hsymbols⟩ := d.productionsOf_head hlt
        have hmem := Grammar.mem_productionsOf_iff.2 ⟨i, hi⟩
        rw [hq, List.mem_singleton] at hmem
        rw [hmem, hsymbols] at ih
        obtain _ | ⟨⟨-, ihu⟩, _ | ⟨⟨htail, -⟩, _ | _⟩⟩ := ih
        simpa using d.tightFrom_append hlt (ihu (k + 1) hlt rfl) htail

/-! ## What the grammar derives -/

/-- A token of the terminal with that number. -/
def tokenOf (i : Nat) : Token := ⟨i, "", .empty, Position.start⟩

theorem derives_number (d : m.Describes g) :
    ∃ t, g.Derives (.nonTerminal m.base) t ∧ t.tokens = [tokenOf m.number] := by
  obtain ⟨c, hnumber⟩ := d.number
  obtain ⟨i, hi⟩ := Grammar.mem_productionsOf_iff.1 hnumber
  obtain ⟨j, hj⟩ := Grammar.mem_productionsOf_iff.1 d.numberUnit
  have htoken := Grammar.Derives.token (g := g) (tokenOf m.number)
  exact ⟨_, .node hj (.cons (.node hi (.cons htoken .nil)) .nil), by simp⟩

/-- The base derives what an operator derives. -/
theorem derives_operator (d : m.Describes g) {o : Sign} (ho : o ∈ m.operators)
    {ts : List ParseTree} (hts : g.DerivesRow (o.symbols m.base) ts) :
    ∃ t, g.Derives (.nonTerminal m.base) t ∧ t.tokens = ts.flatMap ParseTree.tokens := by
  obtain ⟨c, hoperator⟩ := d.operator o ho
  obtain ⟨i, hi⟩ := Grammar.mem_productionsOf_iff.1 hoperator
  obtain ⟨j, hj⟩ := Grammar.mem_productionsOf_iff.1 (d.operatorUnit o ho)
  exact ⟨_, .node hj (.cons (.node hi hts) .nil), by simp⟩

/-- A number, a suffix and any operator with a left operand begin a word. -/
theorem exists_derives_after (d : m.Describes g) {o p : Sign} (ho : o ∈ m.operators)
    (hafter : o.fixity = .after) (hp : p ∈ m.operators) (hpc : p.Continues) :
    ∃ t rest, g.Derives (.nonTerminal m.base) t ∧
      t.tokens = tokenOf m.number :: tokenOf o.terminal :: tokenOf p.terminal :: rest := by
  obtain ⟨x, hx, hxtokens⟩ := d.derives_number
  have hsign : ∀ i, g.Derives (.terminal i) (.token (tokenOf i)) := fun i =>
    Grammar.Derives.token (tokenOf i)
  have hrow : g.DerivesRow (o.symbols m.base) [x, .token (tokenOf o.terminal)] := by
    simp only [Sign.symbols, hafter]
    exact .cons hx (.cons (hsign _) .nil)
  obtain ⟨y, hy, hytokens⟩ := d.derives_operator ho hrow
  cases hfixity : p.fixity with
  | before => exact absurd hfixity hpc
  | after =>
      have hrow : g.DerivesRow (p.symbols m.base) [y, .token (tokenOf p.terminal)] := by
        simp only [Sign.symbols, hfixity]
        exact .cons hy (.cons (hsign _) .nil)
      obtain ⟨z, hz, hztokens⟩ := d.derives_operator hp hrow
      exact ⟨z, [], hz, by simp [hztokens, hytokens, hxtokens]⟩
  | between =>
      have hrow : g.DerivesRow (p.symbols m.base) [y, .token (tokenOf p.terminal), x] := by
        simp only [Sign.symbols, hfixity]
        exact .cons hy (.cons (hsign _) (.cons hx .nil))
      obtain ⟨z, hz, hztokens⟩ := d.derives_operator hp hrow
      exact ⟨z, [tokenOf m.number], hz, by simp [hztokens, hytokens, hxtokens]⟩

/-! ## Both directions -/

/-- The stratified grammar accepts every word of the grammar it was made of, if and only if suffixes
bind tightest. -/
theorem accepts_iff (d : m.Describes g) {table : ParseTable}
    (htable : g.stratify.parseTable g.stratify.firstTable
      (g.stratify.followTable g.stratify.firstTable) = .ok table) :
    (∀ t, g.Derives (.nonTerminal g.start) t →
        ∃ t', Parser.parse g.stratify table t.tokens = .ok t') ↔ m.SuffixesTightest := by
  constructor
  · intro haccepts o ho hafter p hp hpc
    have hoc : o.Continues := by simp [Sign.Continues, hafter]
    obtain ⟨t, rest, ht, htokens⟩ := d.exists_derives_after ho hafter hp hpc
    rw [← d.start] at ht
    obtain ⟨t', hparse⟩ := haccepts t ht
    rw [(Grammar.parseTable_eq_ok htable).1] at hparse
    obtain ⟨hderives, htokens'⟩ := Parser.derives_of_parse (Grammar.fits_allCells _ _ _) hparse
    rw [d.stratify_start] at hderives
    obtain ⟨-, hnext⟩ := d.tightFrom_of_derives (d.hasLadder ho hoc) hderives 0 (Nat.zero_le _) rfl
      _ _ _ (htokens'.trans htokens) rfl o ho rfl
    -- The level of the second operator is not above that of the first one.
    have hle := hnext hafter _ _ rfl p hp rfl
    refine Int32.not_lt.1 fun hlt => ?_
    exact Nat.not_lt.2 hle ((d.level_lt_level_iff ho hoc hp hpc).2 hlt)
  · intro htight t ht
    exact d.exists_parse htight htable ht

end Describes

end Mixture

end SmallLang
