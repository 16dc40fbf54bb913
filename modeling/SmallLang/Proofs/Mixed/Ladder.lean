import SmallLang.Proofs.Operator.Stage

/-!
# The ladder of mixed operators

A `Mixture` is a base non-terminal with numbers, parentheses and operators between, before or after
their operands, all with different signs. `Mixture.Describes` says that a grammar has the productions
of the mixture and no others. The operators with a left operand stand in the tails of one ladder
(`Describes.tail_cases`), and the atoms of this ladder are the parentheses, the numbers and the
operators that stand before their operand (`Describes.atom_cases`). What an atom begins with tells
which one it is (`Mixture.Atom.prec_unique`).
-/

set_option autoImplicit false

namespace SmallLang

/-- Where an operator stands. -/
inductive Fixity where
  /-- Between its operands, as in `1 + 2`. -/
  | between
  /-- Before its operand, as in `- 1`. -/
  | before
  /-- After its operand, as in `1 !`. -/
  | after
  deriving DecidableEq

/-- An operator by the numbers that a grammar gives to the type that declares it and to its sign.
The second precedence is that of the type where it replaces the base. -/
structure Sign where
  owner : Nat
  terminal : Nat
  fixity : Fixity
  prec : Prec
  replaces : Prec
  deriving DecidableEq

namespace Sign

/-- The symbols of the operator as it is declared. -/
def symbols (o : Sign) (base : Nat) : List Symbol :=
  match o.fixity with
  | .between => [.nonTerminal base, .terminal o.terminal, .nonTerminal base]
  | .before => [.terminal o.terminal, .nonTerminal base]
  | .after => [.nonTerminal base, .terminal o.terminal]

/-- The operator has a left operand, so it goes on with an expression. -/
def Continues (o : Sign) : Prop := o.fixity ≠ .before

end Sign

/-- A base with numbers, parentheses and operators, by the numbers of a grammar. No operator with a left
operand is declared not to group. -/
structure Mixture where
  base : Nat
  opening : Nat
  closing : Nat
  parensPrec : Prec
  number : Nat
  numberType : Nat
  numberPrec : Prec
  numberReplaces : Prec
  operators : List Sign
  nodup_types : (base :: numberType :: operators.map Sign.owner).Nodup
  nodup_terminals : (opening :: closing :: number :: operators.map Sign.terminal).Nodup
  groups : ∀ o ∈ operators, o.Continues → o.prec.assoc ≠ .none

namespace Mixture

variable {m : Mixture} {g : Grammar}

/-! ## Different types and terminals -/

/-- Operators of one sign are the same. -/
theorem eq_of_terminal_eq {o p : Sign} (ho : o ∈ m.operators) (hp : p ∈ m.operators)
    (h : o.terminal = p.terminal) : o = p := by
  have hnodup := (List.nodup_cons.1 (List.nodup_cons.1 (List.nodup_cons.1 m.nodup_terminals).2).2).2
  exact List.inj_on_of_nodup_map hnodup ho hp h

/-- Operators of one type are the same. -/
theorem eq_of_owner_eq {o p : Sign} (ho : o ∈ m.operators) (hp : p ∈ m.operators)
    (h : o.owner = p.owner) : o = p := by
  have hnodup := (List.nodup_cons.1 (List.nodup_cons.1 m.nodup_types).2).2
  exact List.inj_on_of_nodup_map hnodup ho hp h

theorem owner_ne_base {o : Sign} (ho : o ∈ m.operators) : o.owner ≠ m.base := by
  intro heq
  have hnot := (List.nodup_cons.1 m.nodup_types).1
  exact hnot (heq ▸ List.mem_cons_of_mem _ (List.mem_map_of_mem ho))

theorem owner_ne_numberType {o : Sign} (ho : o ∈ m.operators) : o.owner ≠ m.numberType := by
  intro heq
  have hnot := (List.nodup_cons.1 (List.nodup_cons.1 m.nodup_types).2).1
  exact hnot (heq ▸ List.mem_map_of_mem ho)

theorem numberType_ne_base : m.numberType ≠ m.base := by
  intro heq
  have hnot := (List.nodup_cons.1 m.nodup_types).1
  exact hnot (heq ▸ List.mem_cons_self)

theorem terminal_ne_opening {o : Sign} (ho : o ∈ m.operators) : o.terminal ≠ m.opening := by
  intro heq
  have hnot := (List.nodup_cons.1 m.nodup_terminals).1
  exact hnot (heq ▸ List.mem_cons_of_mem _ (List.mem_cons_of_mem _ (List.mem_map_of_mem ho)))

theorem terminal_ne_closing {o : Sign} (ho : o ∈ m.operators) : o.terminal ≠ m.closing := by
  intro heq
  have hnot := (List.nodup_cons.1 (List.nodup_cons.1 m.nodup_terminals).2).1
  exact hnot (heq ▸ List.mem_cons_of_mem _ (List.mem_map_of_mem ho))

theorem terminal_ne_number {o : Sign} (ho : o ∈ m.operators) : o.terminal ≠ m.number := by
  intro heq
  have hnot := (List.nodup_cons.1 (List.nodup_cons.1 (List.nodup_cons.1 m.nodup_terminals).2).2).1
  exact hnot (heq ▸ List.mem_map_of_mem ho)

theorem number_ne_opening : m.number ≠ m.opening := by
  intro heq
  have hnot := (List.nodup_cons.1 m.nodup_terminals).1
  exact hnot (heq ▸ List.mem_cons_of_mem _ List.mem_cons_self)

theorem number_ne_closing : m.number ≠ m.closing := by
  intro heq
  have hnot := (List.nodup_cons.1 (List.nodup_cons.1 m.nodup_terminals).2).1
  exact hnot (heq ▸ List.mem_cons_self)

theorem closing_ne_opening : m.closing ≠ m.opening := by
  intro heq
  have hnot := (List.nodup_cons.1 m.nodup_terminals).1
  exact hnot (heq ▸ List.mem_cons_self)

/-! ## Grammars of a mixture -/

/-- The productions of a mixture, each with the number of its non-terminal. -/
inductive Form (m : Mixture) : Nat → Production → Prop
  | parens (c : Construction) :
      Form m m.base
        ⟨[.terminal m.opening, .nonTerminal m.base, .terminal m.closing], c, m.parensPrec⟩
  | number (c : Construction) : Form m m.numberType ⟨[.terminal m.number], c, m.numberPrec⟩
  | numberUnit : Form m m.base ⟨[.nonTerminal m.numberType], .child 0, m.numberReplaces⟩
  | operator (o : Sign) (ho : o ∈ m.operators) (c : Construction) :
      Form m o.owner ⟨o.symbols m.base, c, o.prec⟩
  | operatorUnit (o : Sign) (ho : o ∈ m.operators) :
      Form m m.base ⟨[.nonTerminal o.owner], .child 0, o.replaces⟩

/-- The grammar has the productions of the mixture and no others. -/
structure Describes (m : Mixture) (g : Grammar) : Prop where
  start : g.start = m.base
  base_lt : m.base < g.size
  staged : ∃ types, g.Staged types g.size
  form : ∀ nt, ∀ p ∈ g.productionsOf nt, m.Form nt p
  parens : ∃ c, ⟨[.terminal m.opening, .nonTerminal m.base, .terminal m.closing], c,
    m.parensPrec⟩ ∈ g.productionsOf m.base
  number : ∃ c, ⟨[.terminal m.number], c, m.numberPrec⟩ ∈ g.productionsOf m.numberType
  numberUnit :
    ⟨[.nonTerminal m.numberType], .child 0, m.numberReplaces⟩ ∈ g.productionsOf m.base
  operator : ∀ o ∈ m.operators, ∃ c, ⟨o.symbols m.base, c, o.prec⟩ ∈ g.productionsOf o.owner
  operatorUnit : ∀ o ∈ m.operators,
    ⟨[.nonTerminal o.owner], .child 0, o.replaces⟩ ∈ g.productionsOf m.base

/-- The level of an operator's priority. -/
def level (m : Mixture) (g : Grammar) (o : Sign) : Nat :=
  (g.ladder m.base).levelOf o.prec.priority

/-- An operator in the tail of its level. Nothing comes after the operand of an operator that groups to
the right, since this operand has taken the rest of the chain. -/
def tailSymbols (m : Mixture) (g : Grammar) (o : Sign) : List Symbol :=
  let tail : Symbol := .nonTerminal ((g.ladder m.base).tail (m.level g o))
  match o.fixity with
  | .between =>
      if o.prec.assoc = .right then
        [.terminal o.terminal, .nonTerminal ((g.ladder m.base).head (m.level g o))]
      else
        [.terminal o.terminal, .nonTerminal ((g.ladder m.base).head (m.level g o + 1)), tail]
  | _ => [.terminal o.terminal, tail]

/-- The atoms of the ladder: the terminal that one begins with, what comes after it, and the
precedence. -/
inductive Atom (m : Mixture) (g : Grammar) : Nat → List Symbol → Prec → Prop
  | parens : Atom m g m.opening [.nonTerminal m.base, .terminal m.closing] m.parensPrec
  | number : Atom m g m.number [] m.numberPrec
  | before (o : Sign) (ho : o ∈ m.operators) (hbefore : o.fixity = .before) :
      Atom m g o.terminal [.nonTerminal ((g.ladder m.base).prefixOperand o.prec)] o.prec

/-- Atoms that begin with one terminal have one precedence. -/
theorem Atom.prec_unique {t : Nat} {ss ss' : List Symbol} {prec prec' : Prec}
    (h : m.Atom g t ss prec) (h' : m.Atom g t ss' prec') : prec = prec' := by
  cases h with
  | parens =>
      generalize ht : m.opening = t at h'
      cases h' with
      | parens => rfl
      | number => exact absurd ht.symm number_ne_opening
      | before o ho _ => exact absurd ht.symm (terminal_ne_opening ho)
  | number =>
      generalize ht : m.number = t at h'
      cases h' with
      | parens => exact absurd ht number_ne_opening
      | number => rfl
      | before o ho _ => exact absurd ht.symm (terminal_ne_number ho)
  | before o ho _ =>
      generalize ht : o.terminal = t at h'
      cases h' with
      | parens => exact absurd ht (terminal_ne_opening ho)
      | number => exact absurd ht (terminal_ne_number ho)
      | before o' ho' _ => rw [eq_of_terminal_eq ho ho' ht]

namespace Describes

/-! ## The only ladder -/

/-- Only an operator with a left operand begins with a non-terminal and goes on. -/
theorem cases_of_isOperatorOn (d : m.Describes g) {nt x : Nat} {p : Production}
    (hp : p ∈ g.productionsOf nt) (hisop : p.isOperatorOn x = true) :
    x = m.base ∧ ∃ o ∈ m.operators, o.Continues ∧ nt = o.owner ∧
      p.symbols = o.symbols m.base ∧ p.prec = o.prec := by
  obtain ⟨s, rest, hs⟩ := Production.isOperatorOn_iff.1 hisop
  cases d.form nt p hp with
  | parens c => exact absurd hs (by simp)
  | number c => exact absurd hs (by simp)
  | numberUnit => exact absurd hs (by simp)
  | operatorUnit o ho => exact absurd hs (by simp)
  | operator o ho c =>
      cases hfixity : o.fixity with
      | before => exact absurd hs (by simp [Sign.symbols, hfixity])
      | between =>
          simp only [Sign.symbols, hfixity, List.cons.injEq, Symbol.nonTerminal.injEq] at hs
          exact ⟨hs.1.symm, o, ho, by simp [Sign.Continues, hfixity], rfl, rfl, rfl⟩
      | after =>
          simp only [Sign.symbols, hfixity, List.cons.injEq, Symbol.nonTerminal.injEq] at hs
          exact ⟨hs.1.symm, o, ho, by simp [Sign.Continues, hfixity], rfl, rfl, rfl⟩

/-- No other non-terminal has operators. -/
theorem eq_base_of_hasLadder (d : m.Describes g) {x : Nat} (hx : x < g.size)
    (hladder : g.HasLadder x) : x = m.base := by
  obtain ⟨types, hstaged⟩ := d.staged
  obtain ⟨op, hop⟩ := List.exists_mem_of_ne_nil _ hladder
  obtain ⟨nt, i, q, -, -, hq, hisop, -⟩ := (hstaged.mem_usesAt_iff hx).1 hop
  exact (d.cases_of_isOperatorOn (Grammar.mem_productionsOf_iff.2 ⟨i, hq⟩) hisop).1

theorem open_base (d : m.Describes g) (nt : Nat) : g.Open m.base nt := by
  intro hladder
  have heq := d.eq_base_of_hasLadder (Nat.lt_trans hladder.2 d.base_lt) hladder.1
  exact Nat.ne_of_lt hladder.2 heq

/-- When the turn of the base comes, no production has been changed. -/
theorem arranged_base (d : m.Describes g) (nt i : Nat) (p : Production) :
    g.arranged m.base nt i p = p := by
  rcases g.arranged_cases m.base nt i p with ⟨heq, -⟩ | ⟨x, hx, j, op, hfinds, -⟩
  · exact heq
  · have hladder : g.HasLadder x := List.ne_nil_of_mem hfinds.mem_usesAt
    have heq := d.eq_base_of_hasLadder (Nat.lt_trans hx d.base_lt) hladder
    exact absurd heq (Nat.ne_of_lt hx)

/-- Without operators that have a left operand, stratification changes nothing. -/
theorem stratify_eq (d : m.Describes g) (hladder : ¬ g.HasLadder m.base) : g.stratify = g := by
  have hstage : ∀ k ≤ g.size, g.stage k = g := by
    intro k hk
    induction k with
    | zero => rfl
    | succ k ih =>
        have hnone : ¬ g.HasLadder k := by
          intro h
          exact hladder (d.eq_base_of_hasLadder hk h ▸ h)
        rw [Grammar.stage_succ_of_hasLadder hnone, ih (Nat.le_of_succ_le hk)]
  rw [Grammar.stratify_eq_stage]
  exact hstage g.size (Nat.le_refl _)

/-- The types that replace the base are in its closure. -/
theorem mem_closureAt (d : m.Describes g) {nt : Nat} {p : Production}
    (hp : p ∈ g.productionsOf m.base) (hunit : p.unitTarget? = some nt) :
    nt ∈ g.closureAt m.base := by
  obtain ⟨types, hstaged⟩ := d.staged
  have hlt := (hstaged.lt_of_unitTarget? d.base_lt hp hunit).2
  exact hstaged.mem_closureAt_of_unitStep d.base_lt (Grammar.Staged.self_mem_closureAt g _)
    (d.open_base _) ⟨p, hp, hunit, Nat.lt_of_lt_of_le hlt hstaged.types_le⟩

/-! ## Operators with a left operand -/

/-- The operators of the ladder are those with a left operand. -/
theorem cases_of_mem_usesAt (d : m.Describes g) {op : OperatorUse} (hop : op ∈ g.usesAt m.base) :
    ∃ o ∈ m.operators, o.Continues ∧ op.rest = (o.symbols m.base).tail ∧ op.prec = o.prec := by
  obtain ⟨types, hstaged⟩ := d.staged
  obtain ⟨nt, i, q, -, -, hq, hisop, rfl⟩ := (hstaged.mem_usesAt_iff d.base_lt).1 hop
  obtain ⟨-, o, ho, hc, -, hsymbols, hprec⟩ :=
    d.cases_of_isOperatorOn (Grammar.mem_productionsOf_iff.2 ⟨i, hq⟩) hisop
  exact ⟨o, ho, hc, congrArg List.tail hsymbols, hprec⟩

theorem exists_mem_usesAt (d : m.Describes g) {o : Sign} (ho : o ∈ m.operators)
    (hc : o.Continues) :
    ∃ op ∈ g.usesAt m.base, op.rest = (o.symbols m.base).tail ∧ op.prec = o.prec := by
  obtain ⟨types, hstaged⟩ := d.staged
  obtain ⟨c, hp⟩ := d.operator o ho
  obtain ⟨i, hi⟩ := Grammar.mem_productionsOf_iff.1 hp
  refine ⟨_, (hstaged.mem_usesAt_iff d.base_lt).2 ⟨o.owner, i, _, ?_, d.open_base _, hi, ?_, rfl⟩,
    rfl, rfl⟩
  · exact d.mem_closureAt (d.operatorUnit o ho) rfl
  · cases hfixity : o.fixity with
    | before => exact absurd hfixity hc
    | between => simp [Production.isOperatorOn, Sign.symbols, hfixity]
    | after => simp [Production.isOperatorOn, Sign.symbols, hfixity]

theorem hasLadder (d : m.Describes g) {o : Sign} (ho : o ∈ m.operators) (hc : o.Continues) :
    g.HasLadder m.base := by
  obtain ⟨op, hop, -⟩ := d.exists_mem_usesAt ho hc
  exact List.ne_nil_of_mem hop

theorem getElem?_level (d : m.Describes g) {o : Sign} (ho : o ∈ m.operators) (hc : o.Continues) :
    (g.ladder m.base).levels[m.level g o]? = some o.prec.priority := by
  obtain ⟨op, hop, -, hprec⟩ := d.exists_mem_usesAt ho hc
  refine Ladder.getElem?_levelOf (Grammar.mem_levels_ladder_iff.2 ⟨op, hop, ?_⟩)
  rw [hprec]

theorem level_lt (d : m.Describes g) {o : Sign} (ho : o ∈ m.operators) (hc : o.Continues) :
    m.level g o < (g.ladder m.base).height :=
  (List.getElem?_eq_some_iff.1 (d.getElem?_level ho hc)).1

/-- Levels are in the order of the priorities. -/
theorem level_lt_level_iff (d : m.Describes g) {o p : Sign} (ho : o ∈ m.operators)
    (hoc : o.Continues) (hp : p ∈ m.operators) (hpc : p.Continues) :
    m.level g o < m.level g p ↔ o.prec.priority < p.prec.priority :=
  (g.sorted_ladder m.base).lt_iff (d.getElem?_level ho hoc) (d.getElem?_level hp hpc)

theorem symbols_tailProduction (d : m.Describes g) {o : Sign} (ho : o ∈ m.operators)
    (hc : o.Continues) {op : OperatorUse} (hrest : op.rest = (o.symbols m.base).tail)
    (hprec : op.prec = o.prec) :
    ((g.ladder m.base).tailProduction op).symbols = m.tailSymbols g o := by
  have hlt := d.level_lt ho hc
  rw [Ladder.tailProduction_symbols, Ladder.operatorSymbols, Ladder.loops, Ladder.isInfix,
    Ladder.rightOperand, hrest, hprec]
  cases hfixity : o.fixity with
  | before => exact absurd hfixity hc
  | after =>
      cases hassoc : o.prec.assoc with
      | none => exact absurd hassoc (m.groups o ho hc)
      | left => simp [Sign.symbols, tailSymbols, hfixity, level]
      | right => simp [Sign.symbols, tailSymbols, hfixity, level]
  | between =>
      cases hassoc : o.prec.assoc with
      | none => exact absurd hassoc (m.groups o ho hc)
      | left =>
          have hoperand := Ladder.operand_eq_head hlt
          rw [level] at hoperand
          simp [Sign.symbols, tailSymbols, hfixity, hassoc, level, replaceLast, hoperand]
      | right => simp [Sign.symbols, tailSymbols, hfixity, hassoc, level, replaceLast]

/-- A tail holds the operators of its level and its end. -/
theorem tail_cases (d : m.Describes g) {k : Nat} (hk : k < (g.ladder m.base).height)
    {p : Production} (hp : p ∈ g.stratify.productionsOf ((g.ladder m.base).tail k)) :
    (∃ o ∈ m.operators, o.Continues ∧ m.level g o = k ∧ p.symbols = m.tailSymbols g o ∧
        p.prec = o.prec) ∨
      p = Ladder.endProduction := by
  obtain ⟨types, hstaged⟩ := d.staged
  have hget := List.getElem?_eq_getElem hk
  rw [hstaged.productionsOf_tail_stratify (Grammar.HasLadder.of_level hget) d.base_lt hget] at hp
  rcases List.mem_append.1 hp with hp | hp
  · obtain ⟨op, hop, rfl⟩ := List.mem_map.1 hp
    obtain ⟨hop, hlevel⟩ := List.mem_filter.1 hop
    obtain ⟨o, ho, hc, hrest, hprec⟩ := d.cases_of_mem_usesAt hop
    refine Or.inl ⟨o, ho, hc, ?_, d.symbols_tailProduction ho hc hrest hprec, hprec⟩
    rw [level, ← hprec, eq_of_beq hlevel]
    exact (g.sorted_ladder m.base).levelOf_eq hget
  · exact Or.inr (List.mem_singleton.1 hp)

theorem exists_tail (d : m.Describes g) {o : Sign} (ho : o ∈ m.operators) (hc : o.Continues) :
    ∃ p ∈ g.stratify.productionsOf ((g.ladder m.base).tail (m.level g o)),
      p.symbols = m.tailSymbols g o ∧ p.prec = o.prec := by
  obtain ⟨types, hstaged⟩ := d.staged
  obtain ⟨op, hop, hrest, hprec⟩ := d.exists_mem_usesAt ho hc
  refine ⟨_, ?_, d.symbols_tailProduction ho hc hrest hprec, hprec⟩
  rw [hstaged.productionsOf_tail_stratify (d.hasLadder ho hc) d.base_lt (d.getElem?_level ho hc)]
  refine List.mem_append_left _ (List.mem_map.2 ⟨op, List.mem_filter.2 ⟨hop, ?_⟩, rfl⟩)
  rw [hprec]
  exact beq_self_eq_true _

theorem exists_end (d : m.Describes g) {k : Nat} (hk : k < (g.ladder m.base).height) :
    Ladder.endProduction ∈ g.stratify.productionsOf ((g.ladder m.base).tail k) := by
  obtain ⟨types, hstaged⟩ := d.staged
  have hget := List.getElem?_eq_getElem hk
  rw [hstaged.productionsOf_tail_stratify (Grammar.HasLadder.of_level hget) d.base_lt hget]
  exact List.mem_append_right _ List.mem_cons_self

/-- A level climbs from the next tighter one, or the atoms, to its tail. -/
theorem productionsOf_head (d : m.Describes g) {k : Nat} (hk : k < (g.ladder m.base).height) :
    ∃ p, g.stratify.productionsOf ((g.ladder m.base).head k) = [p] ∧
      p.symbols = [.nonTerminal ((g.ladder m.base).head (k + 1)),
        .nonTerminal ((g.ladder m.base).tail k)] := by
  obtain ⟨types, hstaged⟩ := d.staged
  have hladder := Grammar.HasLadder.of_level (List.getElem?_eq_getElem hk)
  refine ⟨_, hstaged.productionsOf_head_stratify hladder d.base_lt hk, ?_⟩
  rw [Ladder.climbProduction, Ladder.operand_eq_head hk]

/-! ## Atoms -/

/-- The atoms of the base before they were put into the ladder. -/
theorem cases_of_mem_atomsAt (d : m.Describes g) {p : Production} (hp : p ∈ g.atomsAt m.base) :
    (p.symbols = [.terminal m.opening, .nonTerminal m.base, .terminal m.closing] ∧
        p.prec = m.parensPrec) ∨
      (p.symbols = [.terminal m.number] ∧ p.prec = m.numberPrec) ∨
      ∃ o ∈ m.operators, o.fixity = .before ∧
        p.symbols = [.terminal o.terminal, .nonTerminal m.base] ∧ p.prec = o.prec := by
  obtain ⟨types, hstaged⟩ := d.staged
  rcases (hstaged.mem_atomsAt_iff d.base_lt).1 hp with ⟨x, -, hladder, hlt, -⟩ |
    ⟨x, -, -, i, q, hq, hisop, hunit, rfl⟩
  · have heq := d.eq_base_of_hasLadder (Nat.lt_trans hlt d.base_lt) hladder
    exact absurd heq (Nat.ne_of_lt hlt)
  · rw [d.arranged_base]
    cases d.form x q (Grammar.mem_productionsOf_iff.2 ⟨i, hq⟩) with
    | parens c => exact Or.inl ⟨rfl, rfl⟩
    | number c => exact Or.inr (Or.inl ⟨rfl, rfl⟩)
    | numberUnit => exact absurd hunit (by simp [Production.unitTarget?])
    | operatorUnit o ho => exact absurd hunit (by simp [Production.unitTarget?])
    | operator o ho c =>
        cases hfixity : o.fixity with
        | before =>
            exact Or.inr (Or.inr ⟨o, ho, hfixity, by simp [Sign.symbols, hfixity], rfl⟩)
        | between => exact absurd hisop (by simp [Production.isOperatorOn, Sign.symbols, hfixity])
        | after => exact absurd hisop (by simp [Production.isOperatorOn, Sign.symbols, hfixity])

/-- A production of the closure that is no operator and hands nothing on is an atom. -/
theorem mem_atomsAt (d : m.Describes g) {nt : Nat} (hnt : nt ∈ g.closureAt m.base)
    {p : Production} (hp : p ∈ g.productionsOf nt) (hisop : p.isOperatorOn m.base = false)
    (hunit : p.unitTarget? = none) : p ∈ g.atomsAt m.base := by
  obtain ⟨types, hstaged⟩ := d.staged
  obtain ⟨i, hi⟩ := Grammar.mem_productionsOf_iff.1 hp
  refine (hstaged.mem_atomsAt_iff d.base_lt).2
    (Or.inr ⟨nt, hnt, d.open_base _, i, p, hi, hisop, hunit, ?_⟩)
  rw [d.arranged_base]

/-- Only an operator that stands before its operand ends in one, and this operand is limited. -/
theorem atomProduction_eq (m : Mixture) (g : Grammar) (p : Production) :
    (p.symbols = [.terminal m.opening, .nonTerminal m.base, .terminal m.closing] ∨
        p.symbols = [.terminal m.number] →
      (g.ladder m.base).atomProduction p = p) ∧
    ∀ t, p.symbols = [.terminal t, .nonTerminal m.base] →
      ((g.ladder m.base).atomProduction p).symbols =
          [.terminal t, .nonTerminal ((g.ladder m.base).prefixOperand p.prec)] ∧
        ((g.ladder m.base).atomProduction p).prec = p.prec := by
  constructor
  · rintro (hs | hs)
    · simp [Ladder.atomProduction, hs]
    · simp [Ladder.atomProduction, hs]
  · intro t hs
    simp [Ladder.atomProduction, hs, replaceLast]

theorem atom_cases (d : m.Describes g) (hladder : g.HasLadder m.base) {p : Production}
    (hp : p ∈ g.stratify.productionsOf (g.ladder m.base).atom) :
    ∃ t ss, p.symbols = .terminal t :: ss ∧ m.Atom g t ss p.prec := by
  obtain ⟨types, hstaged⟩ := d.staged
  rw [hstaged.productionsOf_atom_stratify hladder d.base_lt] at hp
  obtain ⟨q, hq, rfl⟩ := List.mem_map.1 hp
  obtain ⟨hsame, hlimited⟩ := atomProduction_eq m g q
  rcases d.cases_of_mem_atomsAt hq with ⟨hs, hprec⟩ | ⟨hs, hprec⟩ | ⟨o, ho, hbefore, hs, hprec⟩
  · rw [hsame (Or.inl hs), hprec]
    exact ⟨_, _, hs, .parens⟩
  · rw [hsame (Or.inr hs), hprec]
    exact ⟨_, _, hs, .number⟩
  · obtain ⟨hs, hprec'⟩ := hlimited _ hs
    rw [hprec', hprec]
    rw [hprec] at hs
    exact ⟨_, _, hs, .before o ho hbefore⟩

theorem exists_atom (d : m.Describes g) (hladder : g.HasLadder m.base) {t : Nat}
    {ss : List Symbol} {prec : Prec} (h : m.Atom g t ss prec) :
    ∃ p ∈ g.stratify.productionsOf (g.ladder m.base).atom,
      p.symbols = .terminal t :: ss ∧ p.prec = prec := by
  obtain ⟨types, hstaged⟩ := d.staged
  have hatom : ∀ {q}, q ∈ g.atomsAt m.base → (g.ladder m.base).atomProduction q ∈
      g.stratify.productionsOf (g.ladder m.base).atom :=
    fun hq => hstaged.mem_atom_of_mem_atomsAt hladder d.base_lt hq
  cases h with
  | parens =>
      obtain ⟨c, hp⟩ := d.parens
      have hmem := d.mem_atomsAt (Grammar.Staged.self_mem_closureAt g _) hp rfl (by
        simp [Production.unitTarget?])
      refine ⟨_, hatom hmem, ?_⟩
      rw [(atomProduction_eq m g _).1 (Or.inl rfl)]
      exact ⟨rfl, rfl⟩
  | number =>
      obtain ⟨c, hp⟩ := d.number
      have hmem := d.mem_atomsAt (d.mem_closureAt d.numberUnit rfl) hp rfl (by
        simp [Production.unitTarget?])
      refine ⟨_, hatom hmem, ?_⟩
      rw [(atomProduction_eq m g _).1 (Or.inr rfl)]
      exact ⟨rfl, rfl⟩
  | before o ho hbefore =>
      obtain ⟨c, hp⟩ := d.operator o ho
      have hs : o.symbols m.base = [.terminal o.terminal, .nonTerminal m.base] := by
        simp [Sign.symbols, hbefore]
      have hmem := d.mem_atomsAt (d.mem_closureAt (d.operatorUnit o ho) rfl) hp
        (by simp [Production.isOperatorOn, hs]) (by simp [Production.unitTarget?, hs])
      exact ⟨_, hatom hmem, (atomProduction_eq m g _).2 _ hs⟩

/-- The operand of an operator that stands before it is some level, or the atoms. -/
theorem exists_prefixOperand (hladder : g.HasLadder m.base) (prec : Prec) :
    ∃ k ≤ (g.ladder m.base).height,
      (g.ladder m.base).prefixOperand prec = (g.ladder m.base).head k := by
  rw [Ladder.prefixOperand]
  cases hfind : (g.ladder m.base).levels.findIdx? fun p =>
      if prec.assoc = .right then prec.priority ≤ p else prec.priority < p with
  | none => exact ⟨_, Nat.le_refl _, Ladder.atom_eq_head hladder.height_pos⟩
  | some k =>
      obtain ⟨hlt, -⟩ := List.findIdx?_eq_some_iff_getElem.1 hfind
      exact ⟨k, Nat.le_of_lt hlt, rfl⟩

end Describes

end Mixture

end SmallLang
