import SmallLang.Proofs.Infix.Ladder

/-!
# The table of a language of infix operators

Only tails can be empty. A tail of a level begins with a sign of its level, and is followed by the
closing parenthesis, the end of the input, or a sign of a looser level (`IsLowered.firstClosed`,
`IsLowered.followClosed`). So no lookahead admits two productions of one non-terminal, each operand
has a higher rank than the level it belongs to, and everything can be derived from the grammar
(`IsLowered.exists_compiled`).
-/

set_option autoImplicit false

namespace SmallLang

namespace InfixLanguage

variable {l : InfixLanguage} {num : Numbering} {g : Grammar}

/-- The grammar after stratification. -/
abbrev stratified (l : InfixLanguage) (num : Numbering) (g : Grammar) : Grammar :=
  g.stratifyAt (num.type l.base)

/-- The terminal of an operator's sign. -/
def signOf (num : Numbering) (o : InfixOperator) : Nat := num.terminal (.literal o.sign)

namespace IsLowered

theorem base_lt_first (hg : l.IsLowered num g) : (l.ladder num g).base < (l.ladder num g).first :=
  hg.base_lt

theorem height_pos (hg : l.IsLowered num g) : 0 < (l.ladder num g).height :=
  Grammar.height_ladderAt_pos hg.operatorsOn_ne_nil

theorem priority_mem_levels (hg : l.IsLowered num g) {o : InfixOperator} (ho : o ∈ l.operators) :
    o.prec.priority ∈ (l.ladder num g).levels :=
  Grammar.mem_levels_ladderAt_iff.2 ⟨_, hg.mem_operatorsOn_iff.2 ⟨o, ho, rfl⟩, rfl⟩

theorem level_lt (hg : l.IsLowered num g) {o : InfixOperator} (ho : o ∈ l.operators) :
    l.level num g o < (l.ladder num g).height :=
  Ladder.levelOf_lt (hg.priority_mem_levels ho)

theorem getElem?_level (hg : l.IsLowered num g) {o : InfixOperator} (ho : o ∈ l.operators) :
    (l.ladder num g).levels[l.level num g o]? = some o.prec.priority :=
  Ladder.getElem?_levelOf (hg.priority_mem_levels ho)

/-! ## Productions by number -/

/-- A level other than the atoms climbs from its operand to its tail. -/
theorem productionsOf_head (hg : l.IsLowered num g) {k : Nat} (hk : k < (l.ladder num g).height) :
    (l.stratified num g).productionsOf ((l.ladder num g).head k) =
      [(l.ladder num g).climbProduction k ((l.ladder num g).tail k)] := by
  rcases Nat.eq_zero_or_pos k with rfl | hpos
  · exact Grammar.productionsOf_base hg.operatorsOn_ne_nil hg.base_lt
  · exact Grammar.productionsOf_head hg.operatorsOn_ne_nil hpos hk

theorem symbols_climb {k next : Nat} (hk : k < (l.ladder num g).height) :
    ((l.ladder num g).climbProduction k next).symbols =
      [.nonTerminal ((l.ladder num g).head (k + 1)), .nonTerminal next] := by
  rw [Ladder.climbProduction, Ladder.operand_eq_head hk]

/-- The operators of a level. -/
theorem mem_filter_operatorsOn_iff (hg : l.IsLowered num g) {k : Nat}
    (hk : k < (l.ladder num g).height) {op : OperatorUse} :
    op ∈ (g.operatorsOn (num.type l.base)).filter
        (·.prec.priority == (l.ladder num g).levels[k]) ↔
      ∃ o ∈ l.operators, l.level num g o = k ∧ l.use num o = op := by
  have hlevel := (Grammar.sorted_ladderAt g (num.type l.base)).levelOf_eq
    (List.getElem?_eq_getElem hk)
  rw [List.mem_filter, hg.mem_operatorsOn_iff]
  constructor
  · rintro ⟨⟨o, ho, rfl⟩, hprio⟩
    refine ⟨o, ho, ?_, rfl⟩
    rw [level, ← hlevel, ← eq_of_beq hprio]
    rfl
  · rintro ⟨o, ho, rfl, rfl⟩
    refine ⟨⟨o, ho, rfl⟩, ?_⟩
    have hget := hg.getElem?_level ho
    rw [List.getElem?_eq_getElem hk] at hget
    rw [beq_iff_eq]
    exact (Option.some.inj hget).symm

theorem mem_tail_iff (hg : l.IsLowered num g) {k : Nat} (hk : k < (l.ladder num g).height)
    {p : Production} :
    p ∈ (l.stratified num g).productionsOf ((l.ladder num g).tail k) ↔
      (∃ o ∈ l.operators, l.level num g o = k ∧ p = l.signProduction num g o) ∨
        p = Ladder.endProduction := by
  rw [Grammar.productionsOf_tail hg.operatorsOn_ne_nil (List.getElem?_eq_getElem hk),
    List.mem_append, List.mem_map, List.mem_singleton]
  refine or_congr_left ?_
  constructor
  · rintro ⟨op, hop, rfl⟩
    obtain ⟨o, ho, hlevel, rfl⟩ := (hg.mem_filter_operatorsOn_iff hk).1 hop
    exact ⟨o, ho, hlevel, tailProduction_use o⟩
  · rintro ⟨o, ho, hlevel, rfl⟩
    exact ⟨_, (hg.mem_filter_operatorsOn_iff hk).2 ⟨o, ho, hlevel, rfl⟩, tailProduction_use o⟩

theorem mem_atom_iff (hg : l.IsLowered num g) {p : Production} :
    p ∈ (l.stratified num g).productionsOf (l.ladder num g).atom ↔
      p = l.parensProduction num ∨ p = l.numberProduction num := by
  rw [Grammar.productionsOf_atom hg.operatorsOn_ne_nil, List.mem_map, ← hg.mem_atomsOf_iff]
  constructor
  · rintro ⟨q, hq, rfl⟩
    rw [hg.atomProduction_eq hq]
    exact hq
  · intro hp
    exact ⟨p, hp, hg.atomProduction_eq hp⟩

/-! ## What comes first -/

/-- The tails can be empty. -/
def Empty (l : InfixLanguage) (num : Numbering) (g : Grammar) (nt : Nat) : Prop :=
  ∃ k < (l.ladder num g).height, nt = (l.ladder num g).tail k

/-- A tail begins with a sign of its level. Nothing is said of the others. -/
def First (l : InfixLanguage) (num : Numbering) (g : Grammar) (nt t : Nat) : Prop :=
  ∀ k < (l.ladder num g).height, nt = (l.ladder num g).tail k →
    ∃ o ∈ l.operators, l.level num g o = k ∧ t = signOf num o

theorem not_empty_head (hg : l.IsLowered num g) (k : Nat) :
    ¬ Empty l num g ((l.ladder num g).head k) := by
  rintro ⟨j, -, heq⟩
  exact Ladder.head_ne_tail hg.base_lt_first k j heq

theorem firstClosed (hg : l.IsLowered num g) :
    (l.stratified num g).FirstClosed (Empty l num g) (First l num g) := by
  have hclimb : ∀ {k next : Nat}, k < (l.ladder num g).height →
      ¬ Grammar.NullRow (Empty l num g) ((l.ladder num g).climbProduction k next).symbols := by
    intro k next hk hnull
    rw [symbols_climb hk] at hnull
    obtain ⟨i, heq, hempty⟩ := hnull _ List.mem_cons_self
    rw [← Symbol.nonTerminal.inj heq] at hempty
    exact hg.not_empty_head _ hempty
  have hterminal : ∀ {t : Nat} {rest : List Symbol},
      ¬ Grammar.NullRow (Empty l num g) (.terminal t :: rest) := by
    intro t rest hnull
    obtain ⟨i, heq, -⟩ := hnull _ List.mem_cons_self
    exact Symbol.noConfusion heq
  refine ⟨fun nt i p hp hnull => ?_, fun nt i p t hp ht => ?_⟩
  · cases hg.laddered_of_mem (Grammar.mem_productionsOf_iff.2 ⟨i, hp⟩) with
    | number => exact absurd hnull hterminal
    | declared o ho j => exact absurd hnull (hclimb (hg.level_lt ho))
    | head k hk => exact absurd hnull (hclimb hk)
    | operator o ho => exact absurd hnull hterminal
    | ending k hk => exact ⟨k, hk, rfl⟩
    | parens => exact absurd hnull hterminal
    | numberAtom => exact absurd hnull hterminal
    | forced o ho j => exact absurd hnull hterminal
  · intro k hk hnt
    subst hnt
    rcases (hg.mem_tail_iff hk).1 (Grammar.mem_productionsOf_iff.2 ⟨i, hp⟩) with
      ⟨o, ho, hlevel, rfl⟩ | rfl
    · exact ⟨o, ho, hlevel, ht⟩
    · exact absurd ht not_false

/-! ## What comes next -/

/-- Everything in the ladder from a level on is at that level or a tighter one. -/
def AtLeast (l : InfixLanguage) (num : Numbering) (g : Grammar) (k nt : Nat) : Prop :=
  ∀ j, nt = (l.ladder num g).head j ∨ nt = (l.ladder num g).tail j → k ≤ j

/-- After a level come the closing parenthesis and the signs of looser levels. -/
def Next (l : InfixLanguage) (num : Numbering) (g : Grammar) (nt t : Nat) : Prop :=
  t = num.terminal (.literal ")") ∨
    ∃ o ∈ l.operators, t = signOf num o ∧ AtLeast l num g (l.level num g o + 1) nt

theorem atLeast_head_iff (hg : l.IsLowered num g) {j k : Nat} :
    AtLeast l num g k ((l.ladder num g).head j) ↔ k ≤ j := by
  constructor
  · intro h
    exact h j (Or.inl rfl)
  · rintro hle i (heq | heq)
    · rw [← Ladder.head_injective hg.base_lt_first heq]
      exact hle
    · exact absurd heq (Ladder.head_ne_tail hg.base_lt_first j i)

theorem atLeast_tail_iff (hg : l.IsLowered num g) {j k : Nat} :
    AtLeast l num g k ((l.ladder num g).tail j) ↔ k ≤ j := by
  constructor
  · intro h
    exact h j (Or.inr rfl)
  · rintro hle i (heq | heq)
    · exact absurd heq.symm (Ladder.head_ne_tail hg.base_lt_first i j)
    · rw [← Ladder.tail_injective heq]
      exact hle

/-- The right operand of an operator is the head of its level or of the next one. -/
theorem rightOperand_eq (hg : l.IsLowered num g) {o : InfixOperator} (ho : o ∈ l.operators) :
    (l.ladder num g).rightOperand (l.use num o) =
      (l.ladder num g).head
        (if o.prec.assoc = .right then l.level num g o else l.level num g o + 1) := by
  rw [Ladder.rightOperand, use_prec]
  split
  · rfl
  · exact Ladder.operand_eq_head (hg.level_lt ho)

/-! ### Where the non-terminals of a production stand -/

theorem occurrence_climb {k next i : Nat} (hk : k < (l.ladder num g).height)
    {before after : List Symbol}
    (h : ((l.ladder num g).climbProduction k next).symbols = before ++ .nonTerminal i :: after) :
    (i = (l.ladder num g).head (k + 1) ∧ after = [.nonTerminal next]) ∨ (i = next ∧ after = []) := by
  rw [symbols_climb hk] at h
  simp only [List.cons_eq_append_iff, List.nil_eq_append_iff, List.cons.injEq,
    Symbol.nonTerminal.injEq] at h
  rcases h with ⟨-, rfl, rfl⟩ | ⟨_, -, ⟨-, rfl, rfl⟩ | ⟨_, -, -, h⟩⟩
  · exact Or.inl ⟨rfl, rfl⟩
  · exact Or.inr ⟨rfl, rfl⟩
  · exact absurd h (by simp)

/-- An operand is tighter than the tail after it, if there is one. -/
theorem occurrence_sign (hg : l.IsLowered num g) {o : InfixOperator} (ho : o ∈ l.operators) {i : Nat}
    {before after : List Symbol}
    (h : (l.signProduction num g o).symbols = before ++ .nonTerminal i :: after) :
    (∃ k, l.level num g o ≤ k ∧ k ≤ l.level num g o + 1 ∧ i = (l.ladder num g).head k ∧
        (after = [] ∨
          after = [.nonTerminal ((l.ladder num g).tail (l.level num g o))] ∧
            l.level num g o < k)) ∨
      (i = (l.ladder num g).tail (l.level num g o) ∧ after = []) := by
  rw [signProduction, hg.rightOperand_eq ho] at h
  cases hassoc : o.prec.assoc with
  | left =>
      simp only [hassoc, if_true, if_false, reduceCtorEq, List.cons_append, List.nil_append,
        List.cons_eq_append_iff, List.nil_eq_append_iff, List.cons.injEq,
        Symbol.nonTerminal.injEq] at h
      rcases h with ⟨-, h, -⟩ | ⟨_, -, ⟨-, rfl, rfl⟩ | ⟨_, -, ⟨-, rfl, rfl⟩ | ⟨_, -, -, h⟩⟩⟩
      · exact h.elim
      · exact Or.inl ⟨_, Nat.le_succ _, Nat.le_refl _, rfl, Or.inr ⟨rfl, Nat.lt_succ_self _⟩⟩
      · exact Or.inr ⟨rfl, rfl⟩
      · exact absurd h (by simp)
  | none =>
      simp only [hassoc, if_false, reduceCtorEq, List.cons_append, List.nil_append,
        List.cons_eq_append_iff, List.nil_eq_append_iff, List.cons.injEq,
        Symbol.nonTerminal.injEq] at h
      rcases h with ⟨-, h, -⟩ | ⟨_, -, ⟨-, rfl, rfl⟩ | ⟨_, -, -, h⟩⟩
      · exact h.elim
      · exact Or.inl ⟨_, Nat.le_succ _, Nat.le_refl _, rfl, Or.inl rfl⟩
      · exact absurd h (by simp)
  | right =>
      simp only [hassoc, if_true, if_false, reduceCtorEq, List.cons_append, List.nil_append,
        List.cons_eq_append_iff, List.nil_eq_append_iff, List.cons.injEq,
        Symbol.nonTerminal.injEq] at h
      rcases h with ⟨-, h, -⟩ | ⟨_, -, ⟨-, rfl, rfl⟩ | ⟨_, -, -, h⟩⟩
      · exact h.elim
      · exact Or.inl ⟨_, Nat.le_refl _, Nat.le_succ _, rfl, Or.inl rfl⟩
      · exact absurd h (by simp)

theorem occurrence_parens {i : Nat} {before after : List Symbol}
    (h : (l.parensProduction num).symbols = before ++ .nonTerminal i :: after) :
    i = (l.ladder num g).head 0 ∧ after = [.terminal (num.terminal (.literal ")"))] := by
  simp only [parensProduction, List.cons_eq_append_iff, List.nil_eq_append_iff, List.cons.injEq,
    Symbol.nonTerminal.injEq] at h
  rcases h with ⟨-, h, -⟩ | ⟨_, -, ⟨-, rfl, rfl⟩ | ⟨_, -, ⟨-, h, -⟩ | ⟨_, -, -, h⟩⟩⟩
  · exact Symbol.noConfusion h
  · exact ⟨rfl, rfl⟩
  · exact Symbol.noConfusion h
  · exact absurd h (by simp)

theorem not_occurrence_number {i : Nat} {before after : List Symbol} :
    (l.numberProduction num).symbols ≠ before ++ .nonTerminal i :: after := by
  intro h
  have hmem : Symbol.nonTerminal i ∈ (l.numberProduction num).symbols := by
    rw [h]
    exact List.mem_append_right _ List.mem_cons_self
  exact Symbol.noConfusion (List.mem_singleton.1 hmem)

/-! ### Closure -/

/-- Only levels, tails and atoms can be reached. -/
theorem reachable_cases (hg : l.IsLowered num g) {nt : Nat}
    (h : nt ∈ (l.stratified num g).reachable) :
    ∃ k, (k ≤ (l.ladder num g).height ∧ nt = (l.ladder num g).head k) ∨
      (k < (l.ladder num g).height ∧ nt = (l.ladder num g).tail k) := by
  have hstart : (l.stratified num g).start = (l.ladder num g).head 0 := by
    rw [Grammar.stratifyAt_start, hg.start]
    rfl
  rw [Grammar.reachable] at h
  split at h
  swap
  · exact absurd h List.not_mem_nil
  have hpath := Reach.mem_reachable_iff.1 h
  clear h
  induction hpath with
  | refl => exact ⟨0, Or.inl ⟨Nat.zero_le _, hstart⟩⟩
  | tail _ hedge ih =>
      obtain ⟨p, hp, hmem⟩ := Grammar.mem_mentioned_iff.1 hedge.1
      obtain ⟨before, after, hsymbols⟩ := List.append_of_mem hmem
      obtain ⟨k, ⟨hk, rfl⟩ | ⟨hk, rfl⟩⟩ := ih
      · rcases Nat.eq_or_lt_of_le hk with rfl | hk
        · rw [← Ladder.atom_eq_head hg.height_pos, hg.mem_atom_iff] at hp
          rcases hp with rfl | rfl
          · exact ⟨0, Or.inl ⟨Nat.zero_le _, (occurrence_parens hsymbols).1⟩⟩
          · exact absurd hsymbols not_occurrence_number
        · rw [hg.productionsOf_head hk, List.mem_singleton] at hp
          subst hp
          rcases occurrence_climb hk hsymbols with ⟨rfl, -⟩ | ⟨rfl, -⟩
          · exact ⟨k + 1, Or.inl ⟨hk, rfl⟩⟩
          · exact ⟨k, Or.inr ⟨hk, rfl⟩⟩
      · rcases (hg.mem_tail_iff hk).1 hp with ⟨o, ho, rfl, rfl⟩ | rfl
        · rcases hg.occurrence_sign ho hsymbols with ⟨j, -, hj, rfl, -⟩ | ⟨rfl, -⟩
          · exact ⟨j, Or.inl ⟨by omega, rfl⟩⟩
          · exact ⟨_, Or.inr ⟨hk, rfl⟩⟩
        · exact absurd hmem List.not_mem_nil

theorem Next.mono {nt i t : Nat} (h : Next l num g nt t)
    (hle : ∀ j, AtLeast l num g j nt → AtLeast l num g j i) : Next l num g i t := by
  rcases h with rfl | ⟨o, ho, rfl, hlevel⟩
  · exact Or.inl rfl
  · exact Or.inr ⟨o, ho, rfl, hle _ hlevel⟩

/-- The signs that a tail begins with can come after anything tighter than its level. -/
theorem next_of_first_tail {k i t : Nat}
    (hk : k < (l.ladder num g).height)
    (h : Grammar.FirstInRow (Empty l num g) (First l num g)
      [.nonTerminal ((l.ladder num g).tail k)] t)
    (hi : AtLeast l num g (k + 1) i) : Next l num g i t := by
  rcases h with h | ⟨-, h⟩
  · obtain ⟨o, ho, hlevel, rfl⟩ := h k hk rfl
    rw [← hlevel] at hi
    exact Or.inr ⟨o, ho, rfl, hi⟩
  · exact absurd h not_false

theorem followClosed (hg : l.IsLowered num g) :
    (l.stratified num g).FollowClosed (l.stratified num g).firstTable (fun _ => True)
      (Next l num g) := by
  have hwithin := Grammar.within_ofSymbols hg.firstClosed.within_firstTable
  refine ⟨trivial, ?_, ?_⟩
  · -- What follows a symbol in the middle of a production: the rest of it begins with that.
    intro head hhead p hp before i after hsymbols t ht
    have ht := (hwithin after).2 t ht
    obtain ⟨k, ⟨hk, rfl⟩ | ⟨hk, rfl⟩⟩ := hg.reachable_cases hhead
    · rcases Nat.eq_or_lt_of_le hk with rfl | hk
      · rw [← Ladder.atom_eq_head hg.height_pos, hg.mem_atom_iff] at hp
        rcases hp with rfl | rfl
        · obtain ⟨rfl, rfl⟩ := occurrence_parens (g := g) hsymbols
          exact Or.inl ht
        · exact absurd hsymbols not_occurrence_number
      · rw [hg.productionsOf_head hk, List.mem_singleton] at hp
        subst hp
        rcases occurrence_climb hk hsymbols with ⟨rfl, rfl⟩ | ⟨rfl, rfl⟩
        · exact next_of_first_tail hk ht (hg.atLeast_head_iff.2 (Nat.le_refl _))
        · exact absurd ht not_false
    · rcases (hg.mem_tail_iff hk).1 hp with ⟨o, ho, rfl, rfl⟩ | rfl
      · rcases hg.occurrence_sign ho hsymbols with
          ⟨j, -, -, rfl, rfl | ⟨rfl, hj⟩⟩ | ⟨rfl, rfl⟩
        · exact absurd ht not_false
        · exact next_of_first_tail hk ht (hg.atLeast_head_iff.2 hj)
        · exact absurd ht not_false
      · exact absurd hsymbols (by simp [Ladder.endProduction])
  · -- What follows a production follows its last symbol as well, which is of the level or a tighter one.
    intro head hhead p hp before i after hsymbols hempty
    refine ⟨fun _ => trivial, fun t hnext => hnext.mono fun j hj => ?_⟩
    have hempty := (hwithin after).1 hempty
    obtain ⟨k, ⟨hk, rfl⟩ | ⟨hk, rfl⟩⟩ := hg.reachable_cases hhead
    · rcases Nat.eq_or_lt_of_le hk with rfl | hk
      · rw [← Ladder.atom_eq_head hg.height_pos, hg.mem_atom_iff] at hp
        rcases hp with rfl | rfl
        · -- The closing parenthesis is not empty.
          obtain ⟨-, rfl⟩ := occurrence_parens (g := g) hsymbols
          obtain ⟨_, heq, -⟩ := hempty _ List.mem_cons_self
          exact Symbol.noConfusion heq
        · exact absurd hsymbols not_occurrence_number
      · have hj := hg.atLeast_head_iff.1 hj
        rw [hg.productionsOf_head hk, List.mem_singleton] at hp
        subst hp
        rcases occurrence_climb hk hsymbols with ⟨rfl, -⟩ | ⟨rfl, -⟩
        · exact hg.atLeast_head_iff.2 (Nat.le_succ_of_le hj)
        · exact hg.atLeast_tail_iff.2 hj
    · have hj := hg.atLeast_tail_iff.1 hj
      rcases (hg.mem_tail_iff hk).1 hp with ⟨o, ho, rfl, rfl⟩ | rfl
      · rcases hg.occurrence_sign ho hsymbols with ⟨m, hm, -, rfl, -⟩ | ⟨rfl, -⟩
        · exact hg.atLeast_head_iff.2 (Nat.le_trans hj hm)
        · exact hg.atLeast_tail_iff.2 hj
      · exact absurd hsymbols (by simp [Ladder.endProduction])

/-! ## No two candidates -/

theorem signOf_injective (hg : l.IsLowered num g) {o p : InfixOperator} (ho : o ∈ l.operators)
    (hp : p ∈ l.operators) (h : signOf num o = signOf num p) : o = p := by
  have heq := (hg.terminal_injective (sign_mem_terminals ho) (sign_mem_terminals hp)).1 h
  exact eq_of_sign_eq ho hp (Terminal.literal.inj heq)

/-- A non-terminal other than a tail and the atoms has one production at most. -/
theorem length_productionsOf_le_one (hg : l.IsLowered num g) {nt : Nat}
    (hnt : nt < (l.stratified num g).size)
    (htail : ∀ k < (l.ladder num g).height, nt ≠ (l.ladder num g).tail k)
    (hatom : nt ≠ (l.ladder num g).atom) :
    ((l.stratified num g).productionsOf nt).length ≤ 1 := by
  have hops := hg.operatorsOn_ne_nil
  rcases Grammar.lt_size_stratifyAt_cases hops hnt with
    hold | ⟨k, -, hk, rfl⟩ | ⟨k, hk, rfl⟩ | rfl | ⟨j, hj, rfl⟩
  · by_cases hbase : nt = num.type l.base
    · subst hbase
      rw [Grammar.productionsOf_base hops hold]
      exact Nat.le_refl 1
    · rw [Grammar.productionsOf_kept hops hold hbase, List.length_map, List.length_zipIdx]
      by_cases hnil : g.productionsOf nt = []
      · rw [hnil]
        exact Nat.zero_le 1
      · obtain ⟨p, hp⟩ := List.exists_mem_of_ne_nil _ hnil
        cases (hg.mem_iff nt p).1 hp with
        | parens => exact absurd rfl hbase
        | number =>
            rw [hg.productionsOf_number]
            exact Nat.le_refl 1
        | numberUnit => exact absurd rfl hbase
        | operator o ho =>
            rw [hg.productionsOf_name ho]
            exact Nat.le_refl 1
        | operatorUnit o ho => exact absurd rfl hbase
  · rw [hg.productionsOf_head hk]
    exact Nat.le_refl 1
  · exact absurd rfl (htail k hk)
  · exact absurd rfl hatom
  · rw [Grammar.productionsOf_forced hops (List.getElem?_eq_getElem hj)]
    exact Nat.le_refl 1

theorem nodup_tail (hg : l.IsLowered num g) {k : Nat} (hk : k < (l.ladder num g).height) :
    ((l.stratified num g).productionsOf ((l.ladder num g).tail k)).Nodup := by
  rw [Grammar.productionsOf_tail hg.operatorsOn_ne_nil (List.getElem?_eq_getElem hk),
    List.nodup_append]
  refine ⟨?_, List.nodup_singleton _, ?_⟩
  · refine List.Nodup.map_on ?_ (hg.nodup_operatorsOn.filter _)
    intro op hop op' hop' heq
    obtain ⟨o, ho, -, rfl⟩ := (hg.mem_filter_operatorsOn_iff hk).1 hop
    obtain ⟨o', ho', -, rfl⟩ := (hg.mem_filter_operatorsOn_iff hk).1 hop'
    -- The productions begin with the signs.
    have heq : l.signProduction num g o = l.signProduction num g o' := by
      rw [← tailProduction_use, ← tailProduction_use]
      exact heq
    have hsigns := congrArg (fun p : Production => p.symbols.head?) heq
    rw [hg.signOf_injective ho ho' (Symbol.terminal.inj (Option.some.inj hsigns))]
  · intro p hp q hq heq
    obtain ⟨op, hop, rfl⟩ := List.mem_map.1 hp
    obtain ⟨o, ho, -, rfl⟩ := (hg.mem_filter_operatorsOn_iff hk).1 hop
    rw [List.mem_singleton.1 hq] at heq
    have heq : l.signProduction num g o = Ladder.endProduction := by
      rw [← tailProduction_use]
      exact heq
    exact absurd (congrArg (fun p : Production => p.symbols) heq)
      (by simp [signProduction, Ladder.endProduction])

theorem nodup_atom (hg : l.IsLowered num g) :
    ((l.stratified num g).productionsOf (l.ladder num g).atom).Nodup := by
  rw [Grammar.productionsOf_atom hg.operatorsOn_ne_nil]
  refine List.Nodup.map_on ?_ hg.nodup_atomsOf
  intro p hp q hq heq
  rwa [hg.atomProduction_eq hp, hg.atomProduction_eq hq] at heq

/-- The lookaheads that admit a production beginning with a terminal. -/
theorem eq_of_admits_terminal (hg : l.IsLowered num g) {nt i : Nat} {rest : List Symbol}
    {la : Lookahead}
    (h : la.admits ((l.stratified num g).firstTable.ofSymbols (.terminal i :: rest))
      (((l.stratified num g).followTable (l.stratified num g).firstTable).get nt) = true) :
    la = .terminal i := by
  have hwithin := Grammar.within_ofSymbols hg.firstClosed.within_firstTable (.terminal i :: rest)
  have hnot : ¬ Grammar.NullRow (Empty l num g) (.terminal i :: rest) := by
    intro hnull
    obtain ⟨_, heq, -⟩ := hnull _ List.mem_cons_self
    exact Symbol.noConfusion heq
  rcases Lookahead.cases_of_admits h hwithin (hg.followClosed.within_followTable nt) with
    ⟨t, rfl, ht | ⟨hempty, -⟩⟩ | hempty
  · rw [show t = i from ht]
  · exact absurd hempty hnot
  · exact absurd hempty hnot

/-- A tail is not ended where a sign of its level comes next. -/
theorem not_admits_ending (hg : l.IsLowered num g) {o : InfixOperator} (ho : o ∈ l.operators) :
    ¬ Lookahead.admits ((l.stratified num g).firstTable.ofSymbols [])
      (((l.stratified num g).followTable (l.stratified num g).firstTable).get
        ((l.ladder num g).tail (l.level num g o))) (.terminal (signOf num o)) = true := by
  intro h
  have hnext : Next l num g ((l.ladder num g).tail (l.level num g o)) (signOf num o) := by
    refine (hg.followClosed.within_followTable _).2 _ ?_
    have heither := (Bool.or_eq_true _ _).mp h
    rcases heither with hfirst | hfollow
    · have hwithin := Grammar.within_ofSymbols hg.firstClosed.within_firstTable []
      exact absurd (hwithin.2 _ hfirst) not_false
    · exact ((Bool.and_eq_true _ _).mp hfollow).2
  rcases hnext with heq | ⟨o', ho', heq, hlevel⟩
  · have := (hg.terminal_injective (sign_mem_terminals ho) close_mem_terminals).1 heq
    exact sign_ne_close ho (Terminal.literal.inj this)
  · obtain rfl := hg.signOf_injective ho ho' heq
    have := hg.atLeast_tail_iff.1 hlevel
    omega

theorem literal_ne_number (text : String) : Terminal.literal text ≠ Terminal.number := by
  intro h
  exact Terminal.noConfusion h

/-- No lookahead admits two productions of one non-terminal. -/
theorem unique (hg : l.IsLowered num g) {nt : Nat} (hnt : nt < (l.stratified num g).size)
    {la : Lookahead} {i j : Nat} {p q : Production}
    (hp : (l.stratified num g).production? nt i = some p)
    (hq : (l.stratified num g).production? nt j = some q)
    (hpa : la.admits ((l.stratified num g).firstTable.ofSymbols p.symbols)
      (((l.stratified num g).followTable (l.stratified num g).firstTable).get nt) = true)
    (hqa : la.admits ((l.stratified num g).firstTable.ofSymbols q.symbols)
      (((l.stratified num g).followTable (l.stratified num g).firstTable).get nt) = true) :
    i = j := by
  have hi := (List.getElem?_eq_some_iff.1 hp).1
  have hj := (List.getElem?_eq_some_iff.1 hq).1
  -- Where no production is listed twice, it is enough that the productions are the same.
  have hsame : ((l.stratified num g).productionsOf nt).Nodup → p = q → i = j := by
    intro hnodup heq
    refine (List.getElem?_inj hi hnodup).1 ?_
    rw [← Grammar.production?, hp, heq]
    exact hq.symm
  have hpm := Grammar.mem_productionsOf_iff.2 ⟨i, hp⟩
  have hqm := Grammar.mem_productionsOf_iff.2 ⟨j, hq⟩
  by_cases htail : ∃ k, k < (l.ladder num g).height ∧ nt = (l.ladder num g).tail k
  · obtain ⟨k, hk, rfl⟩ := htail
    refine hsame (hg.nodup_tail hk) ?_
    rcases (hg.mem_tail_iff hk).1 hpm with ⟨o, ho, rfl, rfl⟩ | rfl
    · obtain rfl := hg.eq_of_admits_terminal hpa
      rcases (hg.mem_tail_iff hk).1 hqm with ⟨o', ho', -, rfl⟩ | rfl
      · have hsign := hg.eq_of_admits_terminal hqa
        rw [hg.signOf_injective ho ho' (Lookahead.terminal.inj hsign)]
      · exact absurd hqa (hg.not_admits_ending ho)
    · rcases (hg.mem_tail_iff hk).1 hqm with ⟨o', ho', rfl, rfl⟩ | rfl
      · obtain rfl := hg.eq_of_admits_terminal hqa
        exact absurd hpa (hg.not_admits_ending ho')
      · rfl
  by_cases hatom : nt = (l.ladder num g).atom
  · subst hatom
    refine hsame hg.nodup_atom ?_
    have hdiffer : num.terminal (.literal "(") ≠ num.terminal .number := by
      intro heq
      exact literal_ne_number _
        ((hg.terminal_injective open_mem_terminals number_mem_terminals).1 heq)
    rcases hg.mem_atom_iff.1 hpm with rfl | rfl
    · obtain rfl := hg.eq_of_admits_terminal hpa
      rcases hg.mem_atom_iff.1 hqm with rfl | rfl
      · rfl
      · exact absurd (Lookahead.terminal.inj (hg.eq_of_admits_terminal hqa)) hdiffer
    · obtain rfl := hg.eq_of_admits_terminal hpa
      rcases hg.mem_atom_iff.1 hqm with rfl | rfl
      · exact absurd (Lookahead.terminal.inj (hg.eq_of_admits_terminal hqa)).symm hdiffer
      · rfl
  · have hle := hg.length_productionsOf_le_one hnt (fun k hk heq => htail ⟨k, hk, heq⟩) hatom
    omega

/-! ## No left recursion -/

/-- Ranks fall from an old non-terminal to the loosest level and from there to the atoms. -/
def rank (l : InfixLanguage) (num : Numbering) (g : Grammar) (nt : Nat) : Nat :=
  if nt = num.type l.base then 2 * (l.ladder num g).height + 1
  else if nt < g.size then 2 * (l.ladder num g).height + 2
  else g.size + 2 * (l.ladder num g).height - nt

theorem rank_head (hg : l.IsLowered num g) {k : Nat} (hk : k ≤ (l.ladder num g).height) :
    rank l num g ((l.ladder num g).head k) = 2 * (l.ladder num g).height + 1 - 2 * k := by
  have hbase := hg.base_lt
  rcases Nat.eq_zero_or_pos k with rfl | hpos
  · rw [Ladder.head_zero, Grammar.ladderAt_base, rank, if_pos rfl]
    rfl
  · have hnumber : (l.ladder num g).head k = g.size + 2 * k - 1 := by
      rw [Ladder.head_of_pos hpos, Grammar.ladderAt_first]
    rw [hnumber, rank, if_neg (by omega), if_neg (by omega)]
    omega

/-- What comes first in a climb is its operand. -/
theorem leftCorners_climb (hg : l.IsLowered num g) {k next w : Nat}
    (hk : k < (l.ladder num g).height)
    (h : w ∈ leftCorners (l.stratified num g).firstTable
      ((l.ladder num g).climbProduction k next).symbols) :
    w = (l.ladder num g).head (k + 1) := by
  have hempty : ((l.stratified num g).firstTable.nullable ((l.ladder num g).head (k + 1))) =
      false := by
    rw [Bool.eq_false_iff]
    intro hnull
    exact hg.not_empty_head _ ((hg.firstClosed.within_firstTable _).1 hnull)
  rw [symbols_climb hk, leftCorners, hempty] at h
  exact List.mem_singleton.1 h

theorem checkLeftRecursion (hg : l.IsLowered num g) :
    (l.stratified num g).checkLeftRecursion (l.stratified num g).firstTable = .ok () := by
  refine Grammar.checkLeftRecursion_eq_ok_of_rank (rank l num g) fun v w hw => ?_
  obtain ⟨p, hp, hw⟩ := List.mem_flatMap.1 hw
  cases hg.laddered_of_mem hp with
  | number => exact absurd hw List.not_mem_nil
  | declared o ho j =>
      have hlevel := hg.level_lt ho
      have hne : num.type o.name ≠ num.type l.base := by
        rw [Ne, hg.type_injective (name_mem_names ho) base_mem_names]
        exact name_ne_base ho
      rw [hg.leftCorners_climb hlevel hw, hg.rank_head hlevel, rank, if_neg hne,
        if_pos (hg.type_lt _ (name_mem_names ho))]
      omega
  | head k hk =>
      rw [hg.leftCorners_climb hk hw, hg.rank_head hk, hg.rank_head (Nat.le_of_lt hk)]
      omega
  | operator o ho => exact absurd hw List.not_mem_nil
  | ending k hk => exact absurd hw List.not_mem_nil
  | parens => exact absurd hw List.not_mem_nil
  | numberAtom => exact absurd hw List.not_mem_nil
  | forced o ho j => exact absurd hw List.not_mem_nil

/-! ## Assembly -/

/-- Everything can be derived from the grammar of the language, and nothing is decided by
priority. -/
theorem exists_compiled (hg : l.IsLowered num g) :
    ∃ compiled, Compiled.ofGrammar g.stratify = .ok compiled ∧ compiled.table.resolutions = [] := by
  rw [hg.stratify_eq]
  refine Compiled.ofGrammar_succeeds hg.checkLeftRecursion ?_ ?_
  · intro nt hnt la _
    refine Grammar.length_candidates_le_one fun i j p q hp hq hpa hqa => ?_
    exact hg.unique hnt hp hq hpa hqa
  · intro c hc
    rw [Grammar.stratifyAt_arena] at hc
    rcases mem_terminals_iff.1 (hg.arena_mem _ hc) with h | h | h | ⟨o, -, h⟩
    · exact Terminal.noConfusion h
    · exact Terminal.noConfusion h
    · obtain rfl := Terminal.ofClass.inj h
      decide +kernel
    · exact Terminal.noConfusion h

end IsLowered

end InfixLanguage

end SmallLang
