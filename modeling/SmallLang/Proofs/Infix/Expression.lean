import SmallLang.Proofs.Infix.Table

/-!
# Expressions with infix operators

An `Expression` is a number, an expression in parentheses, or two expressions with an operator between
them. It is valid if its operands bind as tightly as the operators around them ask for
(`Expression.Valid`). `Reads` reads expressions off parse trees, one off each tree (`Reads.unique`).
What is read off a derivation tree is valid and has its tokens and its value (`IsLowered.sound`), and
every valid expression is read off a derivation tree (`IsLowered.exists_tree`).
-/

set_option autoImplicit false

namespace SmallLang

/-- An expression over tokens. -/
inductive Expression where
  | number (token : Token)
  | parens (opening : Token) (inner : Expression) (closing : Token)
  | binary (operator : InfixOperator) (left : Expression) (sign : Token) (right : Expression)

namespace Expression

/-- The tokens from left to right. -/
def tokens : Expression → List Token
  | number t => [t]
  | parens a x b => a :: x.tokens ++ [b]
  | binary _ x s y => x.tokens ++ s :: y.tokens

/-- The node of an expression. Parentheses leave no trace. -/
def value (l : InfixLanguage) : Expression → Value
  | number t => .node l.number [(l.field, t.value)]
  | parens _ x _ => x.value l
  | binary o x _ y => .node o.name [(o.left, x.value l), (o.right, y.value l)]

/-- Whether an expression may stand beside an operator of the priority: an operation has to bind
tighter, or as tight where `same` holds. -/
def Fits (p : Int32) (same : Prop) : Expression → Prop
  | binary o _ _ _ => p < o.prec.priority ∨ same ∧ o.prec.priority = p
  | _ => True

/-- The tokens are of the terminals that their places ask for, and operands fit. -/
def Valid (l : InfixLanguage) (arena : Arena) : Expression → Prop
  | number t => arena.get? t.terminal = some .number
  | parens a x b =>
      arena.get? a.terminal = some (.literal "(") ∧ x.Valid l arena ∧
        arena.get? b.terminal = some (.literal ")")
  | binary o x s y =>
      o ∈ l.operators ∧ arena.get? s.terminal = some (.literal o.sign) ∧
        x.Valid l arena ∧ y.Valid l arena ∧
        x.Fits o.prec.priority (o.prec.assoc = .left) ∧
        y.Fits o.prec.priority (o.prec.assoc = .right)

end Expression

namespace InfixLanguage

variable {l : InfixLanguage} {num : Numbering} {g : Grammar}

/-! ## Reading trees -/

/-- The function is what the tree makes of the expression before it. Only tails ask for that
expression. -/
inductive Reads (l : InfixLanguage) (g : Grammar) : ParseTree → (Expression → Expression) → Prop
  | number {nt p : Nat} (token : Token)
      (hc : g.constructionOf nt p = .node l.number [⟨l.field, 0, none⟩]) :
      Reads l g (.node nt p [.token token]) fun _ => .number token
  | parens {nt p : Nat} (a b : Token) {t : ParseTree} {f : Expression → Expression}
      (hc : g.constructionOf nt p = .child 1) (ht : Reads l g t f) :
      Reads l g (.node nt p [.token a, t, .token b]) fun x => .parens a (f x) b
  | climb {nt p : Nat} {t tail : ParseTree} {f h : Expression → Expression}
      (hc : g.constructionOf nt p = .climb) (ht : Reads l g t f) (htail : Reads l g tail h) :
      Reads l g (.node nt p [t, tail]) fun x => h (f x)
  | operator {nt p : Nat} (o : InfixOperator) (ho : o ∈ l.operators) (s : Token) {t : ParseTree}
      {f : Expression → Expression} (hc : g.constructionOf nt p = .operator o.construction false)
      (ht : Reads l g t f) :
      Reads l g (.node nt p [.token s, t]) fun x => .binary o x s (f x)
  | loop {nt p : Nat} (o : InfixOperator) (ho : o ∈ l.operators) (s : Token) {t tail : ParseTree}
      {f h : Expression → Expression} (hc : g.constructionOf nt p = .operator o.construction true)
      (ht : Reads l g t f) (htail : Reads l g tail h) :
      Reads l g (.node nt p [.token s, t, tail]) fun x => h (.binary o x s (f x))
  | ending {nt p : Nat} (hc : g.constructionOf nt p = .endOfTail) : Reads l g (.node nt p []) id

/-- A tree is read in one way. -/
theorem Reads.unique {t : ParseTree} {f f' : Expression → Expression} (h : Reads l g t f)
    (h' : Reads l g t f') : f = f' := by
  induction h generalizing f' with
  | number token hc =>
      cases h' with
      | number => rfl
  | parens a b hc ht ih =>
      cases h' with
      | parens _ _ _ ht' => rw [ih ht']
      | loop o ho s hc' => exact absurd (hc.symm.trans hc') (by simp)
  | climb hc ht htail ih ihtail =>
      cases h' with
      | climb _ ht' htail' => rw [ih ht', ihtail htail']
      | operator o ho s hc' => exact absurd (hc.symm.trans hc') (by simp)
  | operator o ho s hc ht ih =>
      cases h' with
      | climb hc' => exact absurd (hc.symm.trans hc') (by simp)
      | operator o' ho' _ hc' ht' =>
          have heq := hc.symm.trans hc'
          simp only [InfixOperator.construction, Construction.operator.injEq,
            Construction.node.injEq] at heq
          rw [ih ht', eq_of_name_eq ho ho' heq.1.1]
  | loop o ho s hc ht htail ih ihtail =>
      cases h' with
      | parens _ _ hc' => exact absurd (hc.symm.trans hc') (by simp)
      | loop o' ho' _ hc' ht' htail' =>
          have heq := hc.symm.trans hc'
          simp only [InfixOperator.construction, Construction.operator.injEq,
            Construction.node.injEq] at heq
          rw [ih ht', ihtail htail', eq_of_name_eq ho ho' heq.1.1]
  | ending hc =>
      cases h' with
      | ending => rfl

/-! ## Levels of expressions -/

/-- The level of an operation is that of its operator. Numbers and parentheses are above all. -/
def exprLevel (l : InfixLanguage) (num : Numbering) (g : Grammar) : Expression → Nat
  | .binary o _ _ _ => l.level num g o
  | _ => (l.ladder num g).height

namespace IsLowered

theorem level_lt_level_iff (hg : l.IsLowered num g) {o p : InfixOperator} (ho : o ∈ l.operators)
    (hp : p ∈ l.operators) :
    l.level num g o < l.level num g p ↔ o.prec.priority < p.prec.priority :=
  (Grammar.sorted_ladderAt g (num.type l.base)).lt_iff (hg.getElem?_level ho)
    (hg.getElem?_level hp)

theorem level_eq_level_iff (hg : l.IsLowered num g) {o p : InfixOperator} (ho : o ∈ l.operators)
    (hp : p ∈ l.operators) :
    l.level num g o = l.level num g p ↔ o.prec.priority = p.prec.priority := by
  constructor
  · intro h
    have hget := hg.getElem?_level ho
    rw [h, hg.getElem?_level hp] at hget
    exact (Option.some.inj hget).symm
  · intro h
    rw [level, level, h]

theorem assoc_eq_of_level_eq (hg : l.IsLowered num g) {o p : InfixOperator} (ho : o ∈ l.operators)
    (hp : p ∈ l.operators) (h : l.level num g o = l.level num g p) :
    o.prec.assoc = p.prec.assoc :=
  l.assoc_eq o ho p hp ((hg.level_eq_level_iff ho hp).1 h)

theorem exprLevel_le (hg : l.IsLowered num g) {arena : Arena} {x : Expression}
    (hx : x.Valid l arena) : exprLevel l num g x ≤ (l.ladder num g).height := by
  cases x with
  | number t => exact Nat.le_refl _
  | parens a x b => exact Nat.le_refl _
  | binary o x s y => exact Nat.le_of_lt (hg.level_lt hx.1)

/-- An expression fits beside an operator by its level. -/
theorem fits_iff (hg : l.IsLowered num g) {arena : Arena} {o : InfixOperator}
    (ho : o ∈ l.operators) {same : Prop} {x : Expression} (hx : x.Valid l arena) :
    x.Fits o.prec.priority same ↔
      l.level num g o < exprLevel l num g x ∨
        same ∧ exprLevel l num g x = l.level num g o := by
  cases x with
  | number t => exact iff_of_true trivial (Or.inl (hg.level_lt ho))
  | parens a x b => exact iff_of_true trivial (Or.inl (hg.level_lt ho))
  | binary p x s y =>
      rw [Expression.Fits, exprLevel, hg.level_lt_level_iff ho hx.1, hg.level_eq_level_iff hx.1 ho]

end IsLowered

/-- An expression may stand before a tail: it is tighter than the level, or at the level where that
groups to the left. -/
def Before (l : InfixLanguage) (num : Numbering) (g : Grammar) (k : Nat) (x : Expression) : Prop :=
  x.Valid l g.arena ∧
    (k < exprLevel l num g x ∨
      exprLevel l num g x = k ∧ ∀ o ∈ l.operators, l.level num g o = k → o.prec.assoc = .left)

/-- The tree reads as a valid expression of the level or a tighter one, whatever stands before it. -/
structure ReadsHead (l : InfixLanguage) (num : Numbering) (g : Grammar) (k : Nat) (t : ParseTree)
    (f : Expression → Expression) : Prop where
  reads : Reads l (l.stratified num g) t f
  valid : ∀ x, (f x).Valid l g.arena
  level : ∀ x, k ≤ exprLevel l num g (f x)
  tokens : ∀ x, (f x).tokens = t.tokens
  value : ∀ x, (f x).value l = t.value (l.stratified num g)

/-- The tree makes valid expressions of the level of those that may stand before it. -/
structure ReadsTail (l : InfixLanguage) (num : Numbering) (g : Grammar) (k : Nat) (t : ParseTree)
    (f : Expression → Expression) : Prop where
  reads : Reads l (l.stratified num g) t f
  valid : ∀ x, Before l num g k x → (f x).Valid l g.arena
  level : ∀ x, Before l num g k x → k ≤ exprLevel l num g (f x)
  tokens : ∀ x, (f x).tokens = x.tokens ++ t.tokens
  value : ∀ x, (f x).value l = (t.meaning (l.stratified num g)).climb (x.value l)

/-! ## What is read is valid -/

/-- An operand and its tail. -/
theorem ReadsHead.climb {k p nt : Nat} {t tail : ParseTree} {f h : Expression → Expression}
    (hc : (l.stratified num g).constructionOf nt p = .climb) (ht : ReadsHead l num g (k + 1) t f)
    (htail : ReadsTail l num g k tail h) :
    ReadsHead l num g k (.node nt p [t, tail]) fun x => h (f x) := by
  have hbefore : ∀ x, Before l num g k (f x) := fun x => ⟨ht.valid x, Or.inl (ht.level x)⟩
  refine ⟨.climb hc ht.reads htail.reads, fun x => htail.valid _ (hbefore x),
    fun x => htail.level _ (hbefore x), fun x => ?_, fun x => ?_⟩
  · rw [htail.tokens, ht.tokens]
    simp
  · rw [htail.value, ht.value, ParseTree.value, ParseTree.value, ParseTree.meaning_node, hc]
    rfl

/-- The end of a tail changes nothing. -/
theorem ReadsTail.ending {k p nt : Nat}
    (hc : (l.stratified num g).constructionOf nt p = .endOfTail) :
    ReadsTail l num g k (.node nt p []) id := by
  refine ⟨.ending hc, fun x hx => hx.1, fun x hx => ?_, fun x => ?_, fun x => ?_⟩
  · rcases hx.2 with hlt | ⟨heq, -⟩
    · exact Nat.le_of_lt hlt
    · exact Nat.le_of_eq heq.symm
  · simp
  · rw [ParseTree.meaning_node, hc]
    rfl

namespace IsLowered

/-- What an operator makes of operands that may stand around it is valid. -/
theorem valid_binary (hg : l.IsLowered num g) {o : InfixOperator} (ho : o ∈ l.operators)
    {s : Token} (hs : g.arena.get? s.terminal = some (.literal o.sign)) {x y : Expression}
    (hx : Before l num g (l.level num g o) x) (hy : y.Valid l g.arena)
    (hlevel : (if o.prec.assoc = .right then l.level num g o else l.level num g o + 1) ≤
      exprLevel l num g y) :
    (Expression.binary o x s y).Valid l g.arena := by
  refine ⟨ho, hs, hx.1, hy, (hg.fits_iff ho hx.1).2 ?_, (hg.fits_iff ho hy).2 ?_⟩
  · rcases hx.2 with hlt | ⟨heq, hleft⟩
    · exact Or.inl hlt
    · exact Or.inr ⟨hleft o ho rfl, heq⟩
  · split at hlevel
    · rename_i hright
      rcases Nat.eq_or_lt_of_le hlevel with heq | hlt
      · exact Or.inr ⟨hright, heq.symm⟩
      · exact Or.inl hlt
    · exact Or.inl hlevel

theorem get?_of_terminal (hg : l.IsLowered num g) {t : Terminal} (ht : t ∈ l.terminals)
    {token : Token} (h : token.terminal = num.terminal t) :
    g.arena.get? token.terminal = some t :=
  (hg.terminal_iff t ht _).2 h

/-- An operator that groups to the right or not at all ends its tail. -/
theorem readsTail_operator (hg : l.IsLowered num g) {o : InfixOperator} (ho : o ∈ l.operators)
    {nt p k : Nat} {s : Token} {t : ParseTree}
    {f : Expression → Expression} (hs : g.arena.get? s.terminal = some (.literal o.sign))
    (hc : (l.stratified num g).constructionOf nt p = .operator o.construction false)
    (hk : (if o.prec.assoc = .right then l.level num g o else l.level num g o + 1) = k)
    (ht : ReadsHead l num g k t f) :
    ReadsTail l num g (l.level num g o) (.node nt p [.token s, t])
      fun x => .binary o x s (f x) := by
  refine ⟨.operator o ho s hc ht.reads, fun x hx => ?_, fun x _ => Nat.le_refl _, fun x => ?_,
    fun x => ?_⟩
  · exact hg.valid_binary ho hs hx (ht.valid x) (hk ▸ ht.level x)
  · rw [Expression.tokens, ht.tokens]
    simp
  · rw [Expression.value, ht.value, ParseTree.meaning_node, hc]
    rfl

/-- An operator that groups to the left goes on with what it made. -/
theorem readsTail_loop (hg : l.IsLowered num g) {o : InfixOperator} (ho : o ∈ l.operators)
    (hassoc : o.prec.assoc = .left) {nt p : Nat} {s : Token} {t tail : ParseTree}
    {f h : Expression → Expression} (hs : g.arena.get? s.terminal = some (.literal o.sign))
    (hc : (l.stratified num g).constructionOf nt p = .operator o.construction true)
    (ht : ReadsHead l num g (l.level num g o + 1) t f)
    (htail : ReadsTail l num g (l.level num g o) tail h) :
    ReadsTail l num g (l.level num g o) (.node nt p [.token s, t, tail])
      fun x => h (.binary o x s (f x)) := by
  have hbefore : ∀ x, Before l num g (l.level num g o) x →
      Before l num g (l.level num g o) (.binary o x s (f x)) := by
    intro x hx
    refine ⟨hg.valid_binary ho hs hx (ht.valid x) ?_, Or.inr ⟨rfl, fun o' ho' hlevel => ?_⟩⟩
    · rw [if_neg (by rw [hassoc]; simp)]
      exact ht.level x
    · rw [hg.assoc_eq_of_level_eq ho' ho hlevel]
      exact hassoc
  refine ⟨.loop o ho s hc ht.reads htail.reads, fun x hx => htail.valid _ (hbefore x hx),
    fun x hx => htail.level _ (hbefore x hx), fun x => ?_, fun x => ?_⟩
  · rw [htail.tokens, Expression.tokens, ht.tokens]
    simp
  · rw [htail.value, Expression.value, ht.value, ParseTree.meaning_node, hc]
    rfl

theorem readsHead_parens (hg : l.IsLowered num g) {nt p : Nat} {a b : Token} {t : ParseTree}
    {f : Expression → Expression} (hc : (l.stratified num g).constructionOf nt p = .child 1)
    (ha : a.terminal = num.terminal (.literal "(")) (hb : b.terminal = num.terminal (.literal ")"))
    (ht : ReadsHead l num g 0 t f) :
    ReadsHead l num g (l.ladder num g).height (.node nt p [.token a, t, .token b])
      fun x => .parens a (f x) b := by
  refine ⟨.parens a b hc ht.reads, fun x => ?_, fun x => Nat.le_refl _, fun x => ?_, fun x => ?_⟩
  · exact ⟨hg.get?_of_terminal open_mem_terminals ha, ht.valid x,
      hg.get?_of_terminal close_mem_terminals hb⟩
  · rw [Expression.tokens, ht.tokens]
    simp
  · rw [Expression.value, ht.value, ParseTree.value, ParseTree.value, ParseTree.meaning_node, hc]
    rfl

theorem readsHead_number (hg : l.IsLowered num g) {nt p : Nat} {token : Token}
    (hc : (l.stratified num g).constructionOf nt p = .node l.number [⟨l.field, 0, none⟩])
    (ht : token.terminal = num.terminal .number) :
    ReadsHead l num g (l.ladder num g).height (.node nt p [.token token])
      fun _ => .number token := by
  refine ⟨.number token hc, fun x => hg.get?_of_terminal number_mem_terminals ht,
    fun x => Nat.le_refl _, fun x => ?_, fun x => ?_⟩
  · simp [Expression.tokens]
  · rw [Expression.value, ParseTree.value, ParseTree.meaning_node, hc]
    rfl

/-- What derives from a level or a tail is read as an expression of the level, or as what makes one of
the expression before it. -/
theorem sound (hg : l.IsLowered num g) {s : Symbol} {t : ParseTree}
    (h : (l.stratified num g).Derives s t) :
    (∀ k ≤ (l.ladder num g).height, s = .nonTerminal ((l.ladder num g).head k) →
        ∃ f, ReadsHead l num g k t f) ∧
      ∀ k < (l.ladder num g).height, s = .nonTerminal ((l.ladder num g).tail k) →
        ∃ f, ReadsTail l num g k t f := by
  induction h using Grammar.Derives.rec_on with
  | token token =>
      exact ⟨fun k _ hs => Symbol.noConfusion hs, fun k _ hs => Symbol.noConfusion hs⟩
  | node nt p production children hp hc ih =>
      -- By the production: an atom, a climb, an operator in the tail or the end of it.
      have hmem := Grammar.mem_productionsOf_iff.2 ⟨p, hp⟩
      have hconstruction := Grammar.constructionOf_eq hp
      constructor
      · intro k hk hs
        obtain rfl := Symbol.nonTerminal.inj hs
        rcases Nat.eq_or_lt_of_le hk with rfl | hk
        · rw [← Ladder.atom_eq_head hg.height_pos, hg.mem_atom_iff] at hmem
          rcases hmem with rfl | rfl
          · obtain _ | ⟨⟨ha, -⟩, _ | ⟨⟨-, hinner⟩, _ | ⟨⟨hb, -⟩, _ | _⟩⟩⟩ := ih
            obtain ⟨a, rfl, hopening⟩ := Grammar.derives_terminal_iff.1 ha
            obtain ⟨b, rfl, hclosing⟩ := Grammar.derives_terminal_iff.1 hb
            obtain ⟨f, hf⟩ := hinner.1 0 (Nat.zero_le _) rfl
            exact ⟨_, hg.readsHead_parens hconstruction hopening hclosing hf⟩
          · obtain _ | ⟨⟨ht, -⟩, _ | _⟩ := ih
            obtain ⟨token, rfl, htoken⟩ := Grammar.derives_terminal_iff.1 ht
            exact ⟨_, hg.readsHead_number hconstruction htoken⟩
        · rw [hg.productionsOf_head hk, List.mem_singleton] at hmem
          subst hmem
          rw [symbols_climb hk] at ih
          obtain _ | ⟨⟨-, hoperand⟩, _ | ⟨⟨-, htail⟩, _ | _⟩⟩ := ih
          obtain ⟨f, hf⟩ := hoperand.1 (k + 1) hk rfl
          obtain ⟨h, hh⟩ := htail.2 k hk rfl
          exact ⟨_, hf.climb hconstruction hh⟩
      · intro k hk hs
        obtain rfl := Symbol.nonTerminal.inj hs
        rcases (hg.mem_tail_iff hk).1 hmem with ⟨o, ho, rfl, rfl⟩ | rfl
        · rw [signProduction, hg.rightOperand_eq ho] at ih
          rw [signProduction] at hconstruction
          by_cases hassoc : o.prec.assoc = .left
          · simp only [hassoc, if_true, reduceCtorEq, if_false, List.cons_append,
              List.nil_append] at ih
            obtain _ | ⟨⟨hs, -⟩, _ | ⟨⟨-, hoperand⟩, _ | ⟨⟨-, htail⟩, _ | _⟩⟩⟩ := ih
            obtain ⟨token, rfl, hsign⟩ := Grammar.derives_terminal_iff.1 hs
            obtain ⟨f, hf⟩ := hoperand.1 _ hk rfl
            obtain ⟨h, hh⟩ := htail.2 _ hk rfl
            refine ⟨_, hg.readsTail_loop ho hassoc
              (hg.get?_of_terminal (sign_mem_terminals ho) hsign) ?_ hf hh⟩
            rw [hconstruction, hassoc]
            rfl
          · simp only [if_neg hassoc, List.append_nil] at ih
            obtain _ | ⟨⟨hs, -⟩, _ | ⟨⟨-, hoperand⟩, _ | _⟩⟩ := ih
            obtain ⟨token, rfl, hsign⟩ := Grammar.derives_terminal_iff.1 hs
            obtain ⟨f, hf⟩ := hoperand.1 _ (by split <;> omega) rfl
            refine ⟨_, hg.readsTail_operator ho
              (hg.get?_of_terminal (sign_mem_terminals ho) hsign) ?_ rfl hf⟩
            rw [hconstruction, beq_eq_false_iff_ne.2 hassoc]
        · obtain _ | _ := ih
          exact ⟨_, ReadsTail.ending hconstruction⟩

end IsLowered

/-! ## What is valid is read -/

/-- Some derivation tree of the level is read so. -/
def HeadReads (l : InfixLanguage) (num : Numbering) (g : Grammar) (k : Nat)
    (f : Expression → Expression) : Prop :=
  ∃ t, (l.stratified num g).Derives (.nonTerminal ((l.ladder num g).head k)) t ∧
    Reads l (l.stratified num g) t f

/-- Some derivation tree of the tail is read so. -/
def TailReads (l : InfixLanguage) (num : Numbering) (g : Grammar) (k : Nat)
    (f : Expression → Expression) : Prop :=
  ∃ t, (l.stratified num g).Derives (.nonTerminal ((l.ladder num g).tail k)) t ∧
    Reads l (l.stratified num g) t f

namespace IsLowered

theorem headReads_climb (hg : l.IsLowered num g) {k : Nat} (hk : k < (l.ladder num g).height)
    {f h : Expression → Expression} (hf : HeadReads l num g (k + 1) f)
    (hh : TailReads l num g k h) : HeadReads l num g k fun x => h (f x) := by
  obtain ⟨t, ht, hf⟩ := hf
  obtain ⟨tail, htail, hh⟩ := hh
  have hmem : (l.ladder num g).climbProduction k ((l.ladder num g).tail k) ∈
      (l.stratified num g).productionsOf ((l.ladder num g).head k) := by
    rw [hg.productionsOf_head hk]
    exact List.mem_cons_self
  obtain ⟨p, hp⟩ := Grammar.mem_productionsOf_iff.1 hmem
  refine ⟨_, .node hp ?_, .climb (Grammar.constructionOf_eq hp) hf hh⟩
  rw [symbols_climb hk]
  exact .cons ht (.cons htail .nil)

theorem tailReads_ending (hg : l.IsLowered num g) {k : Nat} (hk : k < (l.ladder num g).height) :
    TailReads l num g k id := by
  obtain ⟨p, hp⟩ := Grammar.mem_productionsOf_iff.1 ((hg.mem_tail_iff hk).2 (Or.inr rfl))
  exact ⟨_, .node hp .nil, .ending (Grammar.constructionOf_eq hp)⟩

/-- What is read off a level is read off all looser ones. -/
theorem headReads_of_le (hg : l.IsLowered num g) {f : Expression → Expression} {j k : Nat}
    (hjk : k ≤ j) (hj : j ≤ (l.ladder num g).height) (h : HeadReads l num g j f) :
    HeadReads l num g k f := by
  obtain ⟨d, rfl⟩ := Nat.exists_eq_add_of_le hjk
  clear hjk
  induction d with
  | zero => exact h
  | succ d ih =>
      have hlt : k + d < (l.ladder num g).height := hj
      have hclimb := hg.headReads_climb (f := f) (h := id) hlt h (hg.tailReads_ending hlt)
      exact ih (Nat.le_of_lt hlt) hclimb

theorem terminal_of_get? (hg : l.IsLowered num g) {t : Terminal} (ht : t ∈ l.terminals)
    {token : Token} (h : g.arena.get? token.terminal = some t) :
    (l.stratified num g).Derives (.terminal (num.terminal t)) (.token token) :=
  Grammar.derives_token_iff.2 (congrArg Symbol.terminal ((hg.terminal_iff t ht _).1 h).symm)

theorem headReads_number (hg : l.IsLowered num g) {t : Token}
    (ht : g.arena.get? t.terminal = some .number) :
    HeadReads l num g (l.ladder num g).height fun _ => .number t := by
  obtain ⟨p, hp⟩ := Grammar.mem_productionsOf_iff.1 (hg.mem_atom_iff.2 (Or.inr rfl))
  rw [HeadReads, ← Ladder.atom_eq_head hg.height_pos]
  refine ⟨_, .node hp ?_, .number t (Grammar.constructionOf_eq hp)⟩
  exact .cons (hg.terminal_of_get? number_mem_terminals ht) .nil

theorem headReads_parens (hg : l.IsLowered num g) {a b : Token}
    (ha : g.arena.get? a.terminal = some (.literal "("))
    (hb : g.arena.get? b.terminal = some (.literal ")")) {f : Expression → Expression}
    (hf : HeadReads l num g 0 f) :
    HeadReads l num g (l.ladder num g).height fun x => .parens a (f x) b := by
  obtain ⟨t, ht, hf⟩ := hf
  obtain ⟨p, hp⟩ := Grammar.mem_productionsOf_iff.1 (hg.mem_atom_iff.2 (Or.inl rfl))
  rw [HeadReads, ← Ladder.atom_eq_head hg.height_pos]
  refine ⟨_, .node hp ?_, .parens a b (Grammar.constructionOf_eq hp) hf⟩
  refine .cons (hg.terminal_of_get? open_mem_terminals ha) (.cons ht (.cons ?_ .nil))
  exact hg.terminal_of_get? close_mem_terminals hb

/-- The production of an operator in the tail of its level. -/
theorem exists_sign (hg : l.IsLowered num g) {o : InfixOperator} (ho : o ∈ l.operators) :
    ∃ p, (l.stratified num g).production? ((l.ladder num g).tail (l.level num g o)) p =
      some (l.signProduction num g o) :=
  Grammar.mem_productionsOf_iff.1
    ((hg.mem_tail_iff (hg.level_lt ho)).2 (Or.inl ⟨o, ho, rfl, rfl⟩))

theorem tailReads_operator (hg : l.IsLowered num g) {o : InfixOperator} (ho : o ∈ l.operators)
    (hassoc : o.prec.assoc ≠ .left) {s : Token}
    (hs : g.arena.get? s.terminal = some (.literal o.sign)) {f : Expression → Expression}
    (hf : HeadReads l num g
      (if o.prec.assoc = .right then l.level num g o else l.level num g o + 1) f) :
    TailReads l num g (l.level num g o) fun x => .binary o x s (f x) := by
  obtain ⟨t, ht, hf⟩ := hf
  obtain ⟨p, hp⟩ := hg.exists_sign ho
  refine ⟨_, .node hp ?_, .operator o ho s ?_ hf⟩
  · rw [signProduction, if_neg hassoc, hg.rightOperand_eq ho]
    exact .cons (hg.terminal_of_get? (sign_mem_terminals ho) hs) (.cons ht .nil)
  · rw [Grammar.constructionOf_eq hp, signProduction, beq_eq_false_iff_ne.2 hassoc]

theorem tailReads_loop (hg : l.IsLowered num g) {o : InfixOperator} (ho : o ∈ l.operators)
    (hassoc : o.prec.assoc = .left) {s : Token}
    (hs : g.arena.get? s.terminal = some (.literal o.sign)) {f h : Expression → Expression}
    (hf : HeadReads l num g (l.level num g o + 1) f)
    (hh : TailReads l num g (l.level num g o) h) :
    TailReads l num g (l.level num g o) fun x => h (.binary o x s (f x)) := by
  obtain ⟨t, ht, hf⟩ := hf
  obtain ⟨tail, htail, hh⟩ := hh
  obtain ⟨p, hp⟩ := hg.exists_sign ho
  refine ⟨_, .node hp ?_, .loop o ho s ?_ hf hh⟩
  · rw [signProduction, if_pos hassoc, hg.rightOperand_eq ho, hassoc]
    exact .cons (hg.terminal_of_get? (sign_mem_terminals ho) hs) (.cons ht (.cons htail .nil))
  · rw [Grammar.constructionOf_eq hp, signProduction, hassoc]
    rfl

/-- Above the level of a tail an expression is an operand, and is read together with any tree of it. -/
theorem headReads_before (hg : l.IsLowered num g) {x : Expression} (hx : x.Valid l g.arena)
    (hreads : HeadReads l num g (exprLevel l num g x) fun _ => x) {k : Nat}
    (hk : k < (l.ladder num g).height) (hlt : k < exprLevel l num g x) {h : Expression → Expression}
    (hh : TailReads l num g k h) : HeadReads l num g k fun _ => h x :=
  hg.headReads_climb hk (hg.headReads_of_le hlt (hg.exprLevel_le hx) hreads) hh

/-- What an operator that groups to the left makes goes on with any tail of its level: the operator is
put in front of the tail, and its left operand stands before both. -/
theorem headReads_binary_left (hg : l.IsLowered num g) {o : InfixOperator} {x y : Expression}
    {s : Token} (hv : (Expression.binary o x s y).Valid l g.arena) (hassoc : o.prec.assoc = .left)
    (ihx : ∀ k < (l.ladder num g).height, Before l num g k x → ∀ h, TailReads l num g k h →
      HeadReads l num g k fun _ => h x)
    (ihy : HeadReads l num g (exprLevel l num g y) fun _ => y) {h : Expression → Expression}
    (hh : TailReads l num g (l.level num g o) h) :
    HeadReads l num g (l.level num g o) fun _ => h (.binary o x s y) := by
  obtain ⟨ho, hs, hxv, hyv, hxf, hyf⟩ := hv
  have hylt : l.level num g o < exprLevel l num g y := by
    rcases (hg.fits_iff ho hyv).1 hyf with hlt | ⟨hright, -⟩
    · exact hlt
    · rw [hassoc] at hright
      exact absurd hright (by simp)
  have hoperand := hg.headReads_of_le hylt (hg.exprLevel_le hyv) ihy
  refine ihx _ (hg.level_lt ho) ⟨hxv, ?_⟩ _ (hg.tailReads_loop ho hassoc hs hoperand hh)
  rcases (hg.fits_iff ho hxv).1 hxf with hlt | ⟨-, heq⟩
  · exact Or.inl hlt
  · refine Or.inr ⟨heq, fun o' ho' hlevel => ?_⟩
    rw [hg.assoc_eq_of_level_eq ho' ho hlevel]
    exact hassoc

/-- What any other operator makes is read off its level. -/
theorem headReads_binary (hg : l.IsLowered num g) {o : InfixOperator} {x y : Expression} {s : Token}
    (hv : (Expression.binary o x s y).Valid l g.arena) (hassoc : o.prec.assoc ≠ .left)
    (ihx : HeadReads l num g (exprLevel l num g x) fun _ => x)
    (ihy : HeadReads l num g (exprLevel l num g y) fun _ => y) :
    HeadReads l num g (l.level num g o) fun _ => .binary o x s y := by
  obtain ⟨ho, hs, hxv, hyv, hxf, hyf⟩ := hv
  have hxlt : l.level num g o < exprLevel l num g x := by
    rcases (hg.fits_iff ho hxv).1 hxf with hlt | ⟨hleft, -⟩
    · exact hlt
    · exact absurd hleft hassoc
  have hyle : (if o.prec.assoc = .right then l.level num g o else l.level num g o + 1) ≤
      exprLevel l num g y := by
    rcases (hg.fits_iff ho hyv).1 hyf with hlt | ⟨hright, heq⟩
    · split <;> omega
    · rw [if_pos hright]
      exact Nat.le_of_eq heq.symm
  have hoperand := hg.headReads_of_le hyle (hg.exprLevel_le hyv) ihy
  exact hg.headReads_before hxv ihx (hg.level_lt ho) hxlt (hg.tailReads_operator ho hassoc hs hoperand)

/-- A valid expression is read off its level. An expression that may stand before a tail is read
together with any tree of the tail: for chains that group to the left the tail grows while the
expression before it shrinks. -/
theorem headReads_of_valid (hg : l.IsLowered num g) {x : Expression} (hx : x.Valid l g.arena) :
    (HeadReads l num g (exprLevel l num g x) fun _ => x) ∧
      ∀ k < (l.ladder num g).height, Before l num g k x → ∀ h, TailReads l num g k h →
        HeadReads l num g k fun _ => h x := by
  induction x with
  | number t =>
      have hreads := hg.headReads_number hx
      exact ⟨hreads, fun k hk _ h hh => hg.headReads_before hx hreads hk hk hh⟩
  | parens a x b ih =>
      obtain ⟨ha, hvalid, hb⟩ := id hx
      have hinner := hg.headReads_of_le (Nat.zero_le _) (hg.exprLevel_le hvalid) (ih hvalid).1
      have hreads := hg.headReads_parens ha hb hinner
      exact ⟨hreads, fun k hk _ h hh => hg.headReads_before hx hreads hk hk hh⟩
  | binary o x s y ihx ihy =>
      obtain ⟨ho, -, hxv, hyv, -, -⟩ := id hx
      have hgo := fun hassoc h => hg.headReads_binary_left (h := h) hx hassoc (ihx hxv).2 (ihy hyv).1
      have hreads : HeadReads l num g (l.level num g o) fun _ => .binary o x s y := by
        by_cases hassoc : o.prec.assoc = .left
        · exact hgo hassoc id (hg.tailReads_ending (hg.level_lt ho))
        · exact hg.headReads_binary hx hassoc (ihx hxv).1 (ihy hyv).1
      refine ⟨hreads, fun k hk hbefore h hh => ?_⟩
      rcases hbefore.2 with hklt | ⟨heq, hleft⟩
      · exact hg.headReads_before hx hreads hk hklt hh
      · obtain rfl : l.level num g o = k := heq
        exact hgo (hleft o ho rfl) h hh

/-- Every valid expression is read off a derivation tree of the start symbol. -/
theorem exists_tree (hg : l.IsLowered num g) {x : Expression} (hx : x.Valid l g.arena) :
    HeadReads l num g 0 fun _ => x :=
  hg.headReads_of_le (Nat.zero_le _) (hg.exprLevel_le hx) (hg.headReads_of_valid hx).1

end IsLowered

end InfixLanguage

end SmallLang
