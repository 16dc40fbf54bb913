import SmallLang.Proofs.Lookahead.ParseTable
import SmallLang.Proofs.Mixed.Words

/-!
# Words are read greedily

Where the operators that stand after their operand bind tightest (`Mixture.SuffixesTightest`), a word is
read from the left to the right: a level reads its operand, and then its tail takes every operator of
the level and ends before an operator of a looser one. No operator of a tighter level is left at that
point, which is what `Mixture.Below` keeps track of. The trees so found are those that the table
prefers (`Mixture.Reads`), since a tail ends only where none of its operators comes next. By induction
on the length of the word, and for each length from the atoms down to the loosest level, the base reads
every word (`Describes.reads`).
-/

set_option autoImplicit false

namespace SmallLang

open Parser.Setup (lookahead)

namespace Mixture

variable {m : Mixture} {g : Grammar}

/-- Operators that stand after their operand have the highest priority of all operators with a left
operand. -/
def SuffixesTightest (m : Mixture) : Prop :=
  ∀ o ∈ m.operators, o.fixity = .after → ∀ p ∈ m.operators, p.Continues →
    p.prec.priority ≤ o.prec.priority

/-- What may come after a word: nothing, or a closing parenthesis. -/
def Ends (m : Mixture) (tokens : List Token) : Prop :=
  ∀ t ∈ tokens.head?, t.terminal = m.closing

/-- No operator of the level or a tighter one comes next. -/
def Below (m : Mixture) (g : Grammar) (k : Nat) (tokens : List Token) : Prop :=
  ∀ t ∈ tokens.head?, ∀ o ∈ m.operators, t.terminal = o.terminal → m.level g o < k

/-- Trees of the symbols read the tokens up to a chain that begins below the level. Whatever comes after
the word, the table prefers no other production to one of these trees. -/
def Reads (m : Mixture) (g : Grammar) (ss : List Symbol) (k : Nat) (tokens : List Token) : Prop :=
  ∃ ts rest, m.Spells .chain rest ∧ m.Below g k rest ∧ g.stratify.DerivesRow ss ts ∧
    ts.flatMap ParseTree.tokens ++ rest = tokens ∧
    ∀ after, m.Ends after → g.stratify.PreferredAll ts (rest ++ after)

/-! ## What comes next -/

theorem Below.mono {j k : Nat} {tokens : List Token} (h : m.Below g j tokens) (hjk : j ≤ k) :
    m.Below g k tokens :=
  fun t ht o ho heq => Nat.lt_of_lt_of_le (h t ht o ho heq) hjk

theorem below_nil (m : Mixture) (g : Grammar) (k : Nat) : m.Below g k [] :=
  fun _ ht => absurd ht (by simp)

theorem ends_nil (m : Mixture) : m.Ends [] := fun _ ht => absurd ht (by simp)

/-- Whether a chain begins below a level depends on its first operator. -/
theorem below_cons_iff {o : Sign} (ho : o ∈ m.operators) {t : Token}
    (ht : t.terminal = o.terminal) {k : Nat} {r : List Token} :
    m.Below g k (t :: r) ↔ m.level g o < k := by
  constructor
  · intro h
    exact h t rfl o ho ht
  · intro hlt t' ht' p hp heq
    obtain rfl : t = t' := Option.some.inj ht'
    rw [← eq_of_terminal_eq ho hp (ht.symm.trans heq)]
    exact hlt

/-- Below the loosest level nothing is left. -/
theorem eq_nil_of_below_zero {r : List Token} (hr : m.Spells .chain r) (h : m.Below g 0 r) :
    r = [] := by
  cases r with
  | nil => rfl
  | cons t r =>
      obtain ⟨o, ho, -, ht⟩ := hr.exists_of_chain
      exact absurd (h t rfl o ho ht) (Nat.not_lt_zero _)

namespace Describes

/-- Every chain begins below the atoms. -/
theorem below_height (d : m.Describes g) {r : List Token} (hr : m.Spells .chain r) :
    m.Below g (g.ladder m.base).height r := by
  cases r with
  | nil => exact below_nil m g _
  | cons t r =>
      obtain ⟨o, ho, hc, ht⟩ := hr.exists_of_chain
      exact (below_cons_iff ho ht).2 (d.level_lt ho hc)

/-- After an operator that stands after its operand no tighter operator comes next. -/
theorem below_of_after (d : m.Describes g) (htight : m.SuffixesTightest) {o : Sign}
    (ho : o ∈ m.operators) (hafter : o.fixity = .after) {r : List Token}
    (hr : m.Spells .chain r) : m.Below g (m.level g o + 1) r := by
  have hoc : o.Continues := by simp [Sign.Continues, hafter]
  cases r with
  | nil => exact below_nil m g _
  | cons t r =>
      obtain ⟨p, hp, hpc, ht⟩ := hr.exists_of_chain
      refine (below_cons_iff hp ht).2 (Nat.lt_succ_of_le (Nat.not_lt.1 fun hlt => ?_))
      have hprio := (d.level_lt_level_iff ho hoc hp hpc).1 hlt
      exact Int32.not_le.2 hprio (htight o ho hafter p hp hpc)

end Describes

/-! ## Rows of trees -/

theorem reads_nil {k : Nat} {r : List Token} (hr : m.Spells .chain r) (hbelow : m.Below g k r) :
    m.Reads g [] k r :=
  ⟨[], r, hr, hbelow, .nil, rfl, fun _ _ => trivial⟩

theorem Reads.mono {ss : List Symbol} {j k : Nat} {tokens : List Token} (h : m.Reads g ss j tokens)
    (hjk : j ≤ k) : m.Reads g ss k tokens := by
  obtain ⟨ts, rest, hrest, hbelow, hts, htokens, hpreferred⟩ := h
  exact ⟨ts, rest, hrest, hbelow.mono hjk, hts, htokens, hpreferred⟩

theorem Reads.token {ss : List Symbol} {k : Nat} {tokens : List Token} {t : Token} {i : Nat}
    (ht : t.terminal = i) (h : m.Reads g ss k tokens) :
    m.Reads g (.terminal i :: ss) k (t :: tokens) := by
  obtain ⟨ts, rest, hrest, hbelow, hts, rfl, hpreferred⟩ := h
  subst ht
  refine ⟨.token t :: ts, rest, hrest, hbelow, .cons (.token t) hts, rfl, fun after hafter => ?_⟩
  exact Grammar.preferredAll_cons_iff.2 ⟨trivial, hpreferred after hafter⟩

/-- A tree, and then trees of the other symbols for what it leaves. -/
theorem Reads.cons {s : Symbol} {ss : List Symbol} {j k : Nat} {tokens : List Token}
    (h : m.Reads g [s] j tokens)
    (hrest : ∀ rest, m.Spells .chain rest → m.Below g j rest → rest.length ≤ tokens.length →
      m.Reads g ss k rest) :
    m.Reads g (s :: ss) k tokens := by
  obtain ⟨ts, rest, hchain, hbelow, hts, rfl, hpreferred⟩ := h
  obtain _ | ⟨ht, _ | _⟩ := hts
  obtain ⟨us, rest', hchain', hbelow', hus, rfl, hpreferred'⟩ :=
    hrest rest hchain hbelow (by simp)
  refine ⟨_ :: us, rest', hchain', hbelow', .cons ht hus, by simp, fun after hafter => ?_⟩
  refine Grammar.preferredAll_cons_iff.2 ⟨?_, hpreferred' after hafter⟩
  rw [← List.append_assoc]
  exact (Grammar.preferredAll_cons_iff.1 (hpreferred after hafter)).1

/-- A node over trees that read the symbols of a preferred production. -/
theorem Reads.node {nt p k : Nat} {production : Production} {tokens : List Token}
    (hp : g.stratify.production? nt p = some production)
    (h : m.Reads g production.symbols k tokens)
    (hbest : ∀ after, m.Ends after → g.stratify.Best nt p (lookahead (tokens ++ after))) :
    m.Reads g [.nonTerminal nt] k tokens := by
  obtain ⟨ts, rest, hrest, hbelow, hts, rfl, hpreferred⟩ := h
  refine ⟨[.node nt p ts], rest, hrest, hbelow, .cons (.node hp hts) .nil, by simp, ?_⟩
  intro after hafter
  refine Grammar.preferredAll_cons_iff.2 ⟨Grammar.preferred_node_iff.2 ⟨?_, ?_⟩, trivial⟩
  · have := hbest after hafter
    rwa [List.append_assoc] at this
  · exact hpreferred after hafter

namespace Describes

/-! ## One node of each kind -/

theorem reads_head (d : m.Describes g) {k j : Nat} (hk : k < (g.ladder m.base).height)
    {tokens : List Token}
    (h : m.Reads g [.nonTerminal ((g.ladder m.base).head (k + 1)),
      .nonTerminal ((g.ladder m.base).tail k)] j tokens) :
    m.Reads g [.nonTerminal ((g.ladder m.base).head k)] j tokens := by
  obtain ⟨q, hq, hsymbols⟩ := d.productionsOf_head hk
  have hp : g.stratify.production? ((g.ladder m.base).head k) 0 = some q := by
    rw [Grammar.production?, hq]
    rfl
  rw [← hsymbols] at h
  refine .node hp h fun after _ => ?_
  -- A level has one production only.
  intro production hp' i production' hi _ _ _
  have hmem := Grammar.mem_productionsOf_iff.2 ⟨i, hi⟩
  rw [hq, List.mem_singleton] at hmem
  obtain rfl : q = production := Option.some.inj (hp.symm.trans hp')
  rw [hmem]
  exact Int32.le_refl _

theorem reads_atom (d : m.Describes g) (hladder : g.HasLadder m.base) {t k : Nat}
    {ss : List Symbol} {prec : Prec} (hatom : m.Atom g t ss prec) {tokens : List Token}
    (h : m.Reads g (.terminal t :: ss) k tokens) :
    m.Reads g [.nonTerminal ((g.ladder m.base).head (g.ladder m.base).height)] k tokens := by
  obtain ⟨q, hq, hsymbols, hprec⟩ := d.exists_atom hladder hatom
  rw [← Ladder.atom_eq_head hladder.height_pos]
  obtain ⟨p, hp⟩ := Grammar.mem_productionsOf_iff.1 hq
  rw [← hsymbols] at h
  refine .node hp h fun after _ => ?_
  -- What an atom begins with tells its precedence.
  intro production hp' i production' hi _ hadmits hadmits'
  obtain ⟨u, us, hu, hatomu⟩ := d.atom_cases hladder (Grammar.mem_productionsOf_iff.2 ⟨p, hp'⟩)
  obtain ⟨v, vs, hv, hatomv⟩ := d.atom_cases hladder (Grammar.mem_productionsOf_iff.2 ⟨i, hi⟩)
  rw [hu] at hadmits
  rw [hv] at hadmits'
  have heq := (Lookahead.eq_of_admits_terminal hadmits).symm.trans
    (Lookahead.eq_of_admits_terminal hadmits')
  obtain rfl : u = v := Lookahead.terminal.inj heq
  rw [hatomu.prec_unique hatomv]
  exact Int32.le_refl _

/-- An operator in a tail begins with its sign. -/
theorem exists_tailSymbols (m : Mixture) (g : Grammar) (o : Sign) :
    ∃ ss, m.tailSymbols g o = .terminal o.terminal :: ss := by
  rw [tailSymbols]
  split
  · split
    · exact ⟨_, rfl⟩
    · exact ⟨_, rfl⟩
  · exact ⟨_, rfl⟩

/-- An operator is preferred to the end of its tail. -/
theorem reads_operator (d : m.Describes g) {o : Sign} (ho : o ∈ m.operators) (hc : o.Continues)
    {k : Nat} {tokens : List Token} (h : m.Reads g (m.tailSymbols g o) k tokens) :
    m.Reads g [.nonTerminal ((g.ladder m.base).tail (m.level g o))] k tokens := by
  obtain ⟨q, hq, hsymbols, hprec⟩ := d.exists_tail ho hc
  obtain ⟨p, hp⟩ := Grammar.mem_productionsOf_iff.1 hq
  rw [← hsymbols] at h
  refine .node hp h fun after _ => ?_
  intro production hp' i production' hi _ hadmits hadmits'
  obtain rfl : q = production := Option.some.inj (hp.symm.trans hp')
  rcases d.tail_cases (d.level_lt ho hc) (Grammar.mem_productionsOf_iff.2 ⟨i, hi⟩) with
    ⟨o', ho', -, -, hsymbols', hprec'⟩ | rfl
  · obtain ⟨ss, hss⟩ := exists_tailSymbols m g o
    obtain ⟨ss', hss'⟩ := exists_tailSymbols m g o'
    rw [hsymbols, hss] at hadmits
    rw [hsymbols', hss'] at hadmits'
    have heq := (Lookahead.eq_of_admits_terminal hadmits).symm.trans
      (Lookahead.eq_of_admits_terminal hadmits')
    obtain rfl := eq_of_terminal_eq ho ho' (Lookahead.terminal.inj heq)
    rw [hprec, hprec']
    exact Int32.le_refl _
  · exact Int32.minValue_le _

/-- A tail ends where none of its operators comes next. -/
theorem reads_end (d : m.Describes g) {k : Nat} (hk : k < (g.ladder m.base).height)
    {r : List Token} (hr : m.Spells .chain r) (hbelow : m.Below g k r) :
    m.Reads g [.nonTerminal ((g.ladder m.base).tail k)] k r := by
  obtain ⟨p, hp⟩ := Grammar.mem_productionsOf_iff.1 (d.exists_end hk)
  refine .node hp (reads_nil hr hbelow) fun after hafter => ?_
  intro production hp' i production' hi _ _ hadmits'
  obtain rfl := Option.some.inj (hp.symm.trans hp')
  rcases d.tail_cases hk (Grammar.mem_productionsOf_iff.2 ⟨i, hi⟩) with
    ⟨o, ho, -, hlevel, hsymbols, -⟩ | rfl
  · exfalso
    obtain ⟨ss, hss⟩ := exists_tailSymbols m g o
    rw [hsymbols, hss] at hadmits'
    have hnext := Lookahead.eq_of_admits_terminal hadmits'
    cases r with
    | cons t r =>
        have hlt := hbelow t rfl o ho (Lookahead.terminal.inj hnext)
        exact Nat.ne_of_lt hlt hlevel
    | nil =>
        cases after with
        | nil => exact Lookahead.noConfusion hnext
        | cons t after =>
            have hclosing : t.terminal = m.closing := hafter t rfl
            exact terminal_ne_closing ho ((Lookahead.terminal.inj hnext).symm.trans hclosing)
  · exact Int32.le_refl _

/-- Parentheses around a word that the base reads. -/
theorem reads_parens {a b : Token} (ha : a.terminal = m.opening) (hb : b.terminal = m.closing)
    {tokens r : List Token} {k : Nat} (h : m.Reads g [.nonTerminal m.base] 0 tokens)
    (hr : m.Spells .chain r) (hbelow : m.Below g k r) :
    m.Reads g [.terminal m.opening, .nonTerminal m.base, .terminal m.closing] k
      (a :: (tokens ++ [b]) ++ r) := by
  obtain ⟨ts, rest, hrest, hzero, hts, rfl, hpreferred⟩ := h
  obtain rfl := eq_nil_of_below_zero hrest hzero
  obtain _ | ⟨ht, _ | _⟩ := hts
  refine Reads.token ha ⟨[_, .token b], r, hr, hbelow, .cons ht (.cons ?_ .nil), by simp, ?_⟩
  · rw [← hb]
    exact .token b
  · intro after _
    refine Grammar.preferredAll_cons_iff.2 ⟨?_, ?_⟩
    · -- The closing parenthesis comes after the word.
      have hinner := hpreferred (b :: (r ++ after)) fun t ht => by
        rw [← Option.some.inj ht]
        exact hb
      exact (Grammar.preferredAll_cons_iff.1 hinner).1
    · exact Grammar.preferredAll_cons_iff.2 ⟨trivial, trivial⟩

/-! ## Words -/

/-- What the levels and their tails read of words up to some length. -/
structure ReadsUpTo (m : Mixture) (g : Grammar) (n : Nat) : Prop where
  head : ∀ k ≤ (g.ladder m.base).height, ∀ w r, (w ++ r).length ≤ n → m.Spells .operand w →
    m.Spells .chain r → m.Reads g [.nonTerminal ((g.ladder m.base).head k)] k (w ++ r)
  tail : ∀ k < (g.ladder m.base).height, ∀ r, r.length ≤ n → m.Spells .chain r →
    m.Below g (k + 1) r → m.Reads g [.nonTerminal ((g.ladder m.base).tail k)] k r

/-- A tail takes the operators of its level. -/
theorem reads_tail (d : m.Describes g) (htight : m.SuffixesTightest) {r : List Token}
    (ih : ∀ n < r.length, ReadsUpTo m g n) {k : Nat} (hk : k < (g.ladder m.base).height)
    (hr : m.Spells .chain r) (hbelow : m.Below g (k + 1) r) :
    m.Reads g [.nonTerminal ((g.ladder m.base).tail k)] k r := by
  cases hr with
  | nil => exact d.reads_end hk .nil (below_nil m g k)
  | @after o t r ho hafter ht hr =>
      have hle : m.level g o ≤ k := Nat.le_of_lt_succ ((below_cons_iff ho ht).1 hbelow)
      rcases Nat.lt_or_eq_of_le hle with hlt | rfl
      · exact d.reads_end hk (.after ho hafter ht hr) ((below_cons_iff ho ht).2 hlt)
      · have hsymbols : m.tailSymbols g o =
            [.terminal o.terminal, .nonTerminal ((g.ladder m.base).tail (m.level g o))] := by
          simp [tailSymbols, hafter]
        have hshorter := ih r.length (by simp)
        apply d.reads_operator ho (by simp [Sign.Continues, hafter])
        rw [hsymbols]
        apply Reads.token ht
        exact hshorter.tail _ hk r (Nat.le_refl _) hr (d.below_of_after htight ho hafter hr)
  | @between o t w r ho hbetween ht hw hr =>
      have hle : m.level g o ≤ k := Nat.le_of_lt_succ ((below_cons_iff ho ht).1 hbelow)
      rcases Nat.lt_or_eq_of_le hle with hlt | rfl
      · exact d.reads_end hk (.between ho hbetween ht hw hr) ((below_cons_iff ho ht).2 hlt)
      · have hshorter := ih (w ++ r).length (by simp)
        apply d.reads_operator ho (by simp [Sign.Continues, hbetween])
        by_cases hassoc : o.prec.assoc = .right
        · -- The operand is of the level of the operator, and takes the rest of its chain.
          have hsymbols : m.tailSymbols g o =
              [.terminal o.terminal, .nonTerminal ((g.ladder m.base).head (m.level g o))] := by
            simp [tailSymbols, hbetween, hassoc]
          rw [hsymbols]
          apply Reads.token ht
          exact hshorter.head _ (Nat.le_of_lt hk) w r (Nat.le_refl _) hw hr
        · -- The operand is of the next level, and the tail goes on with the chain.
          have hsymbols : m.tailSymbols g o =
              [.terminal o.terminal, .nonTerminal ((g.ladder m.base).head (m.level g o + 1)),
                .nonTerminal ((g.ladder m.base).tail (m.level g o))] := by
            simp [tailSymbols, hbetween, hassoc]
          rw [hsymbols]
          apply Reads.token ht
          apply Reads.cons (hshorter.head _ hk w r (Nat.le_refl _) hw hr)
          intro rest hrest hnext hlength
          exact hshorter.tail _ hk rest hlength hrest hnext

/-- The atoms read an operand. -/
theorem reads_operand (d : m.Describes g) (hladder : g.HasLadder m.base) {w r : List Token}
    (ih : ∀ n < (w ++ r).length, ReadsUpTo m g n) (hw : m.Spells .operand w)
    (hr : m.Spells .chain r) :
    m.Reads g [.nonTerminal ((g.ladder m.base).head (g.ladder m.base).height)]
      (g.ladder m.base).height (w ++ r) := by
  have hbelow := d.below_height hr
  cases hw with
  | number ht => exact d.reads_atom hladder .number (.token ht (reads_nil hr hbelow))
  | @parens a b w' r' ha hb hw' hr' =>
      have hshorter := ih (w' ++ r').length (by
        simp only [List.length_append, List.length_cons]
        omega)
      have hinner := hshorter.head 0 (Nat.zero_le _) w' r' (Nat.le_refl _) hw' hr'
      exact d.reads_atom hladder .parens (reads_parens ha hb hinner hr hbelow)
  | @before o t w' ho hbefore ht hw' =>
      obtain ⟨k, hk, heq⟩ := exists_prefixOperand hladder o.prec
      have hshorter := ih (w' ++ r).length (by simp)
      have hinner := hshorter.head k hk w' r (Nat.le_refl _) hw' hr
      rw [← heq] at hinner
      exact d.reads_atom hladder (.before o ho hbefore) (.token ht (hinner.mono hk))

/-- The levels and their tails read words of any length. -/
theorem reads (d : m.Describes g) (hladder : g.HasLadder m.base) (htight : m.SuffixesTightest)
    (n : Nat) : ReadsUpTo m g n := by
  induction n using Nat.strong_induction_on with
  | h n ih =>
      have htail : ∀ k < (g.ladder m.base).height, ∀ r, r.length ≤ n → m.Spells .chain r →
          m.Below g (k + 1) r → m.Reads g [.nonTerminal ((g.ladder m.base).tail k)] k r := by
        intro k hk r hlength hr hbelow
        exact d.reads_tail htight (fun j hj => ih j (Nat.lt_of_lt_of_le hj hlength)) hk hr hbelow
      refine ⟨fun k hk w r hlength hw hr => ?_, htail⟩
      -- From the atoms down to the level.
      obtain ⟨j, hj⟩ := Nat.exists_eq_add_of_le hk
      induction j generalizing k with
      | zero =>
          obtain rfl : (g.ladder m.base).height = k := hj
          exact d.reads_operand hladder (fun j hj => ih j (Nat.lt_of_lt_of_le hj hlength)) hw hr
      | succ j ihj =>
          have hlt : k < (g.ladder m.base).height := by omega
          apply d.reads_head hlt
          apply Reads.cons (ihj (k + 1) hlt (by omega))
          intro rest hrest hnext hshorter
          exact htail k hlt rest (Nat.le_trans hshorter hlength) hrest hnext

/-- Every word has a tree that the table prefers. -/
theorem exists_preferred (d : m.Describes g) (hladder : g.HasLadder m.base)
    (htight : m.SuffixesTightest) {tokens : List Token} (h : m.Word tokens) :
    ∃ t, g.stratify.Derives (.nonTerminal g.stratify.start) t ∧ t.tokens = tokens ∧
      g.stratify.Preferred t [] := by
  obtain ⟨w, r, hw, hr, rfl⟩ := h
  obtain ⟨ts, rest, hrest, hzero, hts, htokens, hpreferred⟩ :=
    (d.reads hladder htight _).head 0 (Nat.zero_le _) w r (Nat.le_refl _) hw hr
  obtain rfl := eq_nil_of_below_zero hrest hzero
  obtain _ | ⟨ht, _ | _⟩ := hts
  have hstart : g.stratify.start = (g.ladder m.base).head 0 := by
    rw [Grammar.stratify_eq_stage, Grammar.stage_start, d.start]
    rfl
  refine ⟨_, ?_, by simpa using htokens, ?_⟩
  · rw [hstart]
    exact ht
  · exact (Grammar.preferredAll_cons_iff.1 (hpreferred [] m.ends_nil)).1

end Describes

end Mixture

end SmallLang
