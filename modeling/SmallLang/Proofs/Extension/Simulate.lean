import SmallLang.Proofs.Extension.Carry

/-!
# Every old tree embeds

The induction over the trees of the old stratified grammar: if the new grammar needs no decision by
priority, every tree embeds where `Extension.Carried` says (`Extension.carried`). In particular every
tree of the start symbol embeds as a tree of the start symbol.
-/

set_option autoImplicit false

namespace SmallLang

open List (Forall₂)

namespace Grammar

namespace Extension

variable {n n' : Nat} {g g' : Grammar} (h : Extension n n' g g') (hg' : g'.stratify.WellFormed)
include h hg'

/-! ## Atoms of a ladder -/

/-- An operand and a forced operator embed where the same operator is forced. -/
theorem embeds_forcedProduction {x m i j j' nt k b : Nat} {op : OperatorUse} (hx : x < n)
    (hfinds : g.Finds x m i j op)
    (hproduction : g.stratify.production? nt k = some (g.forcedProduction x j op))
    {cs : List ParseTree} (hcs : Forall₂ (Carried n n' g g') (g.forcedProduction x j op).symbols cs)
    (hfinds' : g'.Finds x m i j' (op.renumber n n'))
    (hb : g'.forcedProduction x j' (op.renumber n n') ∈ g'.stratify.productionsOf b) :
    Embeds g.stratify g'.stratify (.node nt k cs) (.nonTerminal b) := by
  have hladder : g.HasLadder x := List.ne_nil_of_mem hfinds.mem_usesAt
  have hlevel := Ladder.getElem?_levelOf (mem_levels_ladder_iff.2 ⟨op, hfinds.mem_usesAt, rfl⟩)
  obtain ⟨c, c', rfl, hc, hc'⟩ := forall₂_pair hcs
  apply Embeds.node hg' hproduction hb rfl
  refine .cons ?_ (.cons ((hc'.forced x m i j op hx hfinds rfl).forced j' hfinds') .nil)
  obtain ⟨heq, heq'⟩ := h.operand_eq_prefixOperand hx hlevel
  rw [heq] at hc
  have hoperand := (h.embeds_operand hg' hx hladder hc).1
  rw [← heq'] at hoperand
  exact hoperand

section Atom

variable {e m i nt k : Nat} {q p : Production} {cs : List ParseTree} (he : e < n)
  (hladder' : g'.HasLadder e) (hm : m ∈ g.closureAt e) (hopen : g.Open e m)
  (hq : g.production? m i = some q) (hproduction : g.stratify.production? nt k = some p)
include he hladder' hm hopen hq hproduction

/-- A production that stayed as it was embeds in the atoms of a ladder above it. -/
theorem embeds_original (hunit : q.unitTarget? = none) (hnotop : q.isOperatorOn e = false)
    (hnot : ∀ y < n, ∀ j op, g.Finds y m i j op → e < y) (hconstruction : p.construction = q.construction)
    (hcs : ∀ y < n, g'.HasLadder y → y = e ∨ ¬ g.HasLadder y →
      Forall₂ (Embeds g.stratify g'.stratify) cs
        ((g'.ladder y).atomProduction (q.renumber n n')).symbols)
    (hplain : ∃ v, (ParseTree.node nt k cs).meaning g.stratify = .plain v) :
    Embeds g.stratify g'.stratify (.node nt k cs) (.nonTerminal (g'.ladder e).atom) := by
  obtain ⟨y, hy⟩ := h.exists_holder hg' he hladder' hm
  have hatom := h.atom_mem_of_holder hy he hopen hq hunit hnotop hnot
  have hyn : y < n := Nat.lt_of_le_of_lt hy.le he
  have hsame : ((g'.ladder y).atomProduction (q.renumber n n')).construction = p.construction := by
    rw [Ladder.atomProduction_construction, hconstruction]
    rfl
  have hembeds := Embeds.node hg' hproduction hatom hsame (hcs y hyn hy.ladder hy.new)
  exact hembeds.into hy.into hplain

/-- A production that became an operand and a forced operator embeds in the atoms of a ladder above
it. -/
theorem embeds_forced {x j : Nat} {op : OperatorUse} (hx : x < n) (hfinds : g.Finds x m i j op)
    (hne : x ≠ e) (hlt : g.HasLadder e → x < e) (hp : p = g.forcedProduction x j op)
    (hcs : Forall₂ (Carried n n' g g') p.symbols cs) :
    Embeds g.stratify g'.stratify (.node nt k cs) (.nonTerminal (g'.ladder e).atom) := by
  subst hp
  have hladder : g.HasLadder x := List.ne_nil_of_mem hfinds.mem_usesAt
  have hplain : ∃ v, (ParseTree.node nt k cs).meaning g.stratify = .plain v := by
    rw [ParseTree.meaning_node, constructionOf_eq hproduction]
    exact ⟨_, rfl⟩
  obtain ⟨c, c', rfl, hc, hc'⟩ := forall₂_pair hcs
  obtain ⟨y, hy⟩ := h.exists_holder hg' he hladder' hm
  have hyn : y < n := Nat.lt_of_le_of_lt hy.le he
  have hforced := hc'.forced x m i j op hx hfinds rfl
  by_cases hxy : x < y
  · -- The step of the holder comes later and finds the production rewritten.
    have hmn : m < n := h.old.lt_of_finds (h.lt_old hx) hfinds
    have hq' := h.production?_of_lt hmn hq
    obtain ⟨j', hfinds'⟩ := h.exists_finds hx hfinds
    obtain ⟨j'', hfinds'', harranged⟩ :=
      h.new.exists_forcedProduction (Nat.le_of_lt (h.lt_new hyn)) hxy hq' hfinds'
    obtain ⟨q₁, -, -, hq₁, hisop, -, -⟩ := h.new.exists_of_finds (h.lt_new hx) hfinds'
    obtain rfl : q.renumber n n' = q₁ := Option.some.inj (hq'.symm.trans hq₁)
    have hnotop : (q.renumber n n').isOperatorOn y = false := by
      by_contra htrue
      rw [Bool.not_eq_false] at htrue
      exact absurd (Production.eq_of_isOperatorOn hisop htrue) (Nat.ne_of_lt hxy)
    have hatom := h.new.mem_atom_of_mem_atomsAt hy.ladder (h.lt_new hyn)
      ((h.new.mem_atomsAt_iff (h.lt_new hyn)).2 (Or.inr ⟨m, hy.closure, hy.open hopen, i, _, hq',
        hnotop, Production.unitTarget?_of_isOperatorOn hisop, harranged.symm⟩))
    rw [h.new.atomProduction_forcedProduction (h.lt_new hyn) (h.lt_new hx) hfinds''] at hatom
    have hembeds : Embeds g.stratify g'.stratify (.node nt k [c, c'])
        (.nonTerminal (g'.ladder y).atom) :=
      h.embeds_forcedProduction hg' hx hfinds hproduction (.cons hc (.cons hc' .nil)) hfinds'' hatom
    exact hembeds.into hy.into hplain
  · -- The step of the holder comes first, so there is no such tree.
    have hnew : ¬ g.HasLadder y := by
      rcases hy.new with rfl | hnew
      · exact fun hyladder => hxy (hlt hyladder)
      · exact hnew
    have hyx : y ≠ x := by
      rintro rfl
      exact hnew hladder
    intro rest hrest
    exact absurd (hy.into.canPrecede rest hrest)
      (hforced.absurd y rest ⟨hyn, hy.ladder, hnew, hy.old_closure⟩ (by omega))

end Atom

/-! ## One node -/

omit h hg' in
theorem exists_climb_children {x k : Nat} {pr : Int32} (hx : x < n)
    (hlevel : (g.ladder x).levels[k]? = some pr) {cs : List ParseTree}
    (hcs : Forall₂ (Carried n n' g g')
      ((g.ladder x).climbProduction k ((g.ladder x).tail k)).symbols cs) :
    ∃ c c', cs = [c, c'] ∧ Carried n n' g g' (.nonTerminal ((g.ladder x).operand k)) c ∧
      TailCarried n g g' x pr c' := by
  obtain ⟨c, c', rfl, hc, hc'⟩ := forall₂_pair hcs
  exact ⟨c, c', rfl, hc, hc'.tail x k pr hx hlevel rfl⟩

omit hg' in
/-- Each production of a declared type has a value and nothing else. -/
theorem exists_plain_of_production {m i nt k : Nat} {q p : Production} (hm : m < n)
    (hq : g.production? m i = some q) (hp : g.stratify.production? nt k = some p)
    (hconstruction : p.construction = q.construction) (cs : List ParseTree) :
    ∃ v, (ParseTree.node nt k cs).meaning g.stratify = .plain v := by
  rw [ParseTree.meaning_node, constructionOf_eq hp, hconstruction]
  exact (h.old.declared_of_mem (mem_productionsOf_iff.2 ⟨i, hq⟩)).exists_plain hm _

omit hg' in
theorem hasSymbol_of_production {m i : Nat} {q : Production} (hq : g.production? m i = some q) :
    ∀ s ∈ q.symbols, g.HasSymbol s :=
  h.old.hasSymbol m q (mem_productionsOf_iff.2 ⟨i, hq⟩)

omit hg' in
theorem lt_of_mem_closureAt {e m : Nat} (he : e < n) (hm : m ∈ g.closureAt e) : m < n := by
  rcases (h.old.stage (Nat.le_of_lt (h.lt_old he))).mem_unitClosure (h.lt_old he) hm with
    rfl | ⟨-, hlt⟩
  · exact he
  · exact hlt

section Node

variable {nt i : Nat} {p : Production} {cs : List ParseTree}
  (hp : g.stratify.production? nt i = some p) (hcs : Forall₂ (Carried n n' g g') p.symbols cs)
include hp hcs

/-- A node of a level. -/
theorem levelCarried_node {x k : Nat} {pr : Int32} (hx : x < n)
    (hlevel : (g.ladder x).levels[k]? = some pr) (hnt : nt = (g.ladder x).head k) :
    LevelCarried n g g' x pr (.node nt i cs) := by
  have hladder := HasLadder.of_level hlevel
  have hmem : p ∈ g.stratify.productionsOf nt := mem_productionsOf_iff.2 ⟨i, hp⟩
  rw [hnt, h.old.productionsOf_head_stratify hladder (h.lt_old hx)
    (List.getElem?_eq_some_iff.1 hlevel).1] at hmem
  obtain rfl := List.mem_singleton.1 hmem
  obtain ⟨c, c', rfl, hc, hc'⟩ := exists_climb_children hx hlevel hcs
  refine ⟨?_, ?_, _, meaning_climb hp⟩
  · intro j q b hq hqp hb
    exact h.embeds_climb hg' hx hlevel hp hc hc' hq hqp hb
  · intro e he hex
    exact h.embeds_climb_of_inlines hg' hx hlevel hp hc hc' he hex

section Atoms

variable {e z : Nat} (hz : z < n) (hzladder : g.HasLadder z) (hladder' : g'.HasLadder e)
  (hmem : z ∈ g.closureAt e) (hez : e ≤ z) (hsame : g.HasLadder e → e = z)
include hz hzladder hladder' hmem hez hsame

/-- A node of a declared production among the atoms, that no ladder forces. -/
theorem embeds_node_atom_of_declared {m i' : Nat} {q : Production} (hm : m ∈ g.closureAt z)
    (hopen : g.Open z m) (hq : g.production? m i' = some q) (hnotop : q.isOperatorOn z = false)
    (hunit : q.unitTarget? = none) (hnone : ∀ x < z, ∀ j op, ¬ g.Finds x m i' j op)
    (heq : p = (g.ladder z).atomProduction q) :
    Embeds g.stratify g'.stratify (.node nt i cs) (.nonTerminal (g'.ladder e).atom) := by
  have he : e < n := Nat.lt_of_le_of_lt hez hz
  have hme := h.old.mem_closureAt_trans hez (h.lt_old hz) hmem hm
  have hconstruction : p.construction = q.construction := by
    rw [heq]
    exact Ladder.atomProduction_construction _ q
  apply h.embeds_original hg' he hladder' hme (hopen.of_le hez) hq hp hunit
  · by_cases heladder : g.HasLadder e
    · rw [hsame heladder]
      exact hnotop
    · exact h.old.isOperatorOn_eq_false (h.lt_old he) heladder hme (hopen.of_le hez) hq
  · intro y hy j op hfinds
    have hzy : y ≠ z := by
      rintro rfl
      obtain ⟨q', -, -, hq', hisop, -⟩ := h.old.exists_of_finds (h.lt_old hy) hfinds
      obtain rfl : q = q' := Option.some.inj (hq.symm.trans hq')
      rw [hnotop] at hisop
      exact Bool.false_ne_true hisop
    have hle : z ≤ y := Nat.le_of_not_lt fun hyz => hnone y hyz j op hfinds
    omega
  · exact hconstruction
  · intro y hy hyladder hnew
    rw [heq] at hcs
    apply h.embeds_row hg' hcs
    apply h.maps_atomProduction hy hz hyladder hzladder _ (h.hasSymbol_of_production hq)
    rcases hnew with rfl | hnew
    · by_cases hyladder' : g.HasLadder y
      · exact Or.inl (hsame hyladder').symm
      · exact Or.inr hyladder'
    · exact Or.inr hnew
  · exact h.exists_plain_of_production (h.lt_of_mem_closureAt hz hm) hq hp hconstruction cs

/-- A node of the atoms embeds in the atoms of the same ladder, and of each that was none before and
takes in its type. -/
theorem embeds_node_atom (hnt : nt = (g.ladder z).atom) :
    Embeds g.stratify g'.stratify (.node nt i cs) (.nonTerminal (g'.ladder e).atom) := by
  have he : e < n := Nat.lt_of_le_of_lt hez hz
  have hzs := h.lt_old hz
  have hpmem : p ∈ g.stratify.productionsOf nt := mem_productionsOf_iff.2 ⟨i, hp⟩
  rw [hnt, h.old.productionsOf_atom_stratify hzladder hzs] at hpmem
  obtain ⟨a, ha, rfl⟩ := List.mem_map.1 hpmem
  have hother : ∀ x, g.HasLadder x → x < z → x ≠ e ∧ (g.HasLadder e → x < e) := by
    intro x hxladder hxz
    refine ⟨?_, fun heladder => by rw [hsame heladder]; exact hxz⟩
    rintro rfl
    exact Nat.ne_of_lt hxz (hsame hxladder)
  rcases (h.old.mem_atomsAt_iff hzs).1 ha with
    ⟨m, hm, hmladder, hmz, rfl⟩ | ⟨m, hm, hopen, i', q, hq, hnotop, hunit, rfl⟩
  · -- The climb of an earlier ladder.
    have hmn : m < n := Nat.lt_trans hmz hz
    obtain ⟨pr, hlevel⟩ : ∃ pr, (g.ladder m).levels[0]? = some pr :=
      ⟨_, List.getElem?_eq_getElem hmladder.height_pos⟩
    have htail : g.size ≤ (g.ladder m).tail 0 :=
      Nat.le_trans (h.old.size_le_stage (Nat.le_of_lt (h.lt_old hmn)))
        (tail_bounds (g := g.stage m) hmladder hmladder.height_pos).1
    rw [Staged.atomProduction_climb hzs htail] at hp hcs
    obtain ⟨c, c', rfl, hc, hc'⟩ := exists_climb_children hmn hlevel hcs
    obtain ⟨hne, hlt⟩ := hother m hmladder hmz
    exact h.embeds_climb_of_mem_closureAt hg' hmn hlevel hp hc hc' he hladder'
      (h.old.mem_closureAt_trans hez hzs hmem hm) hne.symm hlt
  · rcases g.arranged_cases z m i' q with ⟨heq, hnone⟩ | ⟨x, hxz, j, op, hfinds, heq⟩
    · exact h.embeds_node_atom_of_declared hg' hp hcs hz hzladder hladder' hmem hez hsame hm hopen
        hq hnotop hunit hnone (congrArg _ heq)
    · -- What an earlier ladder forces.
      have hxn : x < n := Nat.lt_trans hxz hz
      rw [heq, h.old.atomProduction_forcedProduction hzs (h.lt_old hxn) hfinds] at hp hcs
      obtain ⟨hne, hlt⟩ := hother x (List.ne_nil_of_mem hfinds.mem_usesAt) hxz
      exact h.embeds_forced hg' he hladder' (h.old.mem_closureAt_trans hez hzs hmem hm)
        (hopen.of_le hez) hq hp hxn hfinds hne hlt rfl hcs

end Atoms

omit hg' hcs in
/-- A node of the atoms has a value and nothing else. -/
theorem exists_plain_of_atom {z : Nat} (hz : z < n) (hladder : g.HasLadder z)
    (hnt : nt = (g.ladder z).atom) :
    ∃ v, (ParseTree.node nt i cs).meaning g.stratify = .plain v := by
  have hzs := h.lt_old hz
  have hmem : p ∈ g.stratify.productionsOf nt := mem_productionsOf_iff.2 ⟨i, hp⟩
  rw [hnt, h.old.productionsOf_atom_stratify hladder hzs] at hmem
  obtain ⟨a, ha, rfl⟩ := List.mem_map.1 hmem
  rcases (h.old.mem_atomsAt_iff hzs).1 ha with
    ⟨m, -, -, -, rfl⟩ | ⟨m, hm, -, i', q, hq, -, -, rfl⟩
  · rw [ParseTree.meaning_node, constructionOf_eq hp, Ladder.atomProduction_construction]
    exact ⟨_, rfl⟩
  · rcases g.arranged_cases z m i' q with ⟨heq, -⟩ | ⟨x, -, j, op, -, heq⟩
    · rw [heq] at hp
      exact h.exists_plain_of_production (h.lt_of_mem_closureAt hz hm) hq hp
        (Ladder.atomProduction_construction _ q) cs
    · rw [ParseTree.meaning_node, constructionOf_eq hp, Ladder.atomProduction_construction, heq]
      exact ⟨_, rfl⟩

theorem atomCarried_node {z : Nat} (hz : z < n) (hladder : g.HasLadder z)
    (hnt : nt = (g.ladder z).atom) : AtomCarried n g g' z (.node nt i cs) := by
  have hplain : ∃ v, (ParseTree.node nt i cs).meaning g.stratify = .plain v :=
    h.exists_plain_of_atom hp hz hladder hnt
  refine ⟨?_, ?_, hplain⟩
  · exact h.embeds_node_atom hg' hp hcs hz hladder (h.hasLadder hz hladder)
      (Staged.self_mem_closureAt g z) (Nat.le_refl z) (fun _ => rfl) hnt
  · intro e he hez
    exact h.embeds_node_atom hg' hp hcs hz hladder he.ladder he.mem (Nat.le_of_lt hez)
      (fun heladder => absurd heladder he.new) hnt

end Node

/-! ## Tails and forced operators -/

section Operators

variable {table : ParseTable} (htable : g'.stratify.Undecided g'.stratify.firstTable
  (g'.stratify.followTable g'.stratify.firstTable) table)
include htable

/-- Where a ladder that was none before takes in the declaration of an operator, the operator was not
taken. -/
theorem not_canPrecede_of_taken {e x m j : Nat} {op : OperatorUse} {q : Production} (hx : x < n)
    (hex : e < x) (he : Inlines n g g' e m) (hopen : g.Open x m) (hq : g.production? m j = some q)
    (hisop : q.isOperatorOn x = true) (hop : op ∈ g.usesAt x) (hopq : op = operatorUse x m j q)
    {cs : List ParseTree}
    (hcs : Forall₂ (Carried n n' g g') ((g.ladder x).tailProduction op).symbols cs)
    (rest : List Token) :
    ¬ g'.stratify.CanPrecede (.nonTerminal (g'.ladder e).atom) rest := by
  subst hopq
  rw [Ladder.tailProduction_symbols] at hcs
  obtain ⟨us, vs, rfl, hus, -⟩ := exists_append_of_forall₂ hcs
  exact h.not_canPrecede_of_inlined hg' hx hex he (hopen.of_le (Nat.le_of_lt hex)) hq hisop hop hus
    htable rest

variable {nt i : Nat} {p : Production} {cs : List ParseTree}
  (hp : g.stratify.production? nt i = some p) (hcs : Forall₂ (Carried n n' g g') p.symbols cs)
include hp hcs

/-- A node of a tail. -/
theorem tailCarried_node {x k : Nat} {pr : Int32} (hx : x < n)
    (hlevel : (g.ladder x).levels[k]? = some pr) (hnt : nt = (g.ladder x).tail k) :
    TailCarried n g g' x pr (.node nt i cs) := by
  have hladder := HasLadder.of_level hlevel
  have hxs := h.lt_old hx
  have hmem : p ∈ g.stratify.productionsOf nt := mem_productionsOf_iff.2 ⟨i, hp⟩
  rw [hnt, h.old.productionsOf_tail_stratify hladder hxs hlevel] at hmem
  rcases List.mem_append.1 hmem with hmem | hmem
  · -- An operator of the level.
    obtain ⟨op, hfiltered, rfl⟩ := List.mem_map.1 hmem
    obtain ⟨hop, hpr⟩ := List.mem_filter.1 hfiltered
    obtain rfl := beq_iff_eq.1 hpr
    refine ⟨?_, ?_⟩
    · apply h.embeds_operator hg' hx hop hp hcs
      exact h.new.operator_mem_tail (h.lt_new hx) (h.mem_usesAt hx hop)
    · intro e rest he hex hrest
      obtain ⟨m, j, q, hm, hopen, hq, hisop, hopq⟩ := (h.old.mem_usesAt_iff hxs).1 hop
      have hmem := h.old.mem_closureAt_trans (Nat.le_of_lt hex) hxs he.mem hm
      exact absurd hrest (h.not_canPrecede_of_taken hg' htable hx hex
        ⟨he.lt, he.ladder, he.new, hmem⟩ hopen hq hisop hop hopq hcs rest)
  · -- The end of the tail.
    obtain rfl := List.mem_singleton.1 hmem
    cases hcs
    have hclimb : ((ParseTree.node nt i []).meaning g.stratify).climb = id := by
      rw [ParseTree.meaning_node, constructionOf_eq hp]
      rfl
    refine ⟨?_, fun _ _ _ _ _ => ⟨rfl, hclimb⟩⟩
    have hlevel' := h.exists_level hx hlevel
    exact Embeds.node hg' hp (h.new.end_mem_tail (h.hasLadder hx hladder) (h.lt_new hx)
      (List.getElem?_eq_some_iff.1 hlevel').1) rfl .nil

/-- A node of a forced operator. -/
theorem forcedCarried_node {x m k j : Nat} {op : OperatorUse} (hx : x < n)
    (hfinds : g.Finds x m k j op) (hnt : nt = (g.ladder x).forced j) :
    ForcedCarried n n' g g' x m k op (.node nt i cs) := by
  have hxs := h.lt_old hx
  have hmem : p ∈ g.stratify.productionsOf nt := mem_productionsOf_iff.2 ⟨i, hp⟩
  rw [hnt, h.old.productionsOf_forced_stratify hxs hfinds] at hmem
  obtain rfl := List.mem_singleton.1 hmem
  refine ⟨?_, ?_⟩
  · intro j' hfinds'
    apply h.embeds_operator hg' hx hfinds.mem_usesAt hp hcs
    rw [h.new.productionsOf_forced_stratify (h.lt_new hx) hfinds']
    exact List.mem_singleton.2 rfl
  · intro e rest he hex
    obtain ⟨q, hm, hopen, hq, hisop, -, hopq⟩ := h.old.exists_of_finds hxs hfinds
    exact h.not_canPrecede_of_taken hg' htable hx hex he hopen hq hisop hfinds.mem_usesAt hopq hcs
      rest

end Operators

/-! ## Types and rests of lists -/

omit hg' in
/-- Only a type gets a ladder. -/
theorem lt_of_hasLadder {x : Nat} (hxs : x < g.size) (hladder : g.HasLadder x) : x < n :=
  (h.old.stage (Nat.le_of_lt hxs)).lt_types_of_operatorsOn_ne_nil hxs hladder

omit hg' in
/-- Of the non-terminals that were there, only types are ladders now. -/
theorem lt_of_hasLadder_renumber {x : Nat} (hxs : renumber n n' x < g'.size)
    (hladder : g'.HasLadder (renumber n n' x)) : x < n := by
  have hlt := (h.new.stage (Nat.le_of_lt hxs)).lt_types_of_operatorsOn_ne_nil hxs hladder
  by_contra hno
  rw [renumber_of_le (Nat.le_of_not_lt hno)] at hlt
  omega

section Declared

variable {m i : Nat} {p : Production} {cs : List ParseTree} (hms : m < g.size)
  (hno : ¬ g.HasLadder m) (hp : g.stratify.production? m i = some p)
  (hcs : Forall₂ (Carried n n' g g') p.symbols cs)
include hno hp hcs

/-- A node of a non-terminal that is no ladder in either grammar. -/
theorem embeds_node_of_not_hasLadder (hms : m < g.size)
    (hno' : ¬ g'.HasLadder (renumber n n' m)) :
    Embeds g.stratify g'.stratify (.node m i cs) (.nonTerminal (renumber n n' m)) := by
  have hkept := hp
  rw [h.old.production?_stratify hms hno] at hkept
  obtain ⟨q, hq, rfl⟩ := Option.map_eq_some_iff.1 hkept
  have hq' := h.grows.production? m i q hq
  have hms' := lt_size_of_production? hq'
  have hp' : g'.arranged g'.size (renumber n n' m) i (q.renumber n n') ∈
      g'.stratify.productionsOf (renumber n n' m) := by
    refine mem_productionsOf_iff.2 ⟨i, ?_⟩
    rw [h.new.production?_stratify hms' hno', hq', Option.map_some]
  rcases g.arranged_cases g.size m i q with ⟨heq, hnone⟩ | ⟨x, hxs, j, op, hfinds, heq⟩
  · rw [heq] at hp hcs
    rcases g'.arranged_cases g'.size (renumber n n' m) i (q.renumber n n') with
      ⟨heq', -⟩ | ⟨x, hxs, j, op, hfinds, -⟩
    · rw [heq'] at hp'
      exact Embeds.node hg' hp hp' rfl
        (h.embeds_row hg' hcs (maps_old (h.hasSymbol_of_production hq)))
    · obtain ⟨-, hx, j', op', hfinds'⟩ := h.exists_finds_of_finds hxs hq hfinds
      exact absurd hfinds' (hnone x (h.lt_old hx) j' op')
  · have hx := h.lt_of_hasLadder hxs (List.ne_nil_of_mem hfinds.mem_usesAt)
    have hmn := h.old.lt_of_finds hxs hfinds
    rw [renumber_of_lt hmn] at hp' hq' ⊢
    rw [heq] at hp hcs
    obtain ⟨j', hfinds'⟩ := h.exists_finds hx hfinds
    obtain ⟨j'', hfinds'', harranged⟩ :=
      h.new.exists_forcedProduction (Nat.le_refl _) (h.lt_new hx) hq' hfinds'
    rw [harranged] at hp'
    exact h.embeds_forcedProduction hg' hx hfinds hp hcs hfinds'' hp'

/-- A node of a type that is no ladder embeds in the atoms of a ladder that takes the type in. -/
theorem embeds_node_of_inlines {e : Nat} (he : Inlines n g g' e m) :
    Embeds g.stratify g'.stratify (.node m i cs) (.nonTerminal (g'.ladder e).atom) := by
  have hmn := h.lt_of_mem_closureAt he.lt he.mem
  have hopen : ∀ k, g.Open k m := fun k hladder => hno hladder.1
  have hkept := hp
  rw [h.old.production?_stratify (h.lt_old hmn) hno] at hkept
  obtain ⟨q, hq, rfl⟩ := Option.map_eq_some_iff.1 hkept
  cases hunit : q.unitTarget? with
  | some y =>
      -- The unit leads on to a type that the same ladder takes in.
      rw [h.old.arranged_of_unitTarget? (Nat.le_refl _) hq hunit] at hp hcs
      obtain ⟨hsymbols, hconstruction⟩ := Production.unitTarget?_eq_some_iff.1 hunit
      have hqmem : q ∈ g.productionsOf m := mem_productionsOf_iff.2 ⟨i, hq⟩
      have hy := (h.old.lt_of_unitTarget? (h.lt_old hmn) hqmem hunit).2
      have hymem := h.old.mem_closureAt_of_unitStep (h.lt_old he.lt) he.mem (hopen e)
        ⟨q, hqmem, hunit, h.lt_old hy⟩
      rw [hsymbols] at hcs
      cases hcs with
      | @cons _ c _ cs hc hcs =>
          cases hcs
          obtain ⟨v, hv⟩ := h.exists_plain hy hc.derives
          apply (hc.inlined y e rfl ⟨he.lt, he.ladder, he.new, hymem⟩).congr
          · rw [ParseTree.tokens_node, List.flatMap_singleton]
          · rw [ParseTree.meaning_node, constructionOf_eq hp, hconstruction, List.map_singleton, hv]
            rfl
  | none =>
      rcases g.arranged_cases g.size m i q with ⟨heq, hnone⟩ | ⟨x, hxs, j, op, hfinds, heq⟩
      · rw [heq] at hp hcs
        apply h.embeds_original hg' he.lt he.ladder he.mem (hopen e) hq hp hunit
        · exact h.old.isOperatorOn_eq_false (h.lt_old he.lt) he.new he.mem (hopen e) hq
        · exact fun y hy j op hfinds => absurd hfinds (hnone y (h.lt_old hy) j op)
        · rfl
        · intro y hy hyladder hnew
          have hynew : ¬ g.HasLadder y := by
            rcases hnew with rfl | hnew
            · exact he.new
            · exact hnew
          exact h.embeds_row hg' hcs
            (h.maps_atomProduction_right hy hyladder hynew (h.hasSymbol_of_production hq))
        · exact h.exists_plain_of_production hmn hq hp rfl cs
      · rw [heq] at hp hcs
        have hxladder : g.HasLadder x := List.ne_nil_of_mem hfinds.mem_usesAt
        have hx := h.lt_of_hasLadder hxs hxladder
        have hne : x ≠ e := by
          rintro rfl
          exact he.new hxladder
        exact h.embeds_forced hg' he.lt he.ladder he.mem (hopen e) hq hp hx hfinds hne
          (fun hladder => absurd hladder he.new) rfl hcs

end Declared

section Kept

variable {m i : Nat} {p : Production} {cs : List ParseTree}
  (hp : g.stratify.production? m i = some p) (hcs : Forall₂ (Carried n n' g g') p.symbols cs)
include hp hcs

/-- A node of a non-terminal that was there embeds in this non-terminal: as a ladder in itself, as what
has become a ladder among its atoms, and else as it is. -/
theorem embeds_node_renumber (hms : m < g.size) :
    Embeds g.stratify g'.stratify (.node m i cs) (.nonTerminal (renumber n n' m)) := by
  by_cases hladder : g.HasLadder m
  · have hx := h.lt_of_hasLadder hms hladder
    have hladder' := h.hasLadder hx hladder
    have hzero := List.getElem?_eq_getElem hladder.height_pos
    obtain ⟨q, hq, hqp⟩ := h.exists_level_zero hx hzero
    rw [renumber_of_lt hx]
    exact (h.levelCarried_node hg' hp hcs hx hzero rfl).climbs 0 q m hq hqp
      (h.new.climb_mem_head hladder' (h.lt_new hx) hladder'.height_pos)
  by_cases hladder' : g'.HasLadder (renumber n n' m)
  · have hkept := hp
    rw [h.old.production?_stratify hms hladder] at hkept
    obtain ⟨q, hq, -⟩ := Option.map_eq_some_iff.1 hkept
    have hx := h.lt_of_hasLadder_renumber
      (lt_size_of_production? (h.grows.production? m i q hq)) hladder'
    rw [renumber_of_lt hx] at hladder' ⊢
    have hderives : g.stratify.Derives (.nonTerminal m) (.node m i cs) :=
      Derives.node hp (hcs.imp fun _ _ hc => hc.derives)
    have hatom := h.embeds_node_of_inlines hg' hladder hp hcs
      ⟨hx, hladder', hladder, Staged.self_mem_closureAt g m⟩
    exact hatom.into (h.new.into_atom hg' hladder' (h.lt_new hx) hladder'.height_pos)
      (h.exists_plain hx hderives)
  · exact h.embeds_node_of_not_hasLadder hg' hladder hp hcs hms hladder'

/-- A node of a type embeds in the atoms of a new ladder that takes the type in. -/
theorem embeds_node_atom_of_inlines {e : Nat} (he : Inlines n g g' e m) :
    Embeds g.stratify g'.stratify (.node m i cs) (.nonTerminal (g'.ladder e).atom) := by
  by_cases hladder : g.HasLadder m
  · have hmn := h.lt_of_mem_closureAt he.lt he.mem
    have hne : e ≠ m := by
      rintro rfl
      exact he.new hladder
    have hzero := List.getElem?_eq_getElem hladder.height_pos
    have hmem : p ∈ g.stratify.productionsOf m := mem_productionsOf_iff.2 ⟨i, hp⟩
    have hhead := h.old.productionsOf_head_stratify hladder (h.lt_old hmn) hladder.height_pos
    rw [Ladder.head_zero, ladder_base] at hhead
    rw [hhead] at hmem
    obtain rfl := List.mem_singleton.1 hmem
    obtain ⟨c, c', rfl, hc, hc'⟩ := exists_climb_children hmn hzero hcs
    exact h.embeds_climb_of_mem_closureAt hg' hmn hzero hp hc hc' he.lt he.ladder he.mem hne
      (fun heladder => absurd heladder he.new)
  · exact h.embeds_node_of_inlines hg' hladder hp hcs he

end Kept

/-! ## Every tree -/

section Tree

variable {table : ParseTable} (htable : g'.stratify.Undecided g'.stratify.firstTable
  (g'.stratify.followTable g'.stratify.firstTable) table)
include htable

theorem carried_node {nt i : Nat} {p : Production} {cs : List ParseTree}
    (hp : g.stratify.production? nt i = some p)
    (hcs : Forall₂ (Carried n n' g g') p.symbols cs) :
    Carried n n' g g' (.nonTerminal nt) (.node nt i cs) := by
  refine ⟨Derives.node hp (hcs.imp fun _ _ hc => hc.derives), ?_, ?_, ?_, ?_, ?_, ?_⟩
  · intro hs
    exact h.embeds_node_renumber hg' hp hcs hs
  · intro x e hx he
    obtain rfl := Symbol.nonTerminal.inj hx
    exact h.embeds_node_atom_of_inlines hg' hp hcs he
  · intro x k pr hx hlevel hnt
    exact h.levelCarried_node hg' hp hcs hx hlevel (Symbol.nonTerminal.inj hnt)
  · intro x hx hladder hnt
    exact h.atomCarried_node hg' hp hcs hx hladder (Symbol.nonTerminal.inj hnt)
  · intro x k pr hx hlevel hnt
    exact h.tailCarried_node hg' htable hp hcs hx hlevel (Symbol.nonTerminal.inj hnt)
  · intro x m k j op hx hfinds hnt
    exact h.forcedCarried_node hg' htable hp hcs hx hfinds (Symbol.nonTerminal.inj hnt)

/-- Every tree of the old grammar embeds in the new one. -/
theorem carried {s : Symbol} {t : ParseTree} (ht : g.stratify.Derives s t) :
    Carried n n' g g' s t := by
  induction ht using Derives.rec_on with
  | token t =>
      refine ⟨Derives.token t, fun _ => Embeds.token t, ?_, ?_, ?_, ?_, ?_⟩ <;> intros <;>
        contradiction
  | node nt i p cs hp _ ih =>
      exact h.carried_node hg' htable hp (ih.imp fun _ _ hc => hc.choose_spec)

/-- What the old grammar derives, the new one derives with the same value. -/
theorem exists_derives (hstart : g.start < n) {t : ParseTree}
    (ht : g.stratify.Derives (.nonTerminal g.stratify.start) t) :
    ∃ t', g'.stratify.Derives (.nonTerminal g'.stratify.start) t' ∧ t'.tokens = t.tokens ∧
      t'.value g'.stratify = t.value g.stratify := by
  have hsame : g.stratify.start = g.start := by rw [stratify_eq_stage, stage_start]
  have hsame' : g'.stratify.start = g.start := by
    rw [stratify_eq_stage, stage_start, h.grows.start]
  rw [hsame] at ht
  have hembeds := (h.carried hg' htable ht).old (h.lt_old hstart)
  rw [Symbol.renumber, renumber_of_lt hstart, ← hsame'] at hembeds
  obtain ⟨t', ht', htokens, hmeaning⟩ := hembeds [] fun nt hnt => by
    rw [← Symbol.nonTerminal.inj hnt]
    exact ⟨start_mem_reachable hg'.1, covers_start_nil hg'.1⟩
  exact ⟨t', ht', htokens, congrArg Meaning.value hmeaning⟩

end Tree

end Extension

end Grammar

end SmallLang
