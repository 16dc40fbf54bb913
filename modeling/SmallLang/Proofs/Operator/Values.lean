import SmallLang.Proofs.Operator.Limit
import SmallLang.Proofs.Operator.Stage
import SmallLang.Proofs.Operator.Unfold

/-!
# What holds of the values of a stratified grammar

A property of the values of symbols that every declared production hands on, from its children to what
it builds, holds of the values that the stratified grammar builds (`Staged.holds_value`): the ladders
build what the declared productions would have built.

There is one exception. A type that declares an operator of its own climbs from an operand into this
operator, and where the tail goes on after it, any operator of the same level may come last. So each of
these has to hand on the property of the type as well (`HandsOn.forced`).
-/

set_option autoImplicit false

namespace SmallLang

open List (Forall₂)

namespace Grammar

/-- The operators of a level hand a further property on, from their left operand to what they build. -/
def LevelKeeps (g : Grammar) (P : Symbol → Value → Prop) (x : Nat) (p : Int32)
    (Q : Value → Prop) : Prop :=
  ∀ op ∈ g.usesAt x, op.prec.priority = p → ∀ left, P (.nonTerminal x) left → Q left →
    ∀ vs, Forall₂ P op.rest vs → Q (op.construction.apply (left :: vs))

/-- The declared productions hand a property of values on. Where the tail goes on after an operator
that a type declares, all operators of the level hand on the property of the type. -/
structure HandsOn (g : Grammar) (P : Symbol → Value → Prop) : Prop where
  production : ∀ m i p, g.production? m i = some p → ∀ vs, Forall₂ P p.symbols vs →
    P (.nonTerminal m) (p.construction.apply vs)
  forced : ∀ x < g.size, ∀ op ∈ g.usesAt x, ∀ m i, op.origin = some (m, i) →
    (g.ladder x).loops op = true → g.LevelKeeps P x op.prec.priority (P (.nonTerminal m))

/-- What holds of a tree of the stratified grammar. A tree of a symbol that was there before has a
value with the property; so has one of a level or of the atoms, with the property of the ladder. A
tail keeps every property that its operators hand on, and a forced operator leads from the property of
the ladder to that of the type which declares it. -/
structure Holds (g : Grammar) (P : Symbol → Value → Prop) (s : Symbol) (t : ParseTree) : Prop where
  derives : g.stratify.Derives s t
  old : g.HasSymbol s → P s (t.value g.stratify)
  head : ∀ x < g.size, g.HasLadder x → ∀ k < (g.ladder x).height,
    s = .nonTerminal ((g.ladder x).head k) → P (.nonTerminal x) (t.value g.stratify)
  atom : ∀ x < g.size, g.HasLadder x → s = .nonTerminal (g.ladder x).atom →
    P (.nonTerminal x) (t.value g.stratify)
  tail : ∀ x < g.size, ∀ k p, (g.ladder x).levels[k]? = some p →
    s = .nonTerminal ((g.ladder x).tail k) → ∀ Q, g.LevelKeeps P x p Q → ∀ v, P (.nonTerminal x) v →
    Q v → Q ((t.meaning g.stratify).climb v)
  forced : ∀ x < g.size, ∀ m i j op, g.Finds x m i j op → s = .nonTerminal ((g.ladder x).forced j) →
    ∀ v, P (.nonTerminal x) v → P (.nonTerminal m) ((t.meaning g.stratify).climb v)

theorem HandsOn.operatorUse {g : Grammar} {P : Symbol → Value → Prop} (hP : g.HandsOn P)
    {x m i : Nat} {q : Production} (hq : g.production? m i = some q)
    (hisop : q.isOperatorOn x = true) {vs : List Value}
    (hvs : Forall₂ P (.nonTerminal x :: (operatorUse x m i q).rest) vs) :
    P (.nonTerminal m) ((operatorUse x m i q).construction.apply vs) := by
  obtain ⟨s, rest, hsymbols⟩ := Production.isOperatorOn_iff.1 hisop
  apply hP.production m i q hq vs
  simp only [Grammar.operatorUse, hsymbols, List.tail_cons] at hvs
  rw [hsymbols]
  exact hvs

/-- A property of values that does not look at symbols is handed on if the declared productions hand it
on. -/
theorem Staged.handsOn {types : Nat} {g : Grammar} (h : g.Staged types g.size) {Q : Value → Prop}
    (hQ : ∀ m, ∀ p ∈ g.productionsOf m, ∀ vs : List Value, vs.length = p.symbols.length →
      (∀ v ∈ vs, Q v) → Q (p.construction.apply vs)) : g.HandsOn fun _ v => Q v where
  production m i p hp vs hvs := by
    refine hQ m p (mem_productionsOf_iff.2 ⟨i, hp⟩) vs hvs.length_eq.symm fun v hv => ?_
    obtain ⟨_, -, hv'⟩ := exists_of_forall₂_right hvs hv
    exact hv'
  forced x hx op hop m i horigin hloops op' hop' hpriority left hleft _ vs hvs := by
    obtain ⟨m', j, q, -, -, hq, hisop, rfl⟩ := (h.mem_usesAt_iff hx).1 hop'
    obtain ⟨s, rest, hsymbols⟩ := Production.isOperatorOn_iff.1 hisop
    simp only [operatorUse, hsymbols, List.tail_cons] at hvs
    refine hQ m' q (mem_productionsOf_iff.2 ⟨j, hq⟩) (left :: vs) ?_ ?_
    · rw [hsymbols, List.length_cons, List.length_cons, hvs.length_eq]
    · refine List.forall_mem_cons.2 ⟨hleft, fun v hv => ?_⟩
      obtain ⟨_, -, hv'⟩ := exists_of_forall₂_right hvs hv
      exact hv'

/-! ## Operands -/

section Operands

variable {g : Grammar} {P : Symbol → Value → Prop} {x : Nat} (hx : x < g.size)
  (hladder : g.HasLadder x)
include hx hladder

theorem Holds.operand {k : Nat} {c : ParseTree}
    (hc : g.Holds P (.nonTerminal ((g.ladder x).operand k)) c) :
    P (.nonTerminal x) (c.value g.stratify) := by
  rcases (g.ladder x).operand_eq k with ⟨hk, heq⟩ | ⟨-, heq⟩
  · exact hc.head x hx hladder (k + 1) hk (by rw [heq])
  · exact hc.atom x hx hladder (by rw [heq])

theorem Holds.limitedSymbol {prec : Prec} {s : Symbol} (hs : g.HasSymbol s) {c : ParseTree}
    (hc : g.Holds P ((g.ladder x).limitedSymbol prec s) c) : P s (c.value g.stratify) := by
  rw [Ladder.limitedSymbol] at hc
  split at hc
  · rename_i hbase
    rw [hbase, ladder_base]
    rcases prefixOperand_cases (g.stage x) x prec with ⟨k, hk, heq⟩ | heq
    · exact hc.head x hx hladder k hk (by rw [ladder, heq])
    · exact hc.atom x hx hladder (by rw [ladder, heq])
  · exact hc.old hs

omit hx hladder in
/-- The trees of a row of old symbols have values with the properties of these. -/
theorem values_of_holds {ss : List Symbol} (hss : ∀ s ∈ ss, g.HasSymbol s) {cs : List ParseTree}
    (hcs : Forall₂ (g.Holds P) ss cs) : Forall₂ P ss (cs.map (ParseTree.value g.stratify)) := by
  induction hcs with
  | nil => exact .nil
  | cons hc _ ih =>
      rw [List.forall_mem_cons] at hss
      exact .cons (hc.old hss.1) (ih hss.2)

/-- So do those of a row with a limited end. -/
theorem values_of_limited {prec : Prec} {ss : List Symbol} (hss : ∀ s ∈ ss, g.HasSymbol s)
    {cs : List ParseTree} (hcs : Forall₂ (g.Holds P) ((g.ladder x).limited prec ss) cs) :
    Forall₂ P ss (cs.map (ParseTree.value g.stratify)) := by
  rcases List.eq_nil_or_concat' ss with rfl | ⟨init, last, rfl⟩
  · exact values_of_holds hss hcs
  · rw [Ladder.limited_concat] at hcs
    obtain ⟨us, vs, rfl, hus, hvs⟩ := exists_append_of_forall₂ hcs
    rw [List.map_append]
    apply List.rel_append
    · exact values_of_holds (fun s hs => hss s (List.mem_append_left _ hs)) hus
    · cases hvs with
      | cons hc hvs =>
          cases hvs
          exact .cons (hc.limitedSymbol hx hladder (hss last (by simp))) .nil

end Operands

namespace Staged

variable {types : Nat} {g : Grammar} (h : g.Staged types g.size) {P : Symbol → Value → Prop}
  (hP : g.HandsOn P)
include h

/-! ## What operators hand on -/

include hP in
/-- What has the property of a member of the closure has that of the non-terminal. -/
theorem of_mem_closureAt {x m : Nat} (hx : x < g.size) (hm : m ∈ g.closureAt x) {v : Value}
    (hv : P (.nonTerminal m) v) : P (.nonTerminal x) v := by
  have hchain : P (.nonTerminal m) v → P (.nonTerminal x) v := by
    refine h.closureAt_induction hx hm (motive := fun a => P (.nonTerminal a) v → _) id ?_
    intro a b _ _ hstep ih hb
    obtain ⟨p, hp, htarget, -⟩ := hstep
    obtain ⟨i, hi⟩ := mem_productionsOf_iff.1 hp
    obtain ⟨hsymbols, hconstruction⟩ := Production.unitTarget?_eq_some_iff.1 htarget
    have hrow : Forall₂ P p.symbols [v] := by
      rw [hsymbols]
      exact .cons hb .nil
    have hunit := hP.production a i p hi [v] hrow
    rw [hconstruction] at hunit
    exact ih hunit
  exact hchain hv

include hP in
/-- The operators of a ladder build what has its property. -/
theorem level_self {x : Nat} (hx : x < g.size) (p : Int32) :
    g.LevelKeeps P x p (P (.nonTerminal x)) := by
  intro op hop _ left hleft _ vs hvs
  obtain ⟨m, i, q, hm, -, hq, hisop, rfl⟩ := (h.mem_usesAt_iff hx).1 hop
  exact h.of_mem_closureAt hP hx hm (hP.operatorUse hq hisop (.cons hleft hvs))

/-! ## One node -/

section Node

variable {nt i : Nat} {p : Production} {cs : List ParseTree}
  (hp : g.stratify.production? nt i = some p) (hcs : Forall₂ (g.Holds P) p.symbols cs)
include hp hcs

/-- What an operator makes of the operand before it, and the tail after it where it goes on. -/
theorem exists_operated {x : Nat} (hx : x < g.size) {op : OperatorUse} (hop : op ∈ g.usesAt x)
    (heq : p = (g.ladder x).tailProduction op) :
    ∃ vs, Forall₂ P op.rest vs ∧
      ((g.ladder x).loops op = false ∧
          (∀ left, ((ParseTree.node nt i cs).meaning g.stratify).climb left =
            op.construction.apply (left :: vs)) ∨
        (g.ladder x).loops op = true ∧
          ∃ tail, g.Holds P
              (.nonTerminal ((g.ladder x).tail ((g.ladder x).levelOf op.prec.priority))) tail ∧
            ∀ left, ((ParseTree.node nt i cs).meaning g.stratify).climb left =
              (tail.meaning g.stratify).climb (op.construction.apply (left :: vs))) := by
  subst heq
  have hladder : g.HasLadder x := List.ne_nil_of_mem hop
  have hrest : ∀ s ∈ op.rest, g.HasSymbol s := by
    obtain ⟨m, j, q, -, -, hq, -, rfl⟩ := (h.mem_usesAt_iff hx).1 hop
    intro s hs
    exact h.hasSymbol m q (mem_productionsOf_iff.2 ⟨j, hq⟩) s (List.mem_of_mem_tail hs)
  have hmem : op.prec.priority ∈ (g.ladder x).levels := mem_levels_ladder_iff.2 ⟨op, hop, rfl⟩
  rw [Ladder.tailProduction_symbols, (sorted_ladder g x).operatorSymbols_eq hmem] at hcs
  -- The operands come first, and after them the rest of the tail if the operator goes on.
  obtain ⟨us, ts, rfl, hus, hts⟩ := exists_append_of_forall₂ hcs
  have hvalues : us.map (ParseTree.value g.stratify) =
      (us.map (ParseTree.meaning g.stratify)).map Meaning.value := by
    rw [List.map_map]
    rfl
  have hmeaning : ((ParseTree.node nt i (us ++ ts)).meaning g.stratify).climb =
      Meaning.operated op.construction ((g.ladder x).loops op)
        ((us ++ ts).map (ParseTree.meaning g.stratify)) := by
    rw [ParseTree.meaning_node, constructionOf_eq hp]
    rfl
  refine ⟨_, values_of_limited hx hladder hrest hus, ?_⟩
  rw [hmeaning, List.map_append, hvalues]
  cases hloops : (g.ladder x).loops op with
  | false =>
      rw [hloops] at hts
      cases hts
      refine Or.inl ⟨rfl, fun left => ?_⟩
      rw [List.map_nil, List.append_nil, Meaning.operated_ending]
  | true =>
      rw [hloops] at hts
      cases hts with
      | @cons _ tail _ _ htail hts =>
          cases hts
          refine Or.inr ⟨rfl, tail, htail, fun left => ?_⟩
          rw [List.map_singleton, Meaning.operated_looping]

omit h in
/-- The value of a climb is what the tail makes of its operand. -/
theorem exists_climbed {x k next : Nat} (hx : x < g.size) (hladder : g.HasLadder x)
    (heq : p = (g.ladder x).climbProduction k next) :
    ∃ v c, P (.nonTerminal x) v ∧ g.Holds P (.nonTerminal next) c ∧
      (ParseTree.node nt i cs).value g.stratify = (c.meaning g.stratify).climb v := by
  subst heq
  obtain ⟨c, c', rfl, hc, hc'⟩ := forall₂_pair hcs
  refine ⟨_, c', hc.operand hx hladder, hc', ?_⟩
  rw [ParseTree.value, ParseTree.meaning_node, constructionOf_eq hp]
  rfl

omit h in
/-- A declared operator, begun with its operand. -/
theorem value_forcedProduction {x m j l : Nat} {op : OperatorUse} (hx : x < g.size)
    (hfinds : g.Finds x m j l op) (heq : p = g.forcedProduction x l op) :
    P (.nonTerminal m) ((ParseTree.node nt i cs).value g.stratify) := by
  have hladder : g.HasLadder x := List.ne_nil_of_mem hfinds.mem_usesAt
  obtain ⟨v, c, hv, hc, hvalue⟩ := exists_climbed hp hcs hx hladder heq
  rw [hvalue]
  exact hc.forced x hx m j l op hfinds rfl v hv

include hP

/-- A level. -/
theorem value_head {x k : Nat} (hx : x < g.size) (hladder : g.HasLadder x)
    (hk : k < (g.ladder x).height)
    (heq : p = (g.ladder x).climbProduction k ((g.ladder x).tail k)) :
    P (.nonTerminal x) ((ParseTree.node nt i cs).value g.stratify) := by
  obtain ⟨v, c, hv, hc, hvalue⟩ := exists_climbed hp hcs hx hladder heq
  rw [hvalue]
  exact hc.tail x hx k _ (List.getElem?_eq_getElem hk) rfl _ (h.level_self hP hx _) v hv hv

/-- A declared production. -/
theorem value_declared {m j : Nat} {q : Production} (hq : g.production? m j = some q)
    (heq : p = q) : P (.nonTerminal m) ((ParseTree.node nt i cs).value g.stratify) := by
  subst heq
  have hmem := mem_productionsOf_iff.2 ⟨j, hq⟩
  have hderives : g.stratify.DerivesRow p.symbols cs := hcs.imp fun _ _ hc => hc.derives
  rw [ParseTree.value, ParseTree.meaning_node, constructionOf_eq hp, stratify_eq_stage,
    (h.stage (Nat.le_refl _)).value_ofNode (h.declared_of_mem hmem) hderives, ← stratify_eq_stage]
  exact hP.production m j p hq _ (values_of_holds (fun s hs => h.hasSymbol m p hmem s hs) hcs)

/-- An atom that was declared, perhaps with a limited end. -/
theorem value_atomProduction {x m j : Nat} {q : Production} (hx : x < g.size)
    (hladder : g.HasLadder x) (hq : g.production? m j = some q)
    (heq : p = (g.ladder x).atomProduction q) :
    P (.nonTerminal m) ((ParseTree.node nt i cs).value g.stratify) := by
  by_cases hsame : (g.ladder x).atomProduction q = q
  · exact h.value_declared hP hp hcs hq (heq.trans hsame)
  · subst heq
    have hmem := mem_productionsOf_iff.2 ⟨j, hq⟩
    have hsymbol : ∀ s ∈ q.symbols, g.HasSymbol s := fun s hs => h.hasSymbol m q hmem s hs
    have hxt : x < types :=
      (h.stage (Nat.le_of_lt hx)).lt_types_of_operatorsOn_ne_nil hx hladder
    have hvalues : Forall₂ P q.symbols (cs.map (ParseTree.value g.stratify)) := by
      rw [Ladder.atomProduction_symbols] at hcs
      split at hcs
      · exact values_of_limited hx hladder hsymbol hcs
      · exact values_of_holds hsymbol hcs
    have hchildren : (cs.map (ParseTree.meaning g.stratify)).map Meaning.value =
        cs.map (ParseTree.value g.stratify) := by
      rw [List.map_map]
      rfl
    have hbuilds := hP.production m j q hq _ hvalues
    rw [ParseTree.value, ParseTree.meaning_node, constructionOf_eq hp,
      Ladder.atomProduction_construction]
    -- The rest of a list is no operand, so a list stays as it is.
    cases h.declared_of_mem hmem with
    | node kind slots prec hi htypes => rwa [← hchildren] at hbuilds
    | child place prec hi htypes => rwa [← hchildren] at hbuilds
    | emptyList prec => exact hbuilds
    | listHead prec hi htype hrest hlt =>
        have hne : x ≠ _ := Nat.ne_of_lt (Nat.lt_of_lt_of_le hxt hrest)
        exact absurd (by simp [Ladder.atomProduction, hne.symm]) hsame
    | listNext divider prec hi htype hrest hlt =>
        have hne : x ≠ _ := Nat.ne_of_lt (Nat.lt_of_lt_of_le hxt hrest)
        exact absurd (by simp [Ladder.atomProduction, hne.symm]) hsame

/-- An atom of a ladder. -/
theorem value_atom {x : Nat} (hx : x < g.size) (hladder : g.HasLadder x)
    (hnt : nt = (g.ladder x).atom) :
    P (.nonTerminal x) ((ParseTree.node nt i cs).value g.stratify) := by
  have hmem : p ∈ g.stratify.productionsOf nt := mem_productionsOf_iff.2 ⟨i, hp⟩
  rw [hnt, h.productionsOf_atom_stratify hladder hx] at hmem
  obtain ⟨a, ha, rfl⟩ := List.mem_map.1 hmem
  rcases (h.mem_atomsAt_iff hx).1 ha with
    ⟨m, hm, hmladder, hmx, rfl⟩ | ⟨m, hm, hopen, i', q, hq, hnotop, hunit, rfl⟩
  · -- The climb of an earlier ladder.
    have hms : m < g.size := Nat.lt_trans hmx hx
    have htail : g.size ≤ (g.ladder m).tail 0 :=
      Nat.le_trans (h.size_le_stage (Nat.le_of_lt hms))
        (tail_bounds (g := g.stage m) hmladder hmladder.height_pos).1
    apply h.of_mem_closureAt hP hx hm
    exact h.value_head hP hp hcs hms hmladder hmladder.height_pos (atomProduction_climb hx htail)
  · apply h.of_mem_closureAt hP hx hm
    rcases g.arranged_cases x m i' q with ⟨heq, -⟩ | ⟨y, hyx, j, op, hfinds, heq⟩
    · rw [heq] at hp hcs
      exact h.value_atomProduction hP hp hcs hx hladder hq rfl
    · have hys : y < g.size := Nat.lt_trans hyx hx
      apply value_forcedProduction hp hcs hys hfinds
      rw [heq]
      exact h.atomProduction_forcedProduction hx hys hfinds

omit hP in
/-- A tail hands on what its operators hand on. -/
theorem climb_tail (hP : g.HandsOn P) {x k : Nat} {pr : Int32} (hx : x < g.size)
    (hlevel : (g.ladder x).levels[k]? = some pr) (hnt : nt = (g.ladder x).tail k)
    {Q : Value → Prop} (hQ : g.LevelKeeps P x pr Q) {v : Value} (hv : P (.nonTerminal x) v) (hQv : Q v) :
    Q (((ParseTree.node nt i cs).meaning g.stratify).climb v) := by
  have hladder := HasLadder.of_level hlevel
  have hmem : p ∈ g.stratify.productionsOf nt := mem_productionsOf_iff.2 ⟨i, hp⟩
  rw [hnt, h.productionsOf_tail_stratify hladder hx hlevel] at hmem
  rcases List.mem_append.1 hmem with hmem | hmem
  · obtain ⟨op, hfiltered, heq⟩ := List.mem_map.1 hmem
    obtain ⟨hop, hpr⟩ := List.mem_filter.1 hfiltered
    obtain rfl := beq_iff_eq.1 hpr
    obtain ⟨vs, hvs, ⟨-, hclimb⟩ | ⟨-, tail, htail, hclimb⟩⟩ :=
      h.exists_operated hp hcs hx hop heq.symm
    · rw [hclimb]
      exact hQ op hop rfl v hv hQv vs hvs
    · rw [hclimb]
      have hvalue := h.level_self hP hx op.prec.priority op hop rfl v hv hv vs hvs
      have hlevel := Ladder.getElem?_levelOf (mem_levels_ladder_iff.2 ⟨op, hop, rfl⟩)
      exact htail.tail x hx _ _ hlevel rfl Q hQ _ hvalue (hQ op hop rfl v hv hQv vs hvs)
  · -- The end of the tail.
    obtain rfl := List.mem_singleton.1 hmem
    rw [ParseTree.meaning_node, constructionOf_eq hp]
    exact hQv

/-- A forced operator builds what its type builds, and so does the tail after it. -/
theorem climb_forced {x m j l : Nat} {op : OperatorUse} (hx : x < g.size)
    (hfinds : g.Finds x m j l op) (hnt : nt = (g.ladder x).forced l) {v : Value}
    (hv : P (.nonTerminal x) v) :
    P (.nonTerminal m) (((ParseTree.node nt i cs).meaning g.stratify).climb v) := by
  have hop := hfinds.mem_usesAt
  have hmem : p ∈ g.stratify.productionsOf nt := mem_productionsOf_iff.2 ⟨i, hp⟩
  rw [hnt, h.productionsOf_forced_stratify hx hfinds] at hmem
  have hbuilds : ∀ {vs}, Forall₂ P op.rest vs →
      P (.nonTerminal m) (op.construction.apply (v :: vs)) := by
    intro vs hvs
    obtain ⟨q, -, -, hq, hisop, -, rfl⟩ := h.exists_of_finds hx hfinds
    exact hP.operatorUse hq hisop (.cons hv hvs)
  obtain ⟨vs, hvs, ⟨-, hclimb⟩ | ⟨hloops, tail, htail, hclimb⟩⟩ :=
    h.exists_operated hp hcs hx hop (List.mem_singleton.1 hmem)
  · rw [hclimb]
    exact hbuilds hvs
  · rw [hclimb]
    have hvalue := h.level_self hP hx op.prec.priority op hop rfl v hv hv vs hvs
    have hlevel := Ladder.getElem?_levelOf (mem_levels_ladder_iff.2 ⟨op, hop, rfl⟩)
    have hforced := hP.forced x hx op hop m j hfinds.origin hloops
    exact htail.tail x hx _ _ hlevel rfl _ hforced _ hvalue (hbuilds hvs)

/-- A declared non-terminal. -/
theorem value_old (hnt : nt < g.size) :
    P (.nonTerminal nt) ((ParseTree.node nt i cs).value g.stratify) := by
  by_cases hladder : g.HasLadder nt
  · have hmem : p ∈ g.stratify.productionsOf nt := mem_productionsOf_iff.2 ⟨i, hp⟩
    have hhead := h.productionsOf_head_stratify hladder hnt hladder.height_pos
    rw [Ladder.head_zero, ladder_base] at hhead
    rw [hhead] at hmem
    exact h.value_head hP hp hcs hnt hladder hladder.height_pos (List.mem_singleton.1 hmem)
  · have hkept := hp
    rw [h.production?_stratify hnt hladder] at hkept
    obtain ⟨q, hq, harranged⟩ := Option.map_eq_some_iff.1 hkept
    rcases g.arranged_cases g.size nt i q with ⟨heq, -⟩ | ⟨x, hx, j, op, hfinds, heq⟩
    · exact h.value_declared hP hp hcs hq (harranged.symm.trans heq)
    · exact value_forcedProduction hp hcs hx hfinds (harranged.symm.trans heq)

theorem holds_node : g.Holds P (.nonTerminal nt) (.node nt i cs) where
  derives := Derives.node hp (hcs.imp fun _ _ hc => hc.derives)
  old hnt := h.value_old hP hp hcs hnt
  head x hx hladder k hk hnt := by
    have hmem : p ∈ g.stratify.productionsOf nt := mem_productionsOf_iff.2 ⟨i, hp⟩
    rw [Symbol.nonTerminal.inj hnt, h.productionsOf_head_stratify hladder hx hk] at hmem
    exact h.value_head hP hp hcs hx hladder hk (List.mem_singleton.1 hmem)
  atom x hx hladder hnt := h.value_atom hP hp hcs hx hladder (Symbol.nonTerminal.inj hnt)
  tail x hx k pr hlevel hnt Q hQ v hv hQv :=
    h.climb_tail hp hcs hP hx hlevel (Symbol.nonTerminal.inj hnt) hQ hv hQv
  forced x hx m j l op hfinds hnt v hv :=
    h.climb_forced hP hp hcs hx hfinds (Symbol.nonTerminal.inj hnt) hv

end Node

/-! ## Every tree -/

include hP

/-- A property that the declared productions hand on, and that the tokens of a tree have, holds of the
value of the tree. -/
theorem holds {s : Symbol} {t : ParseTree} (ht : g.stratify.Derives s t)
    (htokens : ∀ token ∈ t.tokens, P (.terminal token.terminal) token.value) : g.Holds P s t := by
  induction ht using Derives.rec_on with
  | token token =>
      refine ⟨Derives.token token, fun _ => htokens token (by simp), ?_, ?_, ?_, ?_⟩ <;> intros <;>
        contradiction
  | node nt i p cs hp hc ih =>
      refine h.holds_node hP hp (forall₂_imp_of_mem ih fun s c hc hholds => ?_)
      obtain ⟨_, hholds⟩ := hholds
      apply hholds
      intro token htoken
      apply htokens
      rw [ParseTree.tokens_node]
      exact List.mem_flatMap.2 ⟨c, hc, htoken⟩

theorem holds_value {s : Symbol} (hs : g.HasSymbol s) {t : ParseTree} (ht : g.stratify.Derives s t)
    (htokens : ∀ token ∈ t.tokens, P (.terminal token.terminal) token.value) :
    P s (t.value g.stratify) :=
  (h.holds hP ht htokens).old hs

end Staged

end Grammar

end SmallLang
