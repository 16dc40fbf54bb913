import SmallLang.Proofs.Inlining.Lowering
import SmallLang.Proofs.Inlining.Stratify
import SmallLang.Proofs.Inlining.Table
import SmallLang.Proofs.Renumbering.Language

/-!
# Priorities of replacements with one more operator

A type `e` without operators decides between the types that replace it by the priorities of the
replacements. An infix operator on `e` puts the productions of all of them into the atoms of `e`, where they
are compared by their own priorities (`Language.InlinesBy.cell`). So the language with the operator assembles
if these decide every cell, and only then, whatever the priorities of the replacements were
(`Language.assemble_addInfix`).

Calls that replace statements with a priority of 200 are preferred to variables, which begin with an
identifier too. With a sequence of statements the productions of both compete with one priority, and the
language does not assemble (`Language.not_assemble_sequence`).
-/

set_option autoImplicit false

namespace SmallLang

namespace Language

/-- The second language is the first one with the operator on `e`, by other numbers: a cell of the atoms of
`e` holds a production of an alternative of `e` if it applies and no other atom that applies has a higher
priority of its own, and only then. -/
structure InlinesBy (s : Renumbering) (l l' : Language) (e : Nat) (o : AddedInfix) : Prop where
  renumbers : Grammar.Renumbers s (l.grammar.inlineAt e o) l'.grammar
  type : ∀ i < l.types.length, s.nonTerminal i = i
  terminal : s.terminal = Equiv.refl Nat
  kind : s.kind = Equiv.refl String
  atom : l'.grammar.productionsOf e = [⟨[.nonTerminal (s.nonTerminal (l.grammar.size + 2)),
    .nonTerminal (s.nonTerminal (l.grammar.size + 1))], .climb, .default⟩]
  cell : ∀ a ∈ l.grammar.unitClosure e, ∀ p ∈ l.grammar.atomsOf a, ∀ t < l.arena.size,
    (∃ i, l'.compiled.table.get? (s.nonTerminal (l.grammar.size + 2)) (.terminal t) = some i ∧
        l'.grammar.production? (s.nonTerminal (l.grammar.size + 2)) i =
          some (s.production ((l.grammar.inlineLadder e o).atomProduction p))) ↔
      l.grammar.canBegin t p = true ∧ ∀ q ∈ l.grammar.atomsOf e, l.grammar.canBegin t q = true →
        q.prec.priority ≤ p.prec.priority

/-- What a language without operators on `e` has to be like for an operator on `e` to leave it the same
otherwise. -/
structure Prepared (l : Language) (lowered : Lowered) (e : Nat) : Prop where
  unstaged : lowered.grammar.Unstaged e
  nonempty : ¬ l.grammar.Nullable e
  settled : l.grammar.Settled

instance (l : Language) (lowered : Lowered) (e : Nat) : Decidable (l.Prepared lowered e) :=
  decidable_of_iff (lowered.grammar.Unstaged e ∧ ¬ l.grammar.Nullable e ∧ l.grammar.Settled)
    ⟨fun ⟨hunstaged, hnonempty, hsettled⟩ => ⟨hunstaged, hnonempty, hsettled⟩,
      fun h => ⟨h.unstaged, h.nonempty, h.settled⟩⟩

variable {declared : List NodeType} {config : Config} {l : Language} {lowered : Lowered}
  {o : MixedOperator} {base : NodeType} {e : Nat}

/-- The numbers of the language with the operator. -/
theorem exists_renumbers_inlineAt (hbuilt : ∀ t ∈ declared, t.Built) (hlower : lower declared = .ok lowered)
    (hnew : o.NewTo declared lowered.grammar.arena) (hbase : lowered.types[e]? = some base)
    (hunstaged : lowered.grammar.Unstaged e) :
    ∃ lowered' s, lower (declared ++ [o.nodeType base.name]) = .ok lowered' ∧
      Grammar.Renumbers s (lowered.grammar.stratify.inlineAt e o.added) lowered'.grammar.stratify ∧
      lowered'.grammar.stratify.WellFormed ∧ (∀ i < lowered.types.length, s.nonTerminal i = i) ∧
      s.terminal = Equiv.refl Nat ∧ s.kind = Equiv.refl String := by
  obtain ⟨lowered', hlower', -, hren⟩ := exists_renumbers_addInfix hlower hnew hbase
  obtain ⟨hstaged, hstart, -⟩ := staged_of_lower hlower hbuilt
  obtain ⟨hstaged', hstart', -⟩ := staged_of_lower hlower' fun t ht => by
    rcases List.mem_append.1 ht with ht | ht
    · exact hbuilt t ht
    · rw [List.mem_singleton.1 ht]
      exact o.built_nodeType base.name
  have helt : e < lowered.types.length := (List.getElem?_eq_some_iff.1 hbase).1
  have hle := hstaged.types_le
  obtain ⟨s, hs, hagrees⟩ := hunstaged.exists_stratify_addInfix hstaged hstart
    (Nat.lt_of_lt_of_le helt hle) hren hstaged' fun x y hxy hy => by
      -- Only the rests of lists move, all by one, so the numbers keep their order.
      show exchange _ _ _ x < exchange _ _ _ y
      rw [exchange_eq, exchange_eq]
      split_ifs <;> omega
  refine ⟨lowered', s, hlower', hs, hstaged'.wellFormed_stratify hstart', fun i hi => ?_,
    hagrees.terminal, hagrees.kind⟩
  rw [hagrees.nonTerminal i (Nat.lt_of_lt_of_le hi hle)]
  exact exchange_of_lt hi

/-- What the steps of the grammar with the operator ask for is there in an assembled language. -/
theorem Prepared.inlines (h : l.Prepared lowered e) (hbuilt : ∀ t ∈ declared, t.Built)
    (hlower : lower declared = .ok lowered) (hgrammar : l.grammar = lowered.grammar.stratify)
    (he : e < lowered.types.length) (hwellFormed : (l.grammar.inlineAt e o.added).WellFormed) :
    l.grammar.Inlines lowered.types.length lowered.grammar.size e o.added := by
  obtain ⟨hstaged, hstart, -⟩ := staged_of_lower hlower hbuilt
  have hlt : e < lowered.grammar.size := Nat.lt_of_lt_of_le he hstaged.types_le
  have hnonempty := h.nonempty
  rw [hgrammar] at hwellFormed hnonempty ⊢
  exact ⟨⟨hstaged.stage (Nat.le_refl _), hlt,
      Grammar.Unstaged.operatorsOn_stratify_eq_nil hstaged hlt h.unstaged.noOperator⟩,
    hstaged.wellFormed_stratify hstart, hwellFormed, hnonempty⟩

/-- **An infix operator on `e` leaves a language if the own priorities of the atoms of `e` decide every
cell, and only then. A cell of the atoms holds the production of highest priority of its own among those
that apply, whichever the priorities of the replacements preferred.** -/
theorem assemble_addInfix (hbuilt : ∀ t ∈ declared, t.Built) (hl : assemble declared config = .ok l)
    (hlower : lower declared = .ok lowered) (hnew : o.NewTo declared l.arena)
    (hbase : l.types[e]? = some base) (hprepared : l.Prepared lowered e)
    (hprec : Prec.lowest.priority < o.prec.priority) :
    ((∃ l', assemble (declared ++ [o.nodeType base.name]) config = .ok l') ↔
        ∀ t < l.arena.size, (l.grammar.atomCell e t).Decided) ∧
      (∀ l', assemble (declared ++ [o.nodeType base.name]) config = .ok l' →
        ∃ s, InlinesBy s l l' e o.added) ∧
      (Upgrades.OneStep declared → ∀ l', l.addTypes [o.nodeType base.name] = .ok l' ↔
        assemble (declared ++ [o.nodeType base.name]) config = .ok l') := by
  obtain ⟨lowered₀, hlower₀, htypes, hconfig, hcompiled⟩ := assemble_eq_ok hl
  obtain rfl := Except.ok.inj (hlower.symm.trans hlower₀)
  have hgrammar : l.grammar = lowered.grammar.stratify := (Compiled.ofGrammar_eq_ok hcompiled).1
  rw [htypes] at hbase
  rw [arena_of_assemble hlower hl] at hnew
  have he : e < lowered.types.length := (List.getElem?_eq_some_iff.1 hbase).1
  obtain ⟨lowered', s, hlower', hs, hwellFormed', htype, hterminal, hkind⟩ :=
    exists_renumbers_inlineAt hbuilt hlower hnew hbase hprepared.unstaged
  rw [← hgrammar] at hs
  have hinlines := hprepared.inlines (o := o) hbuilt hlower hgrammar he (hs.symm.wellFormed hwellFormed')
  have hassembles : (∃ l', assemble (declared ++ [o.nodeType base.name]) config = .ok l') ↔
      ∀ t < l.arena.size, (l.grammar.atomCell e t).Decided := by
    rw [assemble_ok_iff_of_lower hlower', ← hs.ofGrammar_ok_iff hinlines.wellFormed_inlineAt]
    refine hinlines.ofGrammar_inlineAt_ok_iff hprepared.settled hprec (fun c hc => nomatch hc) ⟨l.compiled, ?_⟩
    rw [hgrammar]
    exact hcompiled
  refine ⟨hassembles, fun l' hl' => ⟨s, ?_⟩, fun hone l' => ?_⟩
  · -- The cells are read off the grammar of the step and carried over to the numbers of the language.
    obtain ⟨lowered'', hlower'', -, -, hcompiled'⟩ := assemble_eq_ok hl'
    obtain rfl := Except.ok.inj (hlower'.symm.trans hlower'')
    obtain ⟨hgrammar', -, htable'⟩ := Compiled.ofGrammar_eq_ok hcompiled'
    obtain ⟨htable', -⟩ := Grammar.parseTable_eq_ok htable'
    have hs' : Grammar.Renumbers s (l.grammar.inlineAt e o.added) l'.grammar := by
      rw [grammar, grammar, hgrammar']
      exact hs
    refine ⟨hs', htypes ▸ htype, hterminal, hkind, ?_, fun a ha p hp t ht => ?_⟩
    · have hself := hs'.productionsOf e
      rw [htype e he, hinlines.productionsOf_inlineAt_self] at hself
      exact List.perm_singleton.1 hself
    · have hcell := hinlines.exists_get?_iff hs hterminal ht (hassembles.1 ⟨l', hl'⟩ t ht)
        (hinlines.mem_atomsOf ha hp)
      rw [← htable'] at hcell
      rw [grammar, grammar, hgrammar']
      exact hcell
  · rw [← Except.toOption_eq_some_iff, ← Except.toOption_eq_some_iff,
      toOption_addTypes_of_oneStep hl hone]

/-! ## Calls and variables -/

/-- Statements, which calls replace with a priority of 200, and variables with the default one. Both begin
with an identifier. A call has the given precedence of its own. -/
def callTypes (call : Prec) : List NodeType :=
  [(NodeType.named "Stmt").start,
    ((NodeType.named "Call").generates
      [.field "f" (.terminal .identifier) none, Sym.literal "(", Sym.literal ")"] call).replaces "Stmt"
        ⟨.none, 200⟩,
    ((NodeType.named "Var").generates [.field "name" (.terminal .identifier) none] Prec.default).replaces
      "Stmt" Prec.default]

/-- Statements one after the other. -/
def sequence : MixedOperator := ⟨"Seq", ";", .between, "l", "r", Prec.default, Prec.default⟩

theorem built_callTypes (call : Prec) : ∀ t ∈ callTypes call, t.Built := by
  intro t ht
  simp only [callTypes, List.mem_cons, List.not_mem_nil, or_false] at ht
  rcases ht with rfl | rfl | rfl
  · exact (NodeType.Built.named _).start
  · exact ((NodeType.Built.named _).generates _ _).replaces _ _
  · exact ((NodeType.Built.named _).generates _ _).replaces _ _

/-- Sequences can be added to the language of calls and variables, which passes the check. -/
def takesSequence (call : Prec) (check : Language → Bool) : Bool :=
  (lower (callTypes call)).toOption.any fun lowered =>
    (assemble (callTypes call) .quiet).toOption.any fun l =>
      decide (sequence.NewTo (callTypes call) l.arena) && decide (l.Prepared lowered 0) &&
        (l.types[0]? == some (NodeType.named "Stmt").start && check l)

theorem of_takesSequence {call : Prec} {check : Language → Bool} (h : takesSequence call check = true) :
    ∃ lowered l, lower (callTypes call) = .ok lowered ∧ assemble (callTypes call) .quiet = .ok l ∧
      sequence.NewTo (callTypes call) l.arena ∧ l.Prepared lowered 0 ∧
      l.types[0]? = some (NodeType.named "Stmt").start ∧ check l = true := by
  obtain ⟨lowered, hlower, h⟩ := Except.exists_of_any h
  obtain ⟨l, hl, h⟩ := exists_of_any_assemble h
  simp only [Bool.and_eq_true, decide_eq_true_eq, beq_iff_eq] at h
  exact ⟨lowered, l, hlower, hl, h.1.1, h.1.2, h.2⟩

set_option maxRecDepth 4000 in
/-- Calls with a higher priority of their own than variables are still preferred after sequences were
added. -/
theorem assemble_addInfix_of_callTypes :
    ∃ l l' s, assemble (callTypes ⟨.none, 150⟩) .quiet = .ok l ∧
      l.addTypes [sequence.nodeType "Stmt"] = .ok l' ∧ InlinesBy s l l' 0 sequence.added ∧
      ∀ t < l.arena.size, (l.grammar.atomCell 0 t).Decided := by
  have hcheck : takesSequence ⟨.none, 150⟩ (fun l =>
      (List.range l.arena.size).all fun t => (l.grammar.atomCell 0 t).isDecided) = true := by
    cbv
  obtain ⟨lowered, l, hlower, hl, hnew, hprepared, hbase, hcells⟩ := of_takesSequence hcheck
  simp only [List.all_eq_true, List.mem_range, Cell.isDecided_iff] at hcells
  obtain ⟨hassembles, hinlines, hadd⟩ := assemble_addInfix (built_callTypes _) hl hlower hnew hbase
    hprepared (by decide)
  obtain ⟨l', hl'⟩ := hassembles.2 hcells
  obtain ⟨s, hs⟩ := hinlines l' hl'
  exact ⟨l, l', s, hl, (hadd (by decide) l').2 hl', hs, hcells⟩

set_option maxRecDepth 4000 in
/-- Where calls and variables have one priority of their own, the language prefers calls, which replace
statements with a higher one, but with sequences it does not assemble. -/
theorem not_assemble_sequence :
    ∃ lowered l, lower (callTypes Prec.default) = .ok lowered ∧
      assemble (callTypes Prec.default) .quiet = .ok l ∧
      sequence.NewTo (callTypes Prec.default) l.arena ∧ l.Prepared lowered 0 ∧
      l.types[0]? = some (NodeType.named "Stmt").start ∧
      l.grammar.productionsOf 0 = [⟨[.nonTerminal 1], .child 0, ⟨.none, 200⟩⟩,
        ⟨[.nonTerminal 2], .child 0, Prec.default⟩] ∧
      l.grammar.cellCandidates 0 (.terminal 0) = [(0, 200), (1, 100)] ∧
      l.compiled.table.get? 0 (.terminal 0) = some 0 ∧
      l.addTypes [sequence.nodeType "Stmt"] = .error (.ambiguous "Stmt#atom" "RawIdentifier"
        ["RawIdentifier \"(\" \")\"", "RawIdentifier"]) := by
  have hcheck : takesSequence Prec.default (fun l =>
      l.grammar.productionsOf 0 == [⟨[.nonTerminal 1], .child 0, ⟨.none, 200⟩⟩,
          ⟨[.nonTerminal 2], .child 0, Prec.default⟩] &&
        l.grammar.cellCandidates 0 (.terminal 0) == [(0, 200), (1, 100)] &&
        l.compiled.table.get? 0 (.terminal 0) == some 0) = true := by
    cbv
  have hrefused : (assemble (callTypes Prec.default) .quiet >>= fun l =>
      l.addTypes [sequence.nodeType "Stmt"]) = .error (.ambiguous "Stmt#atom" "RawIdentifier"
        ["RawIdentifier \"(\" \")\"", "RawIdentifier"]) := by
    cbv
  obtain ⟨lowered, l, hlower, hl, hnew, hprepared, hbase, hcell⟩ := of_takesSequence hcheck
  simp only [Bool.and_eq_true, beq_iff_eq] at hcell
  rw [hl] at hrefused
  exact ⟨lowered, l, hlower, hl, hnew, hprepared, hbase, hcell.1.1, hcell.1.2, hcell.2, hrefused⟩

end Language

end SmallLang
