import SmallLang.Proofs.Renumbering.Language
import SmallLang.Proofs.Reordering.Lowering

/-!
# Declarations in another order

The order of declarations gives numbers to types, productions and terminals, and decides in which order
operators are arranged in levels. Numbers do not matter. The order of the steps does: a type with
operators that hands on to another type with operators takes over its productions as they are at that
time. If the other type comes later, its operators are not in levels yet, and they end up among the atoms
as they were declared (`Language.not_sameLanguage_of_perm`). Every order of the declarations that keeps
the order of such types gives the same language (`Language.sameLanguage_of_perm`).
-/

set_option autoImplicit false

namespace SmallLang

open List (Forall₂)

/-- Two types are linked if both have operators and both hand on to an operator on one of them. Linked types
come in the same order in the second list. -/
def Lowered.KeepsLinks (lowered lowered' : Lowered) : Prop :=
  ∀ s ∈ lowered.types, ∀ t ∈ lowered.types,
    lowered.grammar.Linked (lowered.types.idxOf s) (lowered.types.idxOf t) →
      lowered.types.idxOf s < lowered.types.idxOf t → lowered'.types.idxOf s < lowered'.types.idxOf t

instance (lowered lowered' : Lowered) : Decidable (lowered.KeepsLinks lowered') :=
  decidable_of_iff ((lowered.types.all fun s => lowered.types.all fun t => decide (
    lowered.grammar.Linked (lowered.types.idxOf s) (lowered.types.idxOf t) →
      lowered.types.idxOf s < lowered.types.idxOf t →
        lowered'.types.idxOf s < lowered'.types.idxOf t)) = true) (by
    simp only [List.all_eq_true, decide_eq_true_eq, Lowered.KeepsLinks])

/-- Two tokens for the same terminal, with the same text, value and place. -/
structure Token.Matches (arena arena' : Arena) (t t' : Token) : Prop where
  terminal : ∃ x, arena.get? t.terminal = some x ∧ arena'.get? t'.terminal = some x
  text : t'.text = t.text
  value : t'.value = t.value
  position : t'.position = t.position

/-- Grammars that are the same by other numbers have the same terminals. -/
theorem Grammar.Renumbers.terminals_perm {r : Renumbering} {g g' : Grammar} (h : Renumbers r g g')
    (hkeyed : g.arena.Keyed) (hkeyed' : g'.arena.Keyed) :
    g'.arena.terminals.Perm g.arena.terminals := by
  refine (List.perm_ext_iff_of_nodup hkeyed'.among.nodup hkeyed.among.nodup).2 fun t => ?_
  rw [List.mem_iff_getElem?, List.mem_iff_getElem?]
  constructor
  · rintro ⟨j, hj⟩
    obtain ⟨i, rfl⟩ := r.terminal.surjective j
    exact ⟨i, (h.get? i).symm.trans hj⟩
  · rintro ⟨i, hi⟩
    exact ⟨r.terminal i, (h.get? i).trans hi⟩

namespace Language

/-- Both lists of types assemble or none does, and if they do, both languages have the same terminals,
accept the same tokens, and yield the same values for them. -/
structure SameLanguage (declared declared' : List NodeType) (config : Config) : Prop where
  assemble_iff : (∃ l, assemble declared config = .ok l) ↔ ∃ l', assemble declared' config = .ok l'
  terminals : ∀ l l', assemble declared config = .ok l → assemble declared' config = .ok l' →
    l'.arena.terminals.Perm l.arena.terminals
  parseTokens_iff : ∀ l l', assemble declared config = .ok l → assemble declared' config = .ok l' →
    ∀ tokens tokens', Forall₂ (Token.Matches l.arena l'.arena) tokens tokens' →
      ∀ v, l.parseTokens tokens = .ok v ↔ l'.parseTokens tokens' = .ok v

/-- Where types that are linked keep their order, so do the numbers of steps that are. -/
theorem keepsOrder_of_keepsLinks {declared declared' : List NodeType} {lowered lowered' : Lowered}
    {r : Renumbering} (hbuilt : ∀ t ∈ declared, t.Built) (hlower : lower declared = .ok lowered)
    (hlower' : lower declared' = .ok lowered') (hlinks : lowered.KeepsLinks lowered')
    (htypes : ∀ i < lowered.types.length, lowered'.types[r.nonTerminal i]? = lowered.types[i]?) :
    Grammar.KeepsOrder r lowered.grammar := by
  obtain ⟨hstaged, -, -⟩ := staged_of_lower hlower hbuilt
  have hnodup : ∀ {declared : List NodeType} {lowered : Lowered}, lower declared = .ok lowered →
      lowered.types.Nodup := fun hlower => by
    obtain ⟨ns, hmakes⟩ := lower_eq_ok hlower
    rw [hmakes.types]
    exact (Upgrades.nodup_names_of_settle hmakes.settle).of_map
  intro x hx y hy hlinked hlt
  -- Only types have operators.
  obtain ⟨hopsx, hopsy⟩ := hlinked.operatorsOn_ne_nil
  have hx' := hstaged.lt_types_of_operatorsOn_ne_nil hx hopsx
  have hy' := hstaged.lt_types_of_operatorsOn_ne_nil hy hopsy
  have hidx : ∀ (i : Nat) (hi : i < lowered.types.length),
      lowered.types.idxOf lowered.types[i] = i ∧
        lowered'.types.idxOf lowered.types[i] = r.nonTerminal i := by
    intro i hi
    refine ⟨(hnodup hlower).idxOf_getElem i hi, ?_⟩
    have hget := htypes i hi
    rw [List.getElem?_eq_getElem hi] at hget
    obtain ⟨hi', hget'⟩ := List.getElem?_eq_some_iff.1 hget
    rw [← hget']
    exact (hnodup hlower').idxOf_getElem _ hi'
  obtain ⟨hfirst, hfirst'⟩ := hidx x hx'
  obtain ⟨hsecond, hsecond'⟩ := hidx y hy'
  have hkeeps := hlinks _ (List.getElem_mem hx') _ (List.getElem_mem hy')
  rw [hfirst, hfirst', hsecond, hsecond'] at hkeeps
  exact hkeeps hlinked hlt

/-- Matching tokens are the same tokens by the other numbers of their terminals. -/
theorem eq_map_of_matches {r : Renumbering} {arena arena' : Arena} (hkeyed : arena'.Keyed)
    (hget : ∀ i, arena'.get? (r.terminal i) = arena.get? i) {tokens tokens' : List Token}
    (h : Forall₂ (Token.Matches arena arena') tokens tokens') : tokens' = tokens.map (r.token id) := by
  induction h with
  | nil => rfl
  | @cons t t' ts ts' ht _ ih =>
      rw [List.map_cons, ih]
      refine congrArg (· :: _) ?_
      obtain ⟨x, hx, hx'⟩ := ht.terminal
      have hlt := (List.getElem?_eq_some_iff.1 hx').1
      have hterminal : t'.terminal = r.terminal t.terminal :=
        (List.getElem?_inj hlt hkeyed.among.nodup).1 (hx'.trans ((hget _).trans hx).symm)
      obtain ⟨terminal, text, value, position⟩ := t'
      obtain rfl := ht.text
      obtain rfl := ht.value
      obtain rfl := ht.position
      obtain rfl := hterminal
      rfl

/-- Declarations in another order make the same language, if types of which one takes over operators of
the other keep their order. -/
theorem sameLanguage_of_perm {declared declared' : List NodeType} {config : Config}
    (hbuilt : ∀ t ∈ declared, t.Built) (hperm : declared'.Perm declared)
    (hlinks : ∀ lowered lowered', lower declared = .ok lowered → lower declared' = .ok lowered' →
      lowered.KeepsLinks lowered') : SameLanguage declared declared' config := by
  have hlowers : ∀ {types l}, assemble types config = .ok l → ∃ lowered, lower types = .ok lowered :=
    fun hl => by
      obtain ⟨lowered, hlower, -⟩ := assemble_eq_ok hl
      exact ⟨lowered, hlower⟩
  cases hlower : lower declared with
  | error err =>
      -- Neither list is lowered, so there are no languages to compare.
      have hfails : ∀ l, assemble declared config ≠ .ok l := fun l hl => by
        obtain ⟨lowered, h⟩ := hlowers hl
        rw [hlower] at h
        exact absurd h (by simp)
      have hfails' : ∀ l', assemble declared' config ≠ .ok l' := fun l' hl' => by
        obtain ⟨lowered', hlower'⟩ := hlowers hl'
        obtain ⟨lowered, h⟩ := lower_ok_of_perm hperm.symm hlower'
        rw [hlower] at h
        exact absurd h (by simp)
      exact ⟨⟨fun ⟨l, hl⟩ => absurd hl (hfails l), fun ⟨l', hl'⟩ => absurd hl' (hfails' l')⟩,
        fun l _ hl => absurd hl (hfails l), fun l _ hl => absurd hl (hfails l)⟩
  | ok lowered =>
      obtain ⟨lowered', hlower'⟩ := lower_ok_of_perm hperm hlower
      obtain ⟨r, hr, hkind, htypes⟩ := exists_renumbers_of_perm hperm hlower hlower'
      have horder := keepsOrder_of_keepsLinks hbuilt hlower hlower'
        (hlinks lowered lowered' hlower hlower') htypes
      refine ⟨assemble_ok_iff_of_renumbers hbuilt hlower hr horder hlower', fun l l' hl hl' => ?_,
        fun l l' hl hl' tokens tokens' htokens v => ?_⟩
      · rw [arena_of_assemble hlower hl, arena_of_assemble hlower' hl']
        exact hr.terminals_perm (keyed_of_lower hlower) (keyed_of_lower hlower')
      · -- No kind of node gets another name, so values are the same and not only renamed.
        rw [arena_of_assemble hlower hl, arena_of_assemble hlower' hl'] at htokens
        have hparse := parseTokens_iff_of_renumbers hbuilt hlower hr horder hlower' hl hl' tokens v
        have hid : Value.rename r.kind = id := by
          rw [hkind]
          exact funext Value.rename_id
        rw [eq_map_of_matches (keyed_of_lower hlower') hr.get? htokens, hparse, hid]
        rfl

/-- An operator type: two operands of a type that it replaces, with a sign between them. -/
def layerOperator (name operand sign : String) : NodeType :=
  ((NodeType.named name).generates
    [.field "left" (.node operand) none, .literal sign, .field "right" (.node operand) none]
    ⟨.left, 10⟩).replaces operand Prec.default

/-- Two layers of types with operators: a sum is an expression, so expressions hand on to the operators on
sums. -/
def layers : List NodeType :=
  [(NodeType.named "Sum").replaces "Expr" Prec.default, (NodeType.named "Expr").start]

/-- What sums and expressions are made of. -/
def layerMembers : List NodeType :=
  [((NodeType.named "Name").generates [.field "name" (.literal "x") none] Prec.default).replaces "Sum"
      Prec.default,
    layerOperator "Add" "Sum" "+", layerOperator "Seq" "Expr" ";"]

theorem layers_built : ∀ t ∈ layers ++ layerMembers, t.Built := by
  have hoperator : ∀ name operand sign, (layerOperator name operand sign).Built :=
    fun name operand sign => ((NodeType.Built.named name).generates _ _).replaces operand _
  intro t ht
  simp only [layers, layerMembers, List.cons_append, List.nil_append, List.mem_cons, List.not_mem_nil,
    or_false] at ht
  rcases ht with rfl | rfl | rfl | rfl | rfl
  · exact (NodeType.Built.named _).replaces _ _
  · exact (NodeType.Built.named _).start
  · exact ((NodeType.Built.named _).generates _ _).replaces _ _
  · exact hoperator _ _ _
  · exact hoperator _ _ _

/-- A token for the literal of that number. -/
def layerToken (terminal : Nat) (text : String) : Token := ⟨terminal, text, .token text, .outside⟩

/-- The tokens of `x + x ; x` by the given numbers of the terminals. -/
def layerRow (x plus semicolon : Nat) : List Token :=
  [layerToken x "x", layerToken plus "+", layerToken x "x", layerToken semicolon ";", layerToken x "x"]

/-- The value of `layerRow`. -/
def layerValue : Value :=
  let name : Value := .node "Name" [("name", .token "x")]
  .node "Seq" [("left", .node "Add" [("left", name), ("right", name)]), ("right", name)]

/-- The rows match in languages with these terminals. -/
theorem matches_layerRow {arena arena' : Arena} {x plus semicolon x' plus' semicolon' : Nat}
    (hx : arena.get? x = some (.literal "x") ∧ arena'.get? x' = some (.literal "x"))
    (hplus : arena.get? plus = some (.literal "+") ∧ arena'.get? plus' = some (.literal "+"))
    (hsemicolon : arena.get? semicolon = some (.literal ";") ∧
      arena'.get? semicolon' = some (.literal ";")) :
    Forall₂ (Token.Matches arena arena') (layerRow x plus semicolon) (layerRow x' plus' semicolon') := by
  have htoken : ∀ {i i' : Nat} {text : String},
      arena.get? i = some (.literal text) ∧ arena'.get? i' = some (.literal text) →
        Token.Matches arena arena' (layerToken i text) (layerToken i' text) :=
    fun h => ⟨⟨_, h.1, h.2⟩, rfl, rfl, rfl⟩
  exact .cons (htoken hx) (.cons (htoken hplus) (.cons (htoken hx)
    (.cons (htoken hsemicolon) (.cons (htoken hx) .nil))))

set_option maxRecDepth 20000 in
theorem assemble_layers : ∃ l, assemble (layers ++ layerMembers) .quiet = .ok l ∧
    l.arena = ⟨[.literal "x", .literal "+", .literal ";"]⟩ ∧
      l.parseTokens (layerRow 0 1 2) = .ok layerValue := by
  have hcheck : (assemble (layers ++ layerMembers) .quiet).toOption.any (fun l =>
      decide (l.arena = ⟨[.literal "x", .literal "+", .literal ";"]⟩) &&
        (l.parseTokens (layerRow 0 1 2)).toOption == some layerValue) = true := by
    cbv
  obtain ⟨l, hl, hcheck⟩ := exists_of_any_assemble hcheck
  rw [Bool.and_eq_true, decide_eq_true_eq] at hcheck
  exact ⟨l, hl, hcheck.1, Except.eq_ok_of_beq hcheck.2⟩

set_option maxRecDepth 20000 in
/-- With the members first, and these in the opposite order, terminals have other numbers, but sums are
still arranged in levels before expressions are. -/
theorem sameLanguage_of_perm_layers :
    ∃ l l', assemble (layers ++ layerMembers) .quiet = .ok l ∧
      assemble (layerMembers.reverse ++ layers) .quiet = .ok l' ∧
      l.parseTokens (layerRow 0 1 2) = .ok layerValue ∧
      l'.parseTokens (layerRow 2 1 0) = .ok layerValue := by
  have hlower : (lower (layers ++ layerMembers)).toOption.any (fun lowered =>
      (lower (layerMembers.reverse ++ layers)).toOption.any fun lowered' =>
        decide (lowered.KeepsLinks lowered') &&
          decide (lowered'.grammar.arena = ⟨[.literal ";", .literal "+", .literal "x"]⟩)) = true := by
    cbv
  obtain ⟨lowered, hlowered, hlower'⟩ := Except.exists_of_any hlower
  obtain ⟨lowered', hlowered', hcheck⟩ := Except.exists_of_any hlower'
  rw [Bool.and_eq_true, decide_eq_true_eq, decide_eq_true_eq] at hcheck
  obtain ⟨hlinks, harena'⟩ := hcheck
  have hperm : (layerMembers.reverse ++ layers).Perm (layers ++ layerMembers) :=
    List.perm_append_comm.trans ((List.reverse_perm _).append_left layers)
  have hsame : SameLanguage (layers ++ layerMembers) (layerMembers.reverse ++ layers) .quiet := by
    refine sameLanguage_of_perm layers_built hperm fun x x' hx hx' => ?_
    obtain rfl := Except.ok.inj (hlowered.symm.trans hx)
    obtain rfl := Except.ok.inj (hlowered'.symm.trans hx')
    exact hlinks
  obtain ⟨l, hl, harena, hvalue⟩ := assemble_layers
  obtain ⟨l', hl'⟩ := hsame.assemble_iff.1 ⟨l, hl⟩
  have hmatches : Forall₂ (Token.Matches l.arena l'.arena) (layerRow 0 1 2) (layerRow 2 1 0) := by
    rw [arena_of_assemble hlowered' hl', harena, harena']
    exact matches_layerRow ⟨rfl, rfl⟩ ⟨rfl, rfl⟩ ⟨rfl, rfl⟩
  exact ⟨l, l', hl, hl', hvalue, (hsame.parseTokens_iff l l' hl hl' _ _ hmatches _).1 hvalue⟩

set_option maxRecDepth 20000 in
/-- With expressions before sums, the atoms of expressions take over the operators on sums as they were
declared. An `x` alone is an atom of a higher priority, so `x + x` is not an expression any more. -/
theorem not_sameLanguage_of_perm :
    (∀ t ∈ layers ++ layerMembers, t.Built) ∧
      (layers.reverse ++ layerMembers).Perm (layers ++ layerMembers) ∧
      ¬ SameLanguage (layers ++ layerMembers) (layers.reverse ++ layerMembers) .quiet := by
  have hcheck : (assemble (layers.reverse ++ layerMembers) .quiet).toOption.any (fun l =>
      decide (l.arena = ⟨[.literal "x", .literal "+", .literal ";"]⟩) &&
        !(l.parseTokens (layerRow 0 1 2)).toOption.isSome) = true := by
    cbv
  refine ⟨layers_built, (List.reverse_perm layers).append_right _, fun hsame => ?_⟩
  obtain ⟨l, hl, harena, hvalue⟩ := assemble_layers
  obtain ⟨l', hl', hcheck⟩ := exists_of_any_assemble hcheck
  rw [Bool.and_eq_true, decide_eq_true_eq] at hcheck
  obtain ⟨harena', hrejects⟩ := hcheck
  have hmatches : Forall₂ (Token.Matches l.arena l'.arena) (layerRow 0 1 2) (layerRow 0 1 2) := by
    rw [harena, harena']
    exact matches_layerRow ⟨rfl, rfl⟩ ⟨rfl, rfl⟩ ⟨rfl, rfl⟩
  have hvalue' := (hsame.parseTokens_iff l l' hl hl' _ _ hmatches _).1 hvalue
  simp [hvalue', Except.toOption] at hrejects

end Language

end SmallLang
