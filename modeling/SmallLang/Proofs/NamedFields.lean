import SmallLang.Proofs.FieldTypes
import SmallLang.Proofs.Operator.Checked
import SmallLang.Proofs.Parsing.Alike
import SmallLang.Proofs.Renumbering.Language

/-!
# Fields are bound by name

A body names its fields in any order, and the nodes of a type list theirs in the order of its first
body. Lowering remembers the place of each field in each body, and stratification moves what stands in
these places: it hands the first operand of an operator to the level around it, limits the last one,
and adds a tail.

The places stay right (`Language.fields_bound_of_parse`). Every value that is parsed is found by the
checked fold, so no construction misses a child or takes one twice, and no default is used. Each step of
the fold follows a rule of a type: its operands were parsed for the elements of the body, one for each,
and an operator finds the value before it in the place of its first element. A node within the value is
built by such a step, and under the name of a field it holds the operand that stands where the body
declares the field.
-/

set_option autoImplicit false

namespace SmallLang

open List (Forall₂)

/-! ## What a rule takes -/

/-- The place of a field is the only one where the body declares it. -/
theorem findIdx_field_eq {body : List Element} {name : String} {target : Sym} {default : Option Value}
    {i : Nat} (hnodup : ((body.filterMap Element.field?).map FieldDecl.name).Nodup)
    (hi : body[i]? = some (.sym (.field name target default))) :
    body.findIdx (fun e => (e.field?.map FieldDecl.name) == some name) = i := by
  induction body generalizing i with
  | nil => simp at hi
  | cons e body ih =>
      rw [List.findIdx_cons]
      cases i with
      | zero =>
          obtain rfl := Option.some.inj hi
          simp [Element.field?]
      | succ i =>
          have hmem : ⟨name, default⟩ ∈ body.filterMap Element.field? :=
            List.mem_filterMap.2 ⟨_, List.mem_of_getElem? hi, rfl⟩
          have hne : e.field?.map FieldDecl.name ≠ some name := by
            intro hname
            obtain ⟨f, hf, rfl⟩ := Option.map_eq_some_iff.1 hname
            rw [List.filterMap_cons_some hf, List.map_cons, List.nodup_cons] at hnodup
            exact hnodup.1 (List.mem_map.2 ⟨_, hmem, rfl⟩)
          have hnodup' : ((body.filterMap Element.field?).map FieldDecl.name).Nodup := by
            refine hnodup.sublist (List.Sublist.map _ ?_)
            exact List.Sublist.filterMap _ (List.sublist_cons_self e body)
          rw [beq_false_of_ne hne, cond_false, ih hnodup' hi]

/-- Fields of different names have different places. -/
theorem NodeType.nodup_fieldPlaces {t : NodeType} (h : t.checkFields = .ok ()) {r : Rule}
    (hr : r ∈ t.buildingRules) : (t.fieldNames.map r.fieldPlace).Nodup := by
  obtain ⟨hnodup, hperm⟩ := t.perm_fieldNames h hr
  refine (hperm.nodup_iff.2 hnodup).map_on fun name hname name' hname' heq => ?_
  obtain ⟨target, default, hmem⟩ := t.exists_field h hr hname
  obtain ⟨target', default', hmem'⟩ := t.exists_field h hr hname'
  have hget := Rule.getElem?_fieldPlace hnodup hmem
  rw [heq, Rule.getElem?_fieldPlace hnodup hmem'] at hget
  exact (Sym.field.inj (Element.sym.inj (Option.some.inj hget))).1.symm

theorem Rule.lt_of_mem_thisPlaces {r : Rule} {i : Nat} (h : i ∈ r.thisPlaces) : i < r.body.length := by
  obtain ⟨⟨e, j⟩, hmem, hj⟩ := List.mem_filterMap.1 h
  simp only [Option.ite_none_right_eq_some, Option.some.injEq] at hj
  obtain ⟨-, rfl⟩ := hj
  exact (List.mem_zipIdx' hmem).1

namespace Construction

variable {vs : List Value}

theorem exists_applyTaken_node (kind : String) {slots : List Slot}
    (hnodup : (slots.map Slot.child).Nodup) (hlt : ∀ i ∈ slots.map Slot.child, i < vs.length) :
    ∃ v, (node kind slots).applyTaken vs = some v := by
  have htaken : ∀ is : List Nat, (∀ i ∈ is, i < vs.length) →
      ∃ ws, Forall₂ (fun i w => vs[i]? = some w) is ws := by
    intro is his
    induction is with
    | nil => exact ⟨[], .nil⟩
    | cons i is ih =>
        obtain ⟨hi, his⟩ := List.forall_mem_cons.1 his
        obtain ⟨ws, hws⟩ := ih his
        exact ⟨vs[i] :: ws, .cons (List.getElem?_eq_getElem hi) hws⟩
  obtain ⟨ws, hws⟩ := htaken _ hlt
  exact ⟨_, applyTaken_eq_some_iff.2 ⟨ws, hnodup, hws, rfl⟩⟩

theorem exists_applyTaken_child {i : Nat} (hlt : i < vs.length) :
    ∃ v, (child i).applyTaken vs = some v := by
  refine ⟨vs[i], applyTaken_eq_some_iff.2 ⟨[vs[i]], List.nodup_singleton i, ?_, rfl⟩⟩
  exact .cons (List.getElem?_eq_getElem hlt) .nil

end Construction

/-- From operands for the elements of its body a rule takes only what is there, each child once. The
rest of a list has to be a list. -/
theorem NodeType.exists_applyTaken {t : NodeType} (hchecked : t.checkFields = .ok ()) {r : Rule}
    (hr : r ∈ t.rules) (hbuilt : r.Built) {c : Construction} (hc : t.construction r = .ok c)
    {vs : List Value} (hvs : Forall₂ (fun e v => e = .rest → ∃ items, v = .list items) r.body vs) :
    ∃ v, c.applyTaken vs = some v := by
  have hlength := hvs.length_eq
  cases hbuilt with
  | construct body prec =>
      -- The fields of the type are those of the body, so that each has one place in it.
      have hbuilds : (⟨.this, body.map .sym, .construct, prec⟩ : Rule) ∈ t.buildingRules :=
        List.mem_filter.2 ⟨hr, rfl⟩
      have hplaces := t.nodup_fieldPlaces hchecked hbuilds
      rw [fieldNames, List.map_map] at hplaces
      obtain rfl := Except.ok.inj hc
      apply Construction.exists_applyTaken_node
      · rw [List.map_map]
        exact hplaces
      · intro i hi
        obtain ⟨slot, hslot, rfl⟩ := List.mem_map.1 hi
        obtain ⟨f, hf, rfl⟩ := List.mem_map.1 hslot
        rw [← hlength]
        exact t.fieldPlace_lt hchecked hbuilds hf
  | handOn target prec =>
      obtain rfl := Except.ok.inj hc
      exact Construction.exists_applyTaken_child (by rw [← hlength]; exact Nat.zero_lt_one)
  | skip body prec =>
      simp only [construction] at hc
      split at hc
      · rename_i i hplaces
        obtain rfl := Except.ok.inj hc
        apply Construction.exists_applyTaken_child
        rw [← hlength]
        exact Rule.lt_of_mem_thisPlaces (hplaces ▸ List.mem_singleton_self i)
      · simp at hc
  | listHead element =>
      obtain rfl := Except.ok.inj hc
      obtain ⟨v, w, rfl, -, hw⟩ := forall₂_pair hvs
      obtain ⟨items, rfl⟩ := hw rfl
      exact ⟨_, rfl⟩
  | listNext divider element =>
      obtain rfl := Except.ok.inj hc
      cases hvs with
      | @cons _ d _ _ _ hvs =>
          obtain ⟨v, w, rfl, -, hw⟩ := forall₂_pair hvs
          obtain ⟨items, rfl⟩ := hw rfl
          exact ⟨_, rfl⟩
  | _ =>
      obtain rfl := Except.ok.inj hc
      exact ⟨_, rfl⟩

/-! ## Steps of rules -/

/-- The fields of the node are those of the type, in the order of its first body. Each has the value of
the operand in whose place the rule declares it. -/
structure Rule.Binds (r : Rule) (t : NodeType) (operands : List (Symbol × Value))
    (fields : List (String × Value)) : Prop where
  names : fields.map Prod.fst = t.fieldNames
  nodup : t.fieldNames.Nodup
  value : ∀ (i : Nat) (name : String) (target : Sym) (default : Option Value),
    r.body[i]? = some (.sym (.field name target default)) →
      ∃ o, operands[i]? = some o ∧ fields.lookup name = some o.2

/-- The step is one of the rule. Its operands were parsed for the elements of the body, one for each,
and it takes only what is there. -/
structure FoldStep.Follows (b : FoldStep) (ns : Naming) (g : Grammar) (t : NodeType) (r : Rule) :
    Prop where
  construction : t.construction r = .ok b.construction
  operands : Forall₂ (fun e o =>
    ∃ s, ns.elementSymbol? g.arena t.name e = some s ∧ g.ParsedFor s o.1) r.body b.operands
  result : b.construction.applyTaken (b.operands.map Prod.snd) = some b.result

section

variable {ns : Naming} {declared : List NodeType} {lowered : Lowered}
  (h : ns.Makes declared lowered)
include h

/-- What fits the symbols of a production fits the body that it was made from. -/
theorem Naming.Makes.exists_rule {m : Nat} {q : Production}
    (hq : q ∈ lowered.grammar.productionsOf m) {operands : List (Symbol × Value)}
    (hfits : Forall₂ (lowered.grammar.Fits ns.types.length) q.symbols operands) :
    ∃ t ∈ ns.types, ∃ r ∈ t.rules, t.construction r = .ok q.construction ∧
      Forall₂ (fun e o => ∃ s, ns.elementSymbol? lowered.grammar.arena t.name e = some s ∧
        lowered.grammar.Fits ns.types.length s o) r.body operands := by
  obtain ⟨t, ht, r, hr, hproduction⟩ := (h.mem_productionsOf_iff m q).1 hq
  obtain ⟨-, hsymbols, hc, -⟩ := production?_eq_some_iff.1 hproduction
  refine ⟨t, ht, r, hr, hc, ?_⟩
  clear hproduction
  generalize r.body = body at hsymbols
  generalize q.symbols = symbols at hsymbols hfits
  induction hsymbols generalizing operands with
  | nil =>
      cases hfits
      exact .nil
  | cons hs _ ih =>
      cases hfits with
      | cons ho hfits => exact .cons ⟨_, hs, ho⟩ (ih hfits)

/-- The productions of node types find all that they take. -/
theorem Naming.Makes.takesAll (hbuilt : ∀ t ∈ ns.types, t.Built) :
    lowered.grammar.TakesAll ns.types.length := by
  intro m q hq operands hfits
  obtain ⟨t, ht, r, hr, hc, hmatch⟩ := h.exists_rule hq hfits
  refine t.exists_applyTaken (h.checkFields t ht) hr ((hbuilt t ht).rules r hr) hc ?_
  rw [List.forall₂_map_right_iff]
  refine hmatch.imp ?_
  rintro e o ⟨s, hs, -, hrest⟩ rfl
  exact hrest _ (length_types_le_restNumber ns t.name) (Option.some.inj hs).symm

/-- A justified step follows a rule. -/
theorem Naming.Makes.exists_follows {b : FoldStep}
    (hb : lowered.grammar.Justifies ns.types.length b) :
    ∃ t ∈ ns.types, ∃ r ∈ t.rules, b.Follows ns lowered.grammar t r := by
  obtain ⟨m, q, hq, hconstruction, hfits, hresult⟩ := hb
  obtain ⟨t, ht, r, hr, hc, hmatch⟩ := h.exists_rule hq hfits
  rw [← hconstruction] at hc
  exact ⟨t, ht, r, hr, hc, hmatch.imp fun e o ⟨s, hs, ho, _⟩ => ⟨s, hs, ho⟩, hresult⟩

end

/-- Only a rule that builds nodes of its type has a node as its construction. -/
theorem NodeType.construction_eq_node {t : NodeType} {r : Rule} {kind : String} {slots : List Slot}
    (hc : t.construction r = .ok (.node kind slots)) :
    r.template = .construct ∧ t.name = kind ∧
      slots = t.fields.map fun f => ⟨f.name, r.fieldPlace f.name, f.default⟩ := by
  cases htemplate : r.template with
  | construct =>
      simp only [construction, htemplate, Except.ok.injEq, Construction.node.injEq] at hc
      exact ⟨rfl, hc.1, hc.2.symm⟩
  | skip =>
      simp only [construction, htemplate] at hc
      split at hc <;> simp at hc
  | _ => simp [construction, htemplate] at hc

/-- A step that builds a node binds its fields. -/
theorem FoldStep.Follows.binds {b : FoldStep} {ns : Naming} {g : Grammar} {t : NodeType} {r : Rule}
    (h : b.Follows ns g t r) (hr : r ∈ t.rules) (hchecked : t.checkFields = .ok ()) {kind : String}
    {fields : List (String × Value)} (hb : b.Builds kind fields) :
    t.name = kind ∧ r ∈ t.buildingRules ∧ r.Binds t b.operands fields := by
  obtain ⟨⟨slots, hslots⟩, hnode⟩ := hb
  have hc := h.construction
  have hresult := Construction.apply_of_applyTaken h.result
  obtain ⟨kind', hslots⟩ : ∃ kind', b.construction = .node kind' slots := ⟨_, hslots⟩
  rw [hslots] at hc hresult
  obtain ⟨htemplate, hname, rfl⟩ := t.construction_eq_node hc
  rw [hnode, Construction.apply, Value.node.injEq, List.map_map] at hresult
  obtain ⟨rfl, rfl⟩ := hresult
  have hbuilds : r ∈ t.buildingRules := List.mem_filter.2 ⟨hr, by rw [htemplate]; rfl⟩
  obtain ⟨hnodup, hperm⟩ := t.perm_fieldNames hchecked hbuilds
  refine ⟨hname, hbuilds, ?_, hperm.nodup_iff.2 hnodup, ?_⟩
  · rw [List.map_map]
    rfl
  · intro i name target default hi
    obtain ⟨o, ho, -⟩ := exists_getElem?_of_forall₂ h.operands hi
    have hplace : r.fieldPlace name = i := findIdx_field_eq hnodup hi
    refine ⟨o, ho, lookup_map_fields (t.mem_fieldNames hchecked hbuilds (List.mem_of_getElem? hi)) ?_⟩
    rintro d - rfl
    show ((b.operands.map Prod.snd)[r.fieldPlace d.name]?.or d.default).getD .empty = o.2
    rw [hplace, List.getElem?_map, ho]
    rfl

namespace Language

variable {declared : List NodeType} {config : Config} {l : Language}

/-- Fields are bound by name and never made up for. The value of a text is found by the checked fold of
its tree, each step of which follows a rule of a type. Every node within the value is built by such a
step: it has the fields of its type, in the order of the first body, and each holds the operand that
stands where the body of the step declares it. -/
theorem fields_bound_of_parse (hbuilt : ∀ t ∈ declared, t.Built)
    (hassemble : assemble declared config = .ok l) {text : String} {v : Value}
    (hparse : l.parse text = .ok v) :
    ∃ lowered upgrades tree steps, lower declared = .ok lowered ∧
      Upgrades.ofTypes declared = .ok upgrades ∧ l.parseTree text = .ok tree ∧
      (tree.run l.grammar).value = some (v, steps) ∧
      (∀ b ∈ steps, ∃ t ∈ l.types, ∃ r ∈ t.rules,
        b.Follows ⟨upgrades, l.types⟩ lowered.grammar t r) ∧
      ∀ kind fields, Value.Within (.node kind fields) v → ∃ b ∈ steps, b.result = .node kind fields ∧
        ∃ t ∈ l.types, t.name = kind ∧ ∃ r ∈ t.buildingRules,
          b.Follows ⟨upgrades, l.types⟩ lowered.grammar t r ∧ r.Binds t b.operands fields := by
  obtain ⟨lowered, hlower, htypes, -, hcompiled⟩ := assemble_eq_ok hassemble
  obtain ⟨ns, hmakes⟩ := lower_eq_ok hlower
  have hsettled : ∀ t ∈ ns.types, t.Built := fun t ht =>
    hbuilt t (Upgrades.mem_of_settle hmakes.ofTypes hmakes.settle t ht)
  have hstaged := Grammar.staged_of_lowered hmakes hsettled
  have hgrammar : l.grammar = lowered.grammar.stratify := (Compiled.ofGrammar_eq_ok hcompiled).1
  obtain ⟨tokens, htokens, hvalue⟩ := Except.bind_eq_ok_iff.1 hparse
  obtain ⟨tree, htree, rfl⟩ := parseTokens_eq_ok.1 hvalue
  have hparsed : l.parseTree text = .ok tree := Except.bind_eq_ok_iff.2 ⟨tokens, htokens, htree⟩
  -- The tree is parsed for the start, and its tokens come from the text.
  obtain ⟨hderives, htree⟩ := Parser.derives_of_parse (fits_of_assemble hassemble) htree
  have hscalar : ∀ token ∈ tree.tokens, token.value.IsScalar := by
    rw [htree]
    exact Scanner.isScalar_of_scanFrom htokens
  have hstart : lowered.grammar.ParsedFor (.nonTerminal lowered.grammar.start)
      (.nonTerminal l.grammar.start) := by
    rw [hgrammar, Grammar.stratify_start]
    exact .self (Nat.lt_of_lt_of_le hmakes.start_lt hmakes.length_types_le)
  rw [hgrammar] at hderives hstart ⊢
  obtain ⟨steps, hrun, haccounts⟩ :=
    (hstaged.exists_run (hmakes.takesAll hsettled) hderives hscalar).1 _ hstart
  rw [htypes, hmakes.types]
  have hfollows : ∀ b ∈ steps, ∃ t ∈ ns.types, ∃ r ∈ t.rules, b.Follows ns lowered.grammar t r :=
    fun b hb => hmakes.exists_follows (haccounts.justified b hb)
  refine ⟨lowered, ns.upgrades, tree, steps, hlower, hmakes.ofTypes, hparsed, hrun, hfollows, ?_⟩
  intro kind fields hwithin
  -- Tokens have no nodes, so each node of the value was built by a step.
  have hbuilds := haccounts.nodes (fun kind fields => ∃ b ∈ steps, b.Builds kind fields)
    (fun w hw => absurd hw List.not_mem_nil) (fun b hb kind fields hbuilds => ⟨b, hb, hbuilds⟩)
    _ (List.mem_singleton_self _)
  obtain ⟨b, hb, hbuilds⟩ := hbuilds kind fields hwithin
  obtain ⟨t, ht, r, hr, hfollows⟩ := hfollows b hb
  obtain ⟨hname, hr, hbinds⟩ := hfollows.binds hr (hmakes.checkFields t ht) hbuilds
  exact ⟨b, hb, hbuilds.2, t, ht, hname, r, hr, hfollows, hbinds⟩

/-- Sums with two bodies, which name the fields in different orders. -/
def additionTypes : List NodeType :=
  let summand (name : String) : Sym := .field name (.node "Expr") (some .empty)
  [(NodeType.named "Expr").start,
    (((NodeType.named "Name").generates [.field "name" (.literal "x") none] Prec.default).generates
      [.field "name" (.literal "y") none] Prec.default).replaces "Expr" Prec.default,
    (((NodeType.named "Sum").generates [summand "left", .literal "+", summand "right"]
      ⟨.left, 10⟩).generates [.literal "add", summand "right", .literal "to", summand "left"]
      ⟨.none, 200⟩).replaces "Expr" Prec.default]

/-- What `add x to y + x` yields. -/
def additionValue : Value :=
  let name (text : String) : Value := .node "Name" [("name", .token text)]
  .node "Sum" [("left", .node "Sum" [("left", name "y"), ("right", name "x")]), ("right", name "x")]

set_option maxRecDepth 8000 in
theorem fields_bound_of_parse_of_additionTypes :
    ∃ l tree steps, assemble additionTypes .quiet = .ok l ∧
      l.parse "add x to y + x" = .ok additionValue ∧ l.parseTree "add x to y + x" = .ok tree ∧
      (tree.run l.grammar).value = some (additionValue, steps) ∧
      ∀ kind fields, Value.Within (.node kind fields) additionValue →
        ∃ b ∈ steps, b.result = .node kind fields ∧ ∃ t ∈ l.types, t.name = kind ∧
          ∃ r ∈ t.buildingRules, r.Binds t b.operands fields := by
  have hcheck : (assemble additionTypes .quiet).toOption.any (fun l =>
      (l.parse "add x to y + x").toOption == some additionValue) = true := by
    cbv
  have hbuilt : ∀ t ∈ additionTypes, t.Built := by
    intro t ht
    simp only [additionTypes, List.mem_cons, List.not_mem_nil, or_false] at ht
    rcases ht with rfl | rfl | rfl
    · exact (NodeType.Built.named _).start
    all_goals exact (((NodeType.Built.named _).generates _ _).generates _ _).replaces _ _
  obtain ⟨l, hl, hcheck⟩ := exists_of_any_assemble hcheck
  have hparse := Except.eq_ok_of_beq hcheck
  obtain ⟨lowered, upgrades, tree, steps, -, -, htree, hrun, -, hnodes⟩ :=
    fields_bound_of_parse hbuilt hl hparse
  refine ⟨l, tree, steps, hl, hparse, htree, hrun, fun kind fields hwithin => ?_⟩
  obtain ⟨b, hb, hresult, t, ht, hname, r, hr, -, hbinds⟩ := hnodes kind fields hwithin
  exact ⟨b, hb, hresult, t, ht, hname, r, hr, hbinds⟩

end Language

end SmallLang
