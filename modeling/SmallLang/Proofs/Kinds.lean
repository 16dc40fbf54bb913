import SmallLang.Proofs.Assembly.Extend
import SmallLang.Proofs.Assembly.Fields
import SmallLang.Proofs.Language
import SmallLang.Proofs.Nodes
import SmallLang.Proofs.Operator.Values

/-!
# The nodes that a parse yields

What the declared productions hand on holds of the value of every accepted row of tokens
(`Language.holds_of_parseTokens`). So the nodes of the value are of the types of the language, or come
with the tokens (`Language.allNodes_of_parseTokens`).
-/

set_option autoImplicit false

namespace SmallLang

/-- A rule that becomes a production builds only nodes of the property from children that have only
such nodes, if all nodes of its type have it. Each field is one of the children. -/
theorem Naming.Makes.allNodes_apply {N : String → List (String × Value) → Prop} {ns : Naming}
    {declared : List NodeType} {lowered : Lowered} (h : ns.Makes declared lowered)
    (htypes : ∀ t ∈ ns.types, ∀ fields, N t.name fields) {nt : Nat} {p : Production}
    (hp : p ∈ lowered.grammar.productionsOf nt) {vs : List Value}
    (hlength : vs.length = p.symbols.length) (hvs : ∀ v ∈ vs, v.AllNodes N) :
    (p.construction.apply vs).AllNodes N := by
  obtain ⟨t, ht, r, hr, hproduction⟩ := (h.mem_productionsOf_iff nt p).1 hp
  obtain ⟨-, hsymbols, hc, -⟩ := production?_eq_some_iff.1 hproduction
  refine NodeType.allNodes_apply hc hvs fun htemplate => ?_
  have hbuilds : r ∈ t.buildingRules := List.mem_filter.2 ⟨hr, by rw [htemplate]; rfl⟩
  refine Value.allNodes_node_iff.2 ⟨htypes t ht _, fun f hf => ?_⟩
  obtain ⟨slot, hslot, rfl⟩ := List.mem_map.1 hf
  obtain ⟨d, hd, rfl⟩ := List.mem_map.1 hslot
  have hlt : r.fieldPlace d.name < vs.length := by
    rw [hlength, ← hsymbols.length_eq]
    exact t.fieldPlace_lt (h.checkFields t ht) hbuilds hd
  show Value.AllNodes _ (Slot.value ⟨d.name, r.fieldPlace d.name, d.default⟩ vs)
  rw [Slot.value, List.getElem?_eq_getElem hlt]
  exact hvs _ (List.getElem_mem hlt)

namespace Language

/-- What the declared productions hand on holds of every value that a parse yields. -/
theorem holds_of_parseTokens {declared : List NodeType} {config : Config} {l : Language}
    {lowered : Lowered} {P : Symbol → Value → Prop} (hbuilt : ∀ t ∈ declared, t.Built)
    (hassemble : assemble declared config = .ok l) (hlower : lower declared = .ok lowered)
    (hP : lowered.grammar.HandsOn P) {tokens : List Token} {v : Value}
    (hparse : l.parseTokens tokens = .ok v)
    (htokens : ∀ token ∈ tokens, P (.terminal token.terminal) token.value) :
    P (.nonTerminal lowered.grammar.start) v := by
  obtain ⟨ns, hmakes⟩ := lower_eq_ok hlower
  obtain ⟨lowered', hlower', -, -, hcompiled⟩ := assemble_eq_ok hassemble
  obtain rfl : lowered = lowered' := Except.ok.inj (hlower.symm.trans hlower')
  have hstaged := Grammar.staged_of_lowered hmakes fun t ht =>
    hbuilt t (Upgrades.mem_of_settle hmakes.ofTypes hmakes.settle t ht)
  obtain ⟨tree, hderives, rfl, rfl⟩ := exists_tree_of_parseTokens hcompiled hparse
  have hstart : lowered.grammar.HasSymbol (.nonTerminal lowered.grammar.start) :=
    Nat.lt_of_lt_of_le hmakes.start_lt hmakes.length_types_le
  have hsame : lowered.grammar.stratify.start = lowered.grammar.start := by
    rw [Grammar.stratify_eq_stage, Grammar.stage_start]
  rw [hsame] at hderives
  exact hstaged.holds_value hP hstart hderives htokens

/-- A property of the nodes of all types of a language, and of the nodes that tokens hold, is one of all
nodes that a parse yields. -/
theorem allNodes_of_parseTokens {N : String → List (String × Value) → Prop}
    {declared : List NodeType} {config : Config} {l : Language} (hbuilt : ∀ t ∈ declared, t.Built)
    (hassemble : assemble declared config = .ok l) (htypes : ∀ t ∈ l.types, ∀ fields, N t.name fields)
    {tokens : List Token} {v : Value} (hparse : l.parseTokens tokens = .ok v)
    (htokens : ∀ token ∈ tokens, token.value.AllNodes N) : v.AllNodes N := by
  obtain ⟨lowered, hlower, htypes', -, -⟩ := assemble_eq_ok hassemble
  obtain ⟨ns, hmakes⟩ := lower_eq_ok hlower
  have hstaged := Grammar.staged_of_lowered hmakes fun t ht =>
    hbuilt t (Upgrades.mem_of_settle hmakes.ofTypes hmakes.settle t ht)
  rw [htypes', hmakes.types] at htypes
  exact holds_of_parseTokens hbuilt hassemble hlower
    (hstaged.handsOn fun m p hp vs hlength hvs => hmakes.allNodes_apply htypes hp hlength hvs)
    hparse htokens

end Language

end SmallLang
