import Mathlib.Logic.Relation
import SmallLang.Proofs.Assembly.Succeeds
import SmallLang.Proofs.Kinds
import SmallLang.Proofs.Renaming.Lowering

/-!
# Upgrades as a substitution

Upgrades can be carried out before lowering. `Upgrades.substitute` replaces every declaration by the
type at the end of its chain of upgrades, drops repetitions, and mentions types by the names at the end
of their chains; what is left upgrades nothing. It is lowered to the same grammar
(`lower_eq_lower_substitute`). So an upgraded type is gone: no node is of its kind, and no non-terminal
of a type has its name. The rest of a list has a name of its own, which may well be upgraded
(`lower_restTypes`).
-/

set_option autoImplicit false

namespace SmallLang

open List (Forall₂)
open Relation (ReflTransGen)

namespace Upgrades

/-! ## Chains of upgrades -/

/-- Some declaration upgrades the name. -/
def Upgraded (declared : List NodeType) (name : String) : Prop :=
  ∃ t ∈ declared, name ∈ t.upgraded

/-- One step of a chain of upgrades: the first declaration that upgrades the name of the type. -/
def Next (declared : List NodeType) (t s : NodeType) : Prop :=
  firstUpgrade? declared t.name = some s

/-- The chain of upgrades from the first type ends with the second one. -/
def ChainEnds (declared : List NodeType) (t last : NodeType) : Prop :=
  ReflTransGen (Next declared) t last ∧ ¬ Upgraded declared last.name

theorem firstUpgrade?_eq_none_iff {declared : List NodeType} {name : String} :
    firstUpgrade? declared name = none ↔ ¬ Upgraded declared name := by
  rw [firstUpgrade?, List.find?_eq_none]
  constructor
  · rintro h ⟨t, ht, hname⟩
    exact h t ht (by simpa using hname)
  · intro h t ht hname
    exact h ⟨t, ht, by simpa using hname⟩

/-- Following the table of some declarations ends where the chain does. -/
theorem final?_eq_some_iff_chainEnds {declared : List NodeType} {u : Upgrades}
    (hu : ofTypes declared = .ok u) {t last : NodeType} :
    u.final? t = some last ↔ ChainEnds declared t last := by
  constructor
  · intro h
    obtain ⟨n, hn⟩ := final?_eq_some_iff.1 h
    refine ⟨?_, ?_⟩
    · clear h
      induction n generalizing t with
      | zero => simp [follow] at hn
      | succ n ih =>
          cases hlookup : u.lookup t.name with
          | none =>
              rw [follow_succ_of_lookup_eq_none hlookup] at hn
              rw [Option.some.inj hn]
          | some next =>
              rw [follow_succ_of_lookup_eq_some hlookup] at hn
              rw [lookup_ofTypes hu] at hlookup
              exact .head hlookup (ih hn)
    · rw [← firstUpgrade?_eq_none_iff, ← lookup_ofTypes hu]
      exact lookup_of_follow hn
  · rintro ⟨hpath, hlast⟩
    induction hpath using ReflTransGen.head_induction_on with
    | refl =>
        rw [← firstUpgrade?_eq_none_iff, ← lookup_ofTypes hu] at hlast
        exact final?_of_lookup_eq_none hlast
    | head hstep _ ih =>
        rw [Next, ← lookup_ofTypes hu] at hstep
        rw [final?_of_lookup_eq_some hstep, ih]

/-! ## The types without upgrades -/

/-- The name at the end of the chain from a name. -/
def lastName (u : Upgrades) (name : String) : String :=
  ((u.final? (.named name)).map NodeType.name).getD name

/-- The types at the ends of the chains, each once. They mention types by the names at the ends of
their chains, and upgrade nothing. -/
def substitute (u : Upgrades) (types : List NodeType) : List NodeType :=
  (types.filterMap u.final?).eraseDups.map fun t =>
    { t with rules := t.rules.map (Rule.rename u.lastName), upgraded := [] }

theorem upgraded_of_mem_substitute {u : Upgrades} {types : List NodeType} {t : NodeType}
    (ht : t ∈ u.substitute types) : t.upgraded = [] := by
  obtain ⟨s, -, rfl⟩ := List.mem_map.1 ht
  rfl

/-- The settled types are those at the ends of the chains, in the order in which they first occur. -/
theorem eq_eraseDups_of_settle {u : Upgrades} {types settled : List NodeType}
    (h : u.settle types = .ok settled) : settled = (types.filterMap u.final?).eraseDups := by
  rw [settle_eq_foldlM] at h
  induction types using List.reverseRecOn generalizing settled with
  | nil => exact (Except.ok.inj h).symm
  | append_singleton types t ih =>
      rw [List.foldlM_append] at h
      obtain ⟨done, hdone, h⟩ := Except.bind_eq_ok_iff.1 h
      obtain ⟨next, hnext, h⟩ := Except.bind_eq_ok_iff.1 h
      obtain rfl := Except.ok.inj h
      obtain ⟨last, hlast, hadmit⟩ := Except.bind_eq_ok_iff.1 hnext
      rw [resolve_eq_ok_iff] at hlast
      rw [List.filterMap_append, List.filterMap_cons_some hlast, List.filterMap_nil,
        List.eraseDups_append, ← ih hdone]
      have hmem : last ∈ types.filterMap u.final? ↔ last ∈ done := by
        rw [ih hdone, List.mem_eraseDups]
      generalize types.filterMap u.final? = ends at hmem
      rcases admitType_eq_ok hadmit with ⟨rfl, hnew⟩ | ⟨rfl, hold⟩
      · have hnot : last ∉ ends := fun hold => hnew last (hmem.1 hold) rfl
        simp [List.removeAll, hnot, List.eraseDups_cons]
      · simp [List.removeAll, hmem.2 hold]

/-- The settled types under the names at the ends of their chains, without upgrades. -/
theorem renames_substitute {u : Upgrades} {types settled : List NodeType}
    (h : u.settle types = .ok settled) :
    Naming.Renames u.lastName id ⟨u, settled⟩ ⟨[], u.substitute types⟩ := by
  have hnumber : ∀ name final i, u.finalName? name = some final →
      Naming.typeNumber? ⟨u, settled⟩ name = some i →
      Naming.typeNumber? ⟨[], u.substitute types⟩ final = some i := by
    intro name final i hfinal hi
    rw [Naming.typeNumber?, hfinal] at hi
    rw [Naming.typeNumber?_of_upgrades_nil, substitute, ← eq_eraseDups_of_settle h,
      List.findIdx?_map]
    exact hi
  refine ⟨?_, Function.injective_id, fun name i hi => ?_, fun t ht i hi => ?_⟩
  · rw [substitute, ← eq_eraseDups_of_settle h, List.forall₂_map_right_iff, List.forall₂_same]
    exact fun t _ => ⟨rfl, rfl, rfl, rfl, rfl⟩
  · obtain ⟨final, hfinal, -⟩ := Option.bind_eq_some_iff.1 hi
    refine hnumber name _ i ?_ hi
    rw [lastName, ← finalName?_eq, hfinal]
    rfl
  · obtain ⟨s, -, hs⟩ := final?_of_settle h t ht
    refine hnumber t.name t.name i ?_ hi
    rw [finalName?, lookup_of_follow hs]

end Upgrades

/-! ## Lowering after the substitution -/

/-- After the substitution the settled types become the same grammar. -/
theorem lowerSettled_substitute {u : Upgrades} {types settled : List NodeType} {lowered : Lowered}
    (hsettle : u.settle types = .ok settled) (hlowered : lowerSettled u settled = .ok lowered) :
    lowerSettled [] (u.substitute types) =
      .ok ⟨lowered.grammar, u.substitute types, lowered.start⟩ := by
  obtain ⟨nts, hlowered', hnts⟩ :=
    lowerSettled_of_renames (Upgrades.renames_substitute hsettle) hlowered
  -- The names are the same, and so are the kinds of nodes.
  have hsame : lowered.grammar.nonTerminals = nts := by
    rw [← List.forall₂_eq_eq_eq]
    refine hnts.imp fun nt nt' hnt => ?_
    obtain ⟨⟨t, ht, suffix, hsuffix, hname, hname'⟩, hproductions⟩ := hnt
    obtain ⟨name, productions⟩ := nt
    obtain ⟨name', productions'⟩ := nt'
    obtain rfl : name = name' := hname.trans hname'.symm
    simp only [funext Production.rename_id, List.map_id'] at hproductions
    rw [hproductions]
  rw [hlowered', ← hsame]
  rfl

/-- Non-terminals are named after types, or after types and their lists. -/
theorem exists_of_mem_nonTerminals {u : Upgrades} {types : List NodeType} {lowered : Lowered}
    (hlowered : lowerSettled u types = .ok lowered) {nt : NonTerminal}
    (hnt : nt ∈ lowered.grammar.nonTerminals) :
    ∃ t ∈ types, nt.name = t.name ∨ nt.name = t.name ++ "@rest" := by
  obtain ⟨start, -, hlowered⟩ := Except.bind_eq_ok_iff.1 hlowered
  obtain ⟨⟨productions, arena⟩, -, hlowered⟩ := Except.bind_eq_ok_iff.1 hlowered
  obtain rfl := Except.ok.inj hlowered
  obtain ⟨⟨name, i⟩, hname, rfl⟩ := List.mem_map.1 hnt
  have hmem : name ∈ Naming.nonTerminalNames ⟨u, types⟩ := List.fst_mem_of_mem_zipIdx hname
  rw [Naming.nonTerminalNames_eq] at hmem
  obtain ⟨o, ho, hsame⟩ := List.mem_map.1 hmem
  obtain ⟨t, ht, howner, hsuffix⟩ := Naming.exists_of_mem_owners ho
  refine ⟨t, ht, ?_⟩
  show name = t.name ∨ name = t.name ++ "@rest"
  rw [← howner, ← hsame]
  rcases hsuffix with hsuffix | hsuffix
  · exact Or.inl (by rw [hsuffix, String.append_empty])
  · exact Or.inr (by rw [hsuffix])

/-- Nothing upgrades a settled type. -/
theorem Upgrades.not_upgraded_of_settle {declared settled : List NodeType} {u : Upgrades}
    (hu : Upgrades.ofTypes declared = .ok u) (hsettle : u.settle declared = .ok settled)
    {t : NodeType} (ht : t ∈ settled) : ¬ Upgrades.Upgraded declared t.name := by
  obtain ⟨s, -, hs⟩ := Upgrades.final?_of_settle hsettle t ht
  exact ((Upgrades.final?_eq_some_iff_chainEnds hu).1 hs).2

/-- The nodes that a parse yields are of types that nothing upgrades, or come with the tokens. -/
theorem Language.not_upgraded_of_parseTokens {declared : List NodeType} {config : Config}
    {l : Language} (hbuilt : ∀ t ∈ declared, t.Built) (hassemble : assemble declared config = .ok l)
    {tokens : List Token} {v : Value} (hparse : l.parseTokens tokens = .ok v) :
    v.AllNodes fun kind fields => ¬ Upgrades.Upgraded declared kind ∨
      ∃ token ∈ tokens, Value.Within (.node kind fields) token.value := by
  obtain ⟨u, hu, hsettle⟩ := upgrades_of_assemble hassemble
  refine allNodes_of_parseTokens hbuilt hassemble ?_ hparse ?_
  · intro t ht fields
    exact Or.inl (Upgrades.not_upgraded_of_settle hu hsettle ht)
  · intro token htoken kind fields hwithin
    exact Or.inr ⟨token, htoken, hwithin⟩

/-- Lowering carries out upgrades as a substitution: the declarations without upgrades, each replaced by
the end of its chain and with mentions of the ends of chains, become the same grammar. Every
non-terminal is named after a type that nothing upgrades, or after such a type and its list. No node
that a text yields is of an upgraded kind, and none that a row of tokens yields, unless a token brought
it along. -/
theorem lower_eq_lower_substitute {declared : List NodeType} {lowered : Lowered}
    (hbuilt : ∀ t ∈ declared, t.Built) (hlower : lower declared = .ok lowered) :
    ∃ u, Upgrades.ofTypes declared = .ok u ∧
      (∀ t last, u.final? t = some last ↔ Upgrades.ChainEnds declared t last) ∧
      (∀ t ∈ u.substitute declared, t.upgraded = []) ∧
      lower (u.substitute declared) =
        .ok ⟨lowered.grammar, u.substitute declared, lowered.start⟩ ∧
      (∀ nt ∈ lowered.grammar.nonTerminals, ∃ t ∈ lowered.types,
        ¬ Upgrades.Upgraded declared t.name ∧ (nt.name = t.name ∨ nt.name = t.name ++ "@rest")) ∧
      ∀ config l, Language.assemble declared config = .ok l →
        (∀ text v, l.parse text = .ok v →
          v.AllNodes fun kind _ => ¬ Upgrades.Upgraded declared kind) ∧
        ∀ tokens v, l.parseTokens tokens = .ok v →
          v.AllNodes fun kind fields => ¬ Upgrades.Upgraded declared kind ∨
            ∃ token ∈ tokens, Value.Within (.node kind fields) token.value := by
  obtain ⟨ns, hmakes⟩ := lower_eq_ok hlower
  have hsettled : lowerSettled ns.upgrades ns.types = .ok lowered := by
    rw [lower_eq_bind, hmakes.ofTypes] at hlower
    change ns.upgrades.settle declared >>= lowerSettled ns.upgrades = .ok lowered at hlower
    rwa [hmakes.settle] at hlower
  have hupgraded : ∀ t ∈ ns.upgrades.substitute declared, t.upgraded = [] := fun t ht =>
    Upgrades.upgraded_of_mem_substitute ht
  have hnodup : ((ns.upgrades.substitute declared).map NodeType.name).Nodup := by
    rw [NodeType.map_name_of_renamed (Upgrades.renames_substitute hmakes.settle).types, List.map_id]
    exact Upgrades.nodup_names_of_settle hmakes.settle
  refine ⟨ns.upgrades, hmakes.ofTypes, ?_, hupgraded, ?_, ?_, ?_⟩
  · intro t last
    exact Upgrades.final?_eq_some_iff_chainEnds hmakes.ofTypes
  · rw [lower_eq_bind]
    refine Except.bind_eq_ok_iff.2 ⟨[], Upgrades.ofTypes_eq_nil hupgraded, ?_⟩
    refine Except.bind_eq_ok_iff.2 ⟨_, Upgrades.settle_nil_eq_ok hnodup, ?_⟩
    exact lowerSettled_substitute hmakes.settle hsettled
  · intro nt hnt
    obtain ⟨t, ht, hname⟩ := exists_of_mem_nonTerminals hsettled hnt
    refine ⟨t, hmakes.types ▸ ht, ?_, hname⟩
    exact Upgrades.not_upgraded_of_settle hmakes.ofTypes hmakes.settle ht
  · intro config l hassemble
    refine ⟨fun text v hparse => ?_, fun tokens v hparse => ?_⟩
    · obtain ⟨tokens, hscan, hparse⟩ := Except.bind_eq_ok_iff.1 hparse
      intro kind fields hwithin
      have hnode := Language.not_upgraded_of_parseTokens hbuilt hassemble hparse kind fields hwithin
      refine hnode.resolve_right ?_
      rintro ⟨token, htoken, hnode⟩
      -- A token of a text holds no node.
      have hscalar := Scanner.isScalar_of_scanFrom hscan token htoken
      exact Value.allNodes_of_isScalar (N := fun _ _ => False) hscalar kind fields hnode
    · exact Language.not_upgraded_of_parseTokens hbuilt hassemble hparse

/-- A program that mentions a type which is upgraded in two steps, and one which is upgraded without
being declared. -/
def aliasTypes : List NodeType :=
  [((NodeType.named "Program").generates
      [.field "ident" (.node "Identifier") none, .literal "=", .field "value" (.node "Name") none]
      Prec.default).start,
    (NodeType.named "Identifier").generates [.field "name" (.literal "x") none] Prec.default,
    Language.standIn "DerefIdentifier" "Identifier",
    (Language.standIn "CheckedIdentifier" "DerefIdentifier").upgrades "Name"]

/-- The types of `aliasTypes` after their upgrades. -/
def plainTypes : List NodeType :=
  [((NodeType.named "Program").generates
      [.field "ident" (.node "CheckedIdentifier") none, .literal "=",
        .field "value" (.node "CheckedIdentifier") none] Prec.default).start,
    (NodeType.named "CheckedIdentifier").generates [.field "name" (.literal "x") none] Prec.default]

theorem lower_eq_lower_substitute_of_aliasTypes :
    ∃ lowered u, lower aliasTypes = .ok lowered ∧ Upgrades.ofTypes aliasTypes = .ok u ∧
      u.substitute aliasTypes = plainTypes ∧
      lower plainTypes = .ok ⟨lowered.grammar, plainTypes, lowered.start⟩ := by
  have hbuilt : ∀ t ∈ aliasTypes, t.Built := by
    intro t ht
    simp only [aliasTypes, Language.standIn, List.mem_cons, List.not_mem_nil, or_false] at ht
    rcases ht with rfl | rfl | rfl | rfl
    · exact ((NodeType.Built.named _).generates _ _).start
    · exact (NodeType.Built.named _).generates _ _
    · exact ((NodeType.Built.named _).generates _ _).upgrades _
    · exact (((NodeType.Built.named _).generates _ _).upgrades _).upgrades _
  have hplain : (Upgrades.ofTypes aliasTypes).toOption.map (·.substitute aliasTypes) =
      some plainTypes := by
    decide +kernel
  cases hlower : lower aliasTypes with
  | error err =>
      have hsome : (lower aliasTypes).toOption.isSome = true := by decide +kernel
      exact absurd hsome (by simp [hlower, Except.toOption])
  | ok lowered =>
      obtain ⟨u, hu, -, -, hlower', -, -⟩ := lower_eq_lower_substitute hbuilt hlower
      have hsubstitute : u.substitute aliasTypes = plainTypes := by
        simpa [hu, Except.toOption] using hplain
      rw [hsubstitute] at hlower'
      exact ⟨lowered, u, rfl, hu, hsubstitute, hlower'⟩

/-- A list that upgrades a type of the name that the rest of the list gets. -/
def restTypes : List NodeType :=
  [((NodeType.named "List").makeList (.literal "x") "," false).start.upgrades "List@rest"]

/-- A token of `restTypes` that was not read from a text, with a node as its value. -/
def restToken : Token := ⟨0, "x", .node "List@rest" [], .outside⟩

/-- The name of an upgraded type may be that of a non-terminal all the same, and a token that was not
read from a text may bring a node of this kind along. -/
theorem lower_restTypes :
    (∀ t ∈ restTypes, t.Built) ∧
      (∃ lowered, lower restTypes = .ok lowered ∧
        ∃ nt ∈ lowered.grammar.nonTerminals, Upgrades.Upgraded restTypes nt.name) ∧
      ∃ l v, Language.assemble restTypes .quiet = .ok l ∧ l.parseTokens [restToken] = .ok v ∧
        ¬ v.AllNodes fun kind _ => ¬ Upgrades.Upgraded restTypes kind := by
  have hupgraded : Upgrades.Upgraded restTypes "List@rest" :=
    ⟨_, List.mem_singleton.2 rfl, by decide⟩
  refine ⟨?_, ?_, ?_⟩
  · intro t ht
    obtain rfl := List.mem_singleton.1 ht
    exact ((NodeType.Built.named _).makeList _ _ _).start.upgrades _
  · have hnames : (lower restTypes).toOption.map (·.grammar.nonTerminals.map NonTerminal.name) =
        some ["List", "List@rest"] := by
      decide +kernel
    cases hlower : lower restTypes with
    | error err => exact absurd hnames (by simp [hlower, Except.toOption])
    | ok lowered =>
        have hmem : "List@rest" ∈ lowered.grammar.nonTerminals.map NonTerminal.name := by
          simp only [hlower, Except.toOption, Option.map_some, Option.some.injEq] at hnames
          rw [hnames]
          decide
        obtain ⟨nt, hnt, hname⟩ := List.mem_map.1 hmem
        exact ⟨lowered, rfl, nt, hnt, hname ▸ hupgraded⟩
  · have hcheck : (Language.assemble restTypes .quiet).toOption.any (fun l =>
        (l.parseTokens [restToken]).toOption == some (.list [restToken.value])) = true := by
      cbv
    obtain ⟨l, hl, hparse⟩ := Language.exists_of_any_assemble hcheck
    refine ⟨l, _, hl, Except.eq_ok_of_beq hparse, fun hnodes => ?_⟩
    have hwithin : Value.Within (.node "List@rest" []) (.list [restToken.value]) :=
      .item (List.mem_singleton.2 rfl) (.self _)
    exact hnodes _ _ hwithin hupgraded

end SmallLang
