import Mathlib.Data.List.Find
import Mathlib.Logic.Equiv.Basic
import SmallLang.Proofs.Kinds
import SmallLang.Proofs.Renaming.Lowering
import SmallLang.Proofs.Renumbering.Language

/-!
# Types that inherit what they upgrade

A type that inherits another one and upgrades it takes its place in every respect but the name. A
language with such an heir in addition accepts the same tokens, and its values are those of the language
before, in which the nodes of the one kind are nodes of the other kind (`Language.exists_assemble_heir`).
-/

set_option autoImplicit false

namespace SmallLang

open List (Forall₂)

/-- The type of the given name that inherits a type and upgrades it. -/
def NodeType.heir (t : NodeType) (name : String) : NodeType :=
  ((NodeType.named name).inherits t).upgrades t.name

/-- The name is not used by any declaration: as a name, or as the name of an upgraded type. -/
def Upgrades.Fresh (z : String) (declared : List NodeType) : Prop :=
  ∀ t ∈ declared, t.name ≠ z ∧ z ∉ t.upgraded

/-- What takes the place of a type when the heir of a type is added. -/
def NodeType.inherited (x : NodeType) (z : String) (t : NodeType) : NodeType :=
  if t.name = x.name then x.heir z else t

namespace NodeType

variable {x t : NodeType} {z : String}

theorem inherited_of_eq (h : t.name = x.name) : x.inherited z t = x.heir z := if_pos h

theorem inherited_of_ne (h : t.name ≠ x.name) : x.inherited z t = t := if_neg h

/-- The new name takes the place of the old one. -/
theorem name_inherited (h : t.name ≠ z) : (x.inherited z t).name = Equiv.swap x.name z t.name := by
  by_cases hx : t.name = x.name
  · rw [inherited_of_eq hx, hx, Equiv.swap_apply_left]
    rfl
  · rw [inherited_of_ne hx, Equiv.swap_apply_of_ne_of_ne hx h]

/-- The heir has the rules of the type, its start mark and its scoping. -/
theorem renamed_inherited (hname : t.name ≠ z) (hsame : t.name = x.name → t = x) :
    Renamed id (Equiv.swap x.name z) t (x.inherited z t) := by
  refine ⟨name_inherited hname, ?_, ?_, ?_, ?_⟩ <;>
    by_cases hx : t.name = x.name
  · rw [inherited_of_eq hx, hsame hx, funext Rule.rename_id, List.map_id']
    rfl
  · rw [inherited_of_ne hx, funext Rule.rename_id, List.map_id']
  · rw [inherited_of_eq hx, hsame hx]
    exact Bool.false_or x.isStart
  · rw [inherited_of_ne hx]
  · rw [inherited_of_eq hx, hsame hx]
    rfl
  · rw [inherited_of_ne hx]
  · rw [inherited_of_eq hx, hsame hx]
    rfl
  · rw [inherited_of_ne hx]

end NodeType

namespace Upgrades

variable {declared settled : List NodeType} {u : Upgrades} {x : NodeType} {z : String}

/-- The table with the heir of a type in addition. -/
def withHeir (u : Upgrades) (x : NodeType) (z : String) : Upgrades := u ++ [(x.name, x.heir z)]

theorem lookup_withHeir_of_eq_some {name : String} {t : NodeType} (h : u.lookup name = some t) :
    (u.withHeir x z).lookup name = some t := by
  rw [withHeir, List.lookup_append, h]
  rfl

theorem lookup_withHeir_of_ne {name : String} (h : name ≠ x.name) :
    (u.withHeir x z).lookup name = u.lookup name := by
  have hbeq : (name == x.name) = false := beq_eq_false_iff_ne.2 h
  simp [withHeir, List.lookup_append, List.lookup_cons, hbeq]

theorem lookup_self_withHeir (hx : u.lookup x.name = none) :
    (u.withHeir x z).lookup x.name = some (x.heir z) := by
  rw [withHeir, List.lookup_append, hx]
  simp

/-- Nothing else contradicts the upgrade of the heir. -/
theorem ofTypes_append_heir (hu : ofTypes declared = .ok u) (hx : u.lookup x.name = none) (z : String) :
    ofTypes (declared ++ [x.heir z]) = .ok (u.withHeir x z) := by
  rw [ofTypes] at hu
  rw [ofTypes, List.foldlM_append, hu]
  have hadd : add (x.heir z) u x.name = .ok (u.withHeir x z) := by
    rw [add, hx]
    rfl
  show [x.heir z].foldlM (fun u t => t.upgraded.foldlM (add t) u) u = .ok (u.withHeir x z)
  have hupgraded : (x.heir z).upgraded = [x.name] := rfl
  simp only [List.foldlM_cons, List.foldlM_nil, hupgraded, hadd]
  rfl

/-! ## Following upgrades -/

section Final

variable (hu : ofTypes declared = .ok u) (hz : Fresh z declared)
include hu hz

theorem lookup_fresh : u.lookup z = none := by
  cases hlookup : u.lookup z with
  | none => rfl
  | some t =>
      obtain ⟨ht, hmem⟩ := mem_of_lookup_ofTypes hu hlookup
      exact absurd hmem (hz t ht).2

/-- No declaration leads to the fresh name. -/
theorem name_ne_of_final? {t last : NodeType} (ht : t ∈ declared) (h : u.final? t = some last) :
    last.name ≠ z := by
  rcases mem_of_follow h with rfl | ⟨name, hname⟩
  · exact (hz last ht).1
  · exact (hz last (mem_of_lookup_ofTypes hu hname).1).1

variable (hne : x.name ≠ z)
include hne

/-- Nothing takes the place of the heir. -/
theorem final?_heir : (u.withHeir x z).final? (x.heir z) = some (x.heir z) := by
  have hlookup : (u.withHeir x z).lookup z = none := by
    rw [lookup_withHeir_of_ne hne.symm, lookup_fresh hu hz]
  exact final?_of_lookup_eq_none (t := x.heir z) hlookup

/-- What upgrades led to the type now leads to the heir. -/
theorem final?_withHeir (hx : u.lookup x.name = none) {t last : NodeType}
    (h : u.final? t = some last) :
    (u.withHeir x z).final? t = some (x.inherited z last) := by
  rw [final?_of_extends (fun _ _ => lookup_withHeir_of_eq_some) h]
  by_cases hlast : last.name = x.name
  · rw [final?_of_lookup_eq_some (hlast ▸ lookup_self_withHeir hx), NodeType.inherited_of_eq hlast]
    exact final?_heir hu hz hne
  · have hlookup : (u.withHeir x z).lookup last.name = none := by
      obtain ⟨n, hn⟩ := final?_eq_some_iff.1 h
      rw [lookup_withHeir_of_ne hlast, lookup_of_follow hn]
    rw [final?_of_lookup_eq_none hlookup, NodeType.inherited_of_ne hlast]

theorem finalName?_withHeir (hx : u.lookup x.name = none) {name final : String}
    (h : u.finalName? name = some final) (hfinal : final ≠ z) :
    (u.withHeir x z).finalName? name = some (Equiv.swap x.name z final) := by
  rw [finalName?_eq] at h ⊢
  obtain ⟨last, hlast, rfl⟩ := Option.map_eq_some_iff.1 h
  rw [final?_withHeir hu hz hne hx hlast, Option.map_some, NodeType.name_inherited hfinal]

end Final

/-! ## Settling -/

theorem admitType_inherited {done next : List NodeType} {last : NodeType}
    (hdone : ∀ t ∈ done, t.name ≠ z) (hlast : last.name ≠ z) (h : admitType done last = .ok next) :
    admitType (done.map (x.inherited z)) (x.inherited z last) =
      .ok (next.map (x.inherited z)) := by
  have hfind : (done.map (x.inherited z)).find? (·.name == (x.inherited z last).name) =
      (done.find? (·.name == last.name)).map (x.inherited z) := by
    rw [List.find?_map]
    refine congrArg _ (List.find?_congr fun t ht => ?_)
    rw [Function.comp_apply, NodeType.name_inherited (hdone t ht), NodeType.name_inherited hlast,
      Bool.eq_iff_iff, beq_iff_eq, beq_iff_eq]
    exact (Equiv.swap x.name z).injective.eq_iff
  rw [admitType] at h ⊢
  rw [hfind]
  split at h
  · rename_i hnone
    obtain rfl := Except.ok.inj h
    rw [hnone, List.map_append]
    rfl
  · rename_i known hknown
    split at h
    · rename_i hsame
      obtain rfl := Except.ok.inj h
      rw [hknown, hsame]
      exact if_pos rfl
    · exact absurd h (by simp)

theorem foldlM_settleStep_inherited (hu : ofTypes declared = .ok u) (hz : Fresh z declared)
    (hne : x.name ≠ z) (hx : u.lookup x.name = none) {ts done next : List NodeType}
    (hts : ∀ t ∈ ts, t ∈ declared) (hdone : ∀ t ∈ done, t.name ≠ z)
    (h : ts.foldlM u.settleStep done = .ok next) :
    ts.foldlM (u.withHeir x z).settleStep (done.map (x.inherited z)) =
      .ok (next.map (x.inherited z)) := by
  induction ts generalizing done with
  | nil =>
      obtain rfl := Except.ok.inj h
      rfl
  | cons t ts ih =>
      obtain ⟨ht, hts⟩ := List.forall_mem_cons.1 hts
      rw [List.foldlM_cons] at h ⊢
      obtain ⟨next', hnext, h⟩ := Except.bind_eq_ok_iff.1 h
      obtain ⟨last, hlast, hadmit⟩ := Except.bind_eq_ok_iff.1 hnext
      rw [resolve_eq_ok_iff] at hlast
      have hname := name_ne_of_final? hu hz ht hlast
      rw [settleStep_of_final?_eq_some (final?_withHeir hu hz hne hx hlast),
        admitType_inherited hdone hname hadmit]
      refine ih hts (fun s hs => ?_) h
      rcases admitType_eq_ok hadmit with ⟨rfl, -⟩ | ⟨rfl, -⟩
      · rcases List.mem_append.1 hs with hs | hs
        · exact hdone s hs
        · rw [List.mem_singleton.1 hs]
          exact hname
      · exact hdone s hs

section Settle

variable (hu : ofTypes declared = .ok u) (hsettle : u.settle declared = .ok settled)
  (hz : Fresh z declared) (hx : x ∈ settled)
include hsettle

/-- Nothing takes the place of a settled type. -/
theorem lookup_of_mem_settle {t : NodeType} (ht : t ∈ settled) : u.lookup t.name = none := by
  obtain ⟨s, -, hs⟩ := final?_of_settle hsettle t ht
  obtain ⟨n, hn⟩ := final?_eq_some_iff.1 hs
  exact lookup_of_follow hn

include hu hz

theorem name_ne_of_mem_settle {t : NodeType} (ht : t ∈ settled) : t.name ≠ z :=
  (hz t (mem_of_settle hu hsettle t ht)).1

include hx

/-- The settled types with the heir in addition: it takes the place of the type that it inherits. -/
theorem settle_append_heir : (u.withHeir x z).settle (declared ++ [x.heir z]) =
    .ok (settled.map (x.inherited z)) := by
  have hlookup := lookup_of_mem_settle hsettle hx
  have hne : x.name ≠ z := name_ne_of_mem_settle hu hsettle hz hx
  have hfold := foldlM_settleStep_inherited hu hz hne hlookup (fun t ht => ht)
    (fun t ht => absurd ht List.not_mem_nil) (settle_eq_foldlM u declared ▸ hsettle)
  rw [settle_eq_foldlM, List.foldlM_append]
  refine Except.bind_eq_ok_iff.2 ⟨_, hfold, ?_⟩
  rw [List.foldlM_cons, settleStep_of_final?_eq_some (final?_heir hu hz hne)]
  refine Except.bind_eq_ok_iff.2 ⟨_, admitType_of_mem ?_ ?_, rfl⟩
  · exact List.mem_map.2 ⟨x, hx, NodeType.inherited_of_eq rfl⟩
  · -- Different names stay different.
    have hnames : (settled.map (x.inherited z)).map NodeType.name =
        (settled.map NodeType.name).map (Equiv.swap x.name z) := by
      rw [List.map_map, List.map_map]
      exact List.map_congr_left fun t ht =>
        NodeType.name_inherited (name_ne_of_mem_settle hu hsettle hz ht)
    rw [hnames]
    exact (nodup_names_of_settle hsettle).map (Equiv.swap x.name z).injective

/-- With the heir in addition the settled types are the same under another name. -/
theorem renames_heir : Naming.Renames id (Equiv.swap x.name z) ⟨u, settled⟩
    ⟨u.withHeir x z, settled.map (x.inherited z)⟩ := by
  have hlookup := lookup_of_mem_settle hsettle hx
  have hname : ∀ t ∈ settled, t.name ≠ z := fun t ht => name_ne_of_mem_settle hu hsettle hz ht
  have hsame : ∀ t ∈ settled, t.name = x.name → t = x := fun t ht hname =>
    List.inj_on_of_nodup_map (nodup_names_of_settle hsettle) ht hx hname
  have htypes : Forall₂ (NodeType.Renamed id (Equiv.swap x.name z)) settled
      (settled.map (x.inherited z)) := by
    rw [List.forall₂_map_right_iff, List.forall₂_same]
    exact fun t ht => NodeType.renamed_inherited (hname t ht) (hsame t ht)
  have hinjective := (Equiv.swap x.name z).injective
  refine ⟨htypes, hinjective, fun name i hi => ?_, fun t ht i hi => ?_⟩
  · obtain ⟨final, hfinal, hi⟩ := Option.bind_eq_some_iff.1 hi
    -- A name with a number leads to the name of a settled type.
    have hne : final ≠ z := by
      obtain ⟨hlt, hget, -⟩ := List.findIdx?_eq_some_iff_getElem.1 hi
      rw [← beq_iff_eq.1 hget]
      exact hname _ (List.getElem_mem hlt)
    refine Option.bind_eq_some_iff.2 ⟨_, finalName?_withHeir hu hz (hname x hx) hlookup hfinal hne, ?_⟩
    rw [NodeType.findIdx?_name_of_renamed htypes hinjective]
    exact hi
  · obtain ⟨final, hfinal, hi⟩ := Option.bind_eq_some_iff.1 hi
    rw [finalName?, lookup_of_mem_settle hsettle ht] at hfinal
    obtain rfl := Option.some.inj hfinal
    refine Option.bind_eq_some_iff.2 ⟨Equiv.swap x.name z t.name, ?_, ?_⟩
    · -- Nothing takes the place of a type under its other name.
      have hlast := final?_withHeir hu hz (hname x hx) hlookup
        (final?_of_lookup_eq_none (lookup_of_mem_settle hsettle ht))
      obtain ⟨n, hn⟩ := final?_eq_some_iff.1 hlast
      have hnone := lookup_of_follow hn
      rw [NodeType.name_inherited (hname t ht)] at hnone
      rw [finalName?, hnone]
    · rw [NodeType.findIdx?_name_of_renamed htypes hinjective]
      exact hi

end Settle

end Upgrades

/-! ## Lowering -/

/-- Other kinds of nodes, and the same numbers. -/
def Renumbering.kinds (ρ : Equiv.Perm String) : Renumbering := ⟨Equiv.refl Nat, Equiv.refl Nat, ρ⟩

namespace Renumbering

variable (ρ : Equiv.Perm String)

theorem production_kinds (p : Production) : (kinds ρ).production p = p.rename ρ := by
  have hsymbol : (kinds ρ).symbol = id := by
    funext x
    cases x <;> rfl
  rw [production, hsymbol, List.map_id]
  rfl

end Renumbering

/-- A grammar under other names is the same one with other kinds of nodes. -/
theorem Grammar.renumbers_of_renamed {types : List NodeType} {ρ : Equiv.Perm String} {g : Grammar}
    {nts : List NonTerminal} (h : Forall₂ (NonTerminal.Renamed types ρ) g.nonTerminals nts) :
    Grammar.Renumbers (.kinds ρ) g ⟨nts, g.arena, g.start⟩ := by
  refine ⟨h.length_eq.symm, fun i => Iff.rfl, rfl, rfl, fun i => rfl, fun i => ?_⟩
  refine List.Perm.of_eq ?_
  rw [funext (Renumbering.production_kinds ρ)]
  show Grammar.productionsOf _ i = _
  cases hnt : g.nonTerminals[i]? with
  | none =>
      have hnt' : nts[i]? = none := by
        rw [List.getElem?_eq_none_iff, ← h.length_eq]
        exact List.getElem?_eq_none_iff.1 hnt
      rw [Grammar.productionsOf, Grammar.productionsOf, hnt, hnt']
      rfl
  | some nt =>
      obtain ⟨hi, hget⟩ := List.getElem?_eq_some_iff.1 hnt
      have hi' : i < nts.length := h.length_eq ▸ hi
      have hrenamed := (List.forall₂_iff_get.1 h).2 i hi hi'
      have hnt' : nts[i]? = some nts[i] := List.getElem?_eq_getElem hi'
      rw [Grammar.productionsOf, Grammar.productionsOf, hnt, hnt', ← hget]
      exact hrenamed.productions

/-- With the heir of a type in addition the types become the same grammar with other kinds of nodes. -/
theorem lower_append_heir {declared : List NodeType} {lowered : Lowered} {x : NodeType} {z : String}
    (hlower : lower declared = .ok lowered) (hx : x ∈ lowered.types)
    (hz : Upgrades.Fresh z declared) :
    ∃ lowered', lower (declared ++ [x.heir z]) = .ok lowered' ∧
      lowered'.types = lowered.types.map (x.inherited z) ∧
      lowered'.grammar.arena = lowered.grammar.arena ∧
      Grammar.Renumbers (.kinds (Equiv.swap x.name z)) lowered.grammar lowered'.grammar := by
  obtain ⟨ns, hmakes⟩ := lower_eq_ok hlower
  have hsettled : lowerSettled ns.upgrades ns.types = .ok lowered := by
    rw [lower_eq_bind, hmakes.ofTypes] at hlower
    change ns.upgrades.settle declared >>= lowerSettled ns.upgrades = .ok lowered at hlower
    rwa [hmakes.settle] at hlower
  rw [hmakes.types] at hx
  have hlookup := Upgrades.lookup_of_mem_settle hmakes.settle hx
  obtain ⟨nts, hlowered', hnts⟩ := lowerSettled_of_renames
    (Upgrades.renames_heir hmakes.ofTypes hmakes.settle hz hx) hsettled
  refine ⟨⟨⟨nts, lowered.grammar.arena, lowered.grammar.start⟩, ns.types.map (x.inherited z),
    Equiv.swap x.name z lowered.start⟩, ?_, ?_, rfl, Grammar.renumbers_of_renamed hnts⟩
  · rw [lower_eq_bind]
    refine Except.bind_eq_ok_iff.2 ⟨_, Upgrades.ofTypes_append_heir hmakes.ofTypes hlookup z, ?_⟩
    exact Except.bind_eq_ok_iff.2
      ⟨_, Upgrades.settle_append_heir hmakes.ofTypes hmakes.settle hz hx, hlowered'⟩
  · rw [hmakes.types]

/-! ## Languages -/

/-- The value with the nodes of the one kind made nodes of the other kind. -/
def Value.renameKind (old new : String) (v : Value) : Value :=
  v.rename fun kind => if kind = old then new else kind

/-- The token with the nodes of the one kind made nodes of the other kind in its value. -/
def Token.renameKind (old new : String) (t : Token) : Token :=
  { t with value := t.value.renameKind old new }

/-- In a value without nodes of the new kind, it is the same to exchange the kinds. -/
theorem Value.renameKind_eq_swap {old new : String} {v : Value}
    (h : v.AllNodes fun kind _ => kind ≠ new) :
    v.renameKind old new = v.rename (Equiv.swap old new) := by
  refine Value.rename_congr fun kind fields hwithin => ?_
  show (if kind = old then new else kind) = Equiv.swap old new kind
  split
  · rename_i heq
    rw [heq, Equiv.swap_apply_left]
  · rename_i hne
    rw [Equiv.swap_apply_of_ne_of_ne hne (h kind fields hwithin)]

theorem Value.renameKind_eq_self {old new : String} {v : Value}
    (h : v.AllNodes fun kind _ => kind ≠ old) : v.renameKind old new = v :=
  Value.rename_eq_self fun kind fields hwithin => if_neg (h kind fields hwithin)

namespace Language

/-- The other kinds mean for names what the kinds meant. -/
theorem scopes_swap {l l' : Language} {x : NodeType} {z : String}
    (htypes : l'.types = l.types.map (x.inherited z)) (hnames : ∀ t ∈ l.types, t.name ≠ z)
    (hsame : ∀ t ∈ l.types, t.name = x.name → t = x) (kind : String) :
    l'.scopes (Equiv.swap x.name z kind) = l.scopes kind := by
  have hfind : l'.type? (Equiv.swap x.name z kind) = (l.type? kind).map (x.inherited z) := by
    rw [type?, htypes, List.find?_map, type?]
    refine congrArg _ (List.find?_congr fun t ht => ?_)
    rw [Function.comp_apply, NodeType.name_inherited (hnames t ht), Bool.eq_iff_iff, beq_iff_eq,
      beq_iff_eq]
    exact (Equiv.swap x.name z).injective.eq_iff
  rw [scopes, scopes, hfind]
  cases ht : l.type? kind with
  | none => rfl
  | some t =>
      have hmem : t ∈ l.types := List.mem_of_find?_eq_some ht
      exact (NodeType.renamed_inherited (hnames t hmem) (hsame t hmem)).scoping

/-- The heir of a type takes its place in a language: with it in addition, the language accepts the same
tokens, and yields the same values, in which the nodes of the kind of the type are nodes of the kind of
the heir. They have the same free names. What nodes a token brings along is up to the token: one that
holds nodes of the kind of the type yields the renamed value if it is given with renamed nodes. -/
theorem exists_assemble_heir {declared : List NodeType} {config : Config} {l : Language} {x : NodeType}
    {z : String} (hbuilt : ∀ t ∈ declared, t.Built) (hassemble : assemble declared config = .ok l)
    (hx : x ∈ l.types) (hz : Upgrades.Fresh z declared) :
    ∃ l', assemble (declared ++ [x.heir z]) config = .ok l' ∧ l'.arena = l.arena ∧
      (∀ tokens, (∃ v, l.parseTokens tokens = .ok v) ↔ ∃ v, l'.parseTokens tokens = .ok v) ∧
      ∀ tokens, (∀ token ∈ tokens, token.value.AllNodes fun kind _ => kind ≠ z) →
        ∀ v, l.parseTokens tokens = .ok v →
          l'.parseTokens (tokens.map (Token.renameKind x.name z)) = .ok (v.renameKind x.name z) ∧
          (v.renameKind x.name z).freeNames l'.scopes = v.freeNames l.scopes ∧
          ((∀ token ∈ tokens, token.value.AllNodes fun kind _ => kind ≠ x.name) →
            l'.parseTokens tokens = .ok (v.renameKind x.name z)) := by
  obtain ⟨u, hu, hsettle⟩ := upgrades_of_assemble hassemble
  obtain ⟨lowered, hlower, htypes, -, -⟩ := assemble_eq_ok hassemble
  -- The heir takes the place of the type in the numbering, so only the kinds of nodes are renamed.
  obtain ⟨lowered', hlower', htypes', harena, hrenumbers⟩ :=
    lower_append_heir hlower (htypes ▸ hx) hz
  have horder : Grammar.KeepsOrder (.kinds (Equiv.swap x.name z)) lowered.grammar :=
    fun _ _ _ _ _ hlt => hlt
  obtain ⟨l', hl'⟩ : ∃ l', assemble (declared ++ [x.heir z]) config = .ok l' :=
    (assemble_ok_iff_of_renumbers hbuilt hlower hrenumbers horder hlower').1 ⟨l, hassemble⟩
  have hnames : ∀ t ∈ l.types, t.name ≠ z := fun t ht =>
    Upgrades.name_ne_of_mem_settle hu hsettle hz ht
  refine ⟨l', hl', ?_, fun tokens => ?_, fun tokens htokens v hparse => ?_⟩
  · rw [arena_of_assemble hlower hassemble, arena_of_assemble hlower' hl', harena]
  · -- The values of the tokens do not matter for this.
    have hid : tokens.map ((Renumbering.kinds (Equiv.swap x.name z)).token id) = tokens :=
      List.map_id' tokens
    have hinverse : Function.LeftInverse (id : Value → Value) id := fun _ => rfl
    have haccepts :=
      accepts_iff_of_renumbers hbuilt hlower hrenumbers horder hlower' hassemble hl' hinverse tokens
    rwa [hid] at haccepts
  -- Nothing is of the kind of the heir yet, and so renaming is the same as exchanging the two kinds.
  have hnodes : v.AllNodes fun kind _ => kind ≠ z :=
    allNodes_of_parseTokens hbuilt hassemble (fun t ht _ => hnames t ht) hparse htokens
  have hrow : tokens.map ((Renumbering.kinds (Equiv.swap x.name z)).token
      (Value.rename (Equiv.swap x.name z))) = tokens.map (Token.renameKind x.name z) := by
    refine List.map_congr_left fun token htoken => ?_
    rw [Token.renameKind, Value.renameKind_eq_swap (htokens token htoken)]
    rfl
  have hvalue : l'.parseTokens (tokens.map (Token.renameKind x.name z)) =
      .ok (v.renameKind x.name z) := by
    rw [← hrow, Value.renameKind_eq_swap hnodes]
    exact (parseTokens_iff_of_renumbers hbuilt hlower hrenumbers horder hlower' hassemble hl'
      tokens v).1 hparse
  refine ⟨hvalue, ?_, fun hkinds => ?_⟩
  · have hsame : ∀ t ∈ l.types, t.name = x.name → t = x := fun t ht hname =>
      List.inj_on_of_nodup_map (Upgrades.nodup_names_of_settle hsettle) ht hx hname
    have htypes'' : l'.types = l.types.map (x.inherited z) := by
      obtain ⟨lowered₁, hlower₁, hl'types, -, -⟩ := assemble_eq_ok hl'
      obtain rfl := Except.ok.inj (hlower'.symm.trans hlower₁)
      rw [hl'types, htypes', htypes]
    rw [Value.renameKind_eq_swap hnodes]
    exact Value.freeNames_rename fun kind _ _ => scopes_swap htypes'' hnames hsame kind
  · have hrow' : tokens.map (Token.renameKind x.name z) = tokens := by
      have htoken : ∀ token ∈ tokens, token.renameKind x.name z = token := by
        intro token htoken
        rw [Token.renameKind, Value.renameKind_eq_self (hkinds token htoken)]
      rw [List.map_congr_left htoken, List.map_id']
    rwa [hrow'] at hvalue

/-- Sums of expressions. -/
def letSum : NodeType :=
  ((NodeType.named "Sum").generates
    [.field "left" (.node "Expr") none, .literal "+", .field "right" (.node "Expr") none]
    ⟨.left, 10⟩).replaces "Expr" Prec.default

/-- Names, sums, and a name that is bound in an expression. -/
def letTypes : List NodeType :=
  [(NodeType.named "Expr").start,
    (((NodeType.named "Name").generates [.field "name" (.literal "x") none] Prec.default).refersTo
      "name").replaces "Expr" Prec.default,
    letSum,
    (((NodeType.named "Let").generates
      [.literal "let", .field "name" (.literal "x") none, .literal "in",
        .field "body" (.node "Expr") none] Prec.default).binds ["name"] ["body"]).replaces "Expr"
      Prec.default]

/-- A token of `letTypes`. -/
def letToken (terminal : Nat) (text : String) : Token := ⟨terminal, text, .token text, .outside⟩

/-- The tokens of `x + let x in x`. -/
def letRow : List Token :=
  [letToken 0 "x", letToken 1 "+", letToken 2 "let", letToken 0 "x", letToken 3 "in", letToken 0 "x"]

/-- The value of `letRow`, with sums of the given kind. -/
def letValue (kind : String) : Value :=
  let name : Value := .node "Name" [("name", .token "x")]
  .node kind [("left", name), ("right", .node "Let" [("name", .token "x"), ("body", name)])]

theorem exists_assemble_heir_of_letTypes :
    ∃ l l', assemble letTypes .quiet = .ok l ∧
      assemble (letTypes ++ [letSum.heir "Plus"]) .quiet = .ok l' ∧
      l.parseTokens letRow = .ok (letValue "Sum") ∧ l'.parseTokens letRow = .ok (letValue "Plus") ∧
      (letValue "Plus").freeNames l'.scopes = (letValue "Sum").freeNames l.scopes := by
  have hbuilt : ∀ t ∈ letTypes, t.Built := by
    intro t ht
    simp only [letTypes, List.mem_cons, List.not_mem_nil, or_false] at ht
    rcases ht with rfl | rfl | rfl | rfl
    · exact (NodeType.Built.named _).start
    · exact (((NodeType.Built.named _).generates _ _).refersTo _).replaces _ _
    · exact ((NodeType.Built.named _).generates _ _).replaces _ _
    · exact (((NodeType.Built.named _).generates _ _).binds _ _).replaces _ _
  have hcheck : (assemble letTypes .quiet).toOption.any (fun l =>
      decide (letSum ∈ l.types) &&
        (l.parseTokens letRow).toOption == some (letValue "Sum")) = true := by
    cbv
  obtain ⟨l, hl, hcheck⟩ := exists_of_any_assemble hcheck
  rw [Bool.and_eq_true, decide_eq_true_iff] at hcheck
  obtain ⟨hmem, hparse⟩ := hcheck
  have hvalue : l.parseTokens letRow = .ok (letValue "Sum") := Except.eq_ok_of_beq hparse
  have hfresh : Upgrades.Fresh "Plus" letTypes := by
    unfold Upgrades.Fresh
    decide
  have hscalar : ∀ kinds, ∀ token ∈ letRow, token.value.AllNodes kinds := by
    intro kinds token htoken
    apply Value.allNodes_of_isScalar
    simp only [letRow, List.mem_cons, List.not_mem_nil, or_false] at htoken
    rcases htoken with rfl | rfl | rfl | rfl | rfl | rfl <;> trivial
  obtain ⟨l', hl', -, -, hvalues⟩ := exists_assemble_heir hbuilt hl hmem hfresh
  obtain ⟨-, hnames, hparse'⟩ := hvalues letRow (hscalar _) _ hvalue
  have hkind : (letValue "Sum").renameKind letSum.name "Plus" = letValue "Plus" := by
    decide
  rw [hkind] at hnames hparse'
  exact ⟨l, l', hl, hl', hvalue, hparse' (hscalar _), hnames⟩

end Language

end SmallLang
