import SmallLang.Proofs.Renumbering.Naming
import SmallLang.Proofs.Reordering.Settle

/-!
# Lowering in another order

Declarations in another order get other numbers: types are numbered in the order in which they are
settled, the rests of lists after them in the same order, and terminals as lowering meets them. Names lead
to the types that they led to (`Naming.Reorders`), and the rules of each type become the same productions
by these numbers. So declarations are lowered in every order or in none (`lower_ok_of_perm`), to the same
grammar by other numbers (`exists_renumbers_of_perm`).
-/

set_option autoImplicit false

namespace SmallLang

open Equiv (Perm)

/-- A member that is known by a key of its own is found in another order too. -/
theorem findIdx?_of_perm {α : Type} {xs ys : List α} {σ : Perm Nat} (hσ : ∀ i, ys[σ i]? = xs[i]?)
    (key : α → String) (hnodup : (xs.map key).Nodup) (k : String) :
    ys.findIdx? (key · == k) = (xs.findIdx? (key · == k)).map σ := by
  cases hfind : xs.findIdx? (key · == k) with
  | none =>
      rw [Option.map_none, List.findIdx?_eq_none_iff]
      intro y hy
      obtain ⟨j, hj⟩ := List.mem_iff_getElem?.1 hy
      obtain ⟨i, rfl⟩ := σ.surjective j
      rw [hσ] at hj
      exact List.findIdx?_eq_none_iff.1 hfind y (List.mem_of_getElem? hj)
  | some i =>
      obtain ⟨hi, hkey, -⟩ := List.findIdx?_eq_some_iff_getElem.1 hfind
      have hlt := (perm_lt_length_iff hσ i).2 hi
      have hget : ys[σ i] = xs[i] := by
        have hsome := hσ i
        rwa [List.getElem?_eq_getElem hlt, List.getElem?_eq_getElem hi, Option.some.injEq] at hsome
      rw [Option.map_some, List.findIdx?_eq_some_iff_getElem]
      refine ⟨hlt, hget ▸ hkey, fun j hj hkey' => ?_⟩
      -- Another member with this key would be the same one.
      obtain ⟨l, rfl⟩ := σ.surjective j
      have hl := hσ l
      rw [List.getElem?_eq_getElem (Nat.lt_trans hj hlt)] at hl
      have hkeys : (xs.map key)[l]? = (xs.map key)[i]? := by
        rw [List.getElem?_map, List.getElem?_map, ← hl, List.getElem?_eq_getElem hi, Option.map_some,
          Option.map_some, eq_of_beq hkey, eq_of_beq hkey']
      have hl' : l < (xs.map key).length := by
        rw [List.length_map]
        exact (List.getElem?_eq_some_iff.1 hl.symm).1
      rw [(List.getElem?_inj hl' hnodup).1 hkeys] at hj
      exact Nat.lt_irrefl _ hj

theorem findIdx_of_perm {xs ys : List String} {σ : Perm Nat} (hσ : ∀ i, ys[σ i]? = xs[i]?)
    (hnodup : xs.Nodup) {k : String} (hk : k ∈ xs) :
    ys.findIdx (· == k) = σ (xs.findIdx (· == k)) := by
  have hfind := findIdx?_of_perm hσ id (by rwa [List.map_id]) k
  have hsome : xs.findIdx? (id · == k) = some (xs.findIdx (· == k)) :=
    List.findIdx?_eq_some_of_exists ⟨k, hk, beq_self_eq_true k⟩
  rw [hsome] at hfind
  exact (List.findIdx?_eq_some_iff_findIdx_eq.1 hfind).2

/-- What belongs to a number belongs to its other number. -/
theorem filter_number_of_perm {α β : Type} {σ : Perm Nat} {f : α → β} {xs : List (Nat × α)}
    {ys : List (Nat × β)} (h : ys.Perm (xs.map fun x => (σ x.1, f x.2))) (i : Nat) :
    ((ys.filter (·.1 == σ i)).map Prod.snd).Perm (((xs.filter (·.1 == i)).map Prod.snd).map f) := by
  rw [← filter_number_map]
  exact (h.filter _).map _

/-- Terminals are found in another order too. -/
theorem Arena.indexOf?_of_perm {a a' : Arena} (ha : a.Keyed) (ha' : a'.Keyed) {τ : Perm Nat}
    (hτ : ∀ i, a'.get? (τ i) = a.get? i) {t : Terminal} (ht : t ∈ a.terminals) {i : Nat}
    (hi : a.indexOf? t = some i) : a'.indexOf? t = some (τ i) := by
  rw [ha.among.indexOf?_eq_some_iff ha.consistent ht, ← hτ] at hi
  rw [ha'.among.indexOf?_eq_some_iff ha'.consistent (List.mem_of_getElem? hi)]
  exact hi

namespace Naming

/-- The second naming has the types of the first one by other numbers, and names lead to the same types. -/
structure Reorders (σ : Perm Nat) (ns ns' : Naming) : Prop where
  types : ns'.types.Perm ns.types
  getElem? : ∀ i < ns.types.length, ns'.types[σ i]? = ns.types[i]?
  typeNumber? : ∀ name, ns'.typeNumber? name = (ns.typeNumber? name).map σ
  restNumber : ∀ owner ∈ ns.listTypes, ns'.restNumber owner = σ (ns.restNumber owner)
  length_eq : ns'.nonTerminalNames.length = ns.nonTerminalNames.length
  lt_length_iff : ∀ i, σ i < ns.nonTerminalNames.length ↔ i < ns.nonTerminalNames.length

variable {ns ns' : Naming}

/-- Types in another order get other numbers. -/
theorem exists_reorders (hnodup : (ns.types.map NodeType.name).Nodup)
    (htypes : ns'.types.Perm ns.types)
    (hfinal : ∀ name, ns'.upgrades.finalName? name = ns.upgrades.finalName? name) :
    ∃ σ : Perm Nat, Reorders σ ns ns' := by
  have hlists : ns'.listTypes.Perm ns.listTypes := (htypes.filter _).map _
  obtain ⟨σ, hσ⟩ := exists_perm_getElem? htypes
  obtain ⟨τ, hτ⟩ := exists_perm_getElem? hlists
  have hbelow : ∀ i, σ i < ns.types.length ↔ i < ns.types.length := fun i => by
    have hlt := perm_lt_length_iff hσ i
    rwa [htypes.length_eq] at hlt
  have habove : ∀ i, τ i < ns.listTypes.length ↔ i < ns.listTypes.length := fun i => by
    have hlt := perm_lt_length_iff hτ i
    rwa [hlists.length_eq] at hlt
  have hlistNodup : ns.listTypes.Nodup := hnodup.sublist (List.filter_sublist.map _)
  -- Types change places with types, and rests of lists with rests of lists.
  refine ⟨permSplit ns.types.length σ τ hbelow, htypes, fun i hi => ?_, fun name => ?_,
    fun owner howner => ?_, ?_, fun i => ?_⟩
  · rw [permSplit_of_lt hbelow hi, hσ]
  · rw [typeNumber?, typeNumber?, hfinal]
    cases hname : ns.upgrades.finalName? name with
    | none => rfl
    | some final =>
        rw [Option.bind_some, Option.bind_some, findIdx?_of_perm hσ NodeType.name hnodup]
        cases hfind : ns.types.findIdx? (·.name == final) with
        | none => rfl
        | some i =>
            obtain ⟨hi, -⟩ := List.findIdx?_eq_some_iff_getElem.1 hfind
            rw [Option.map_some, Option.map_some, permSplit_of_lt hbelow hi]
  · rw [Naming.restNumber, Naming.restNumber, permSplit_add, findIdx_of_perm hτ hlistNodup howner,
      htypes.length_eq]
  · rw [length_nonTerminalNames, length_nonTerminalNames, htypes.length_eq, hlists.length_eq]
  · rw [length_nonTerminalNames]
    exact permSplit_lt_add_iff hbelow habove i

theorem Reorders.carries {σ : Perm Nat} (h : Reorders σ ns ns') : Carries σ ns ns' :=
  ⟨fun name i hi => by rw [h.typeNumber?, hi, Option.map_some], h.restNumber⟩

/-! ## Grammars -/

section Grammars

variable {declared declared' : List NodeType} {lowered lowered' : Lowered}

/-- The other order of the declarations reorders their types. -/
theorem Makes.exists_reorders (hperm : declared'.Perm declared) (hmakes : ns.Makes declared lowered)
    (hofTypes : Upgrades.ofTypes declared' = .ok ns'.upgrades)
    (hsettle : ns'.upgrades.settle declared' = .ok ns'.types) :
    ∃ σ : Perm Nat, Reorders σ ns ns' := by
  obtain ⟨settled', hsettle', htypes⟩ :=
    Upgrades.exists_settle_of_perm hperm hmakes.ofTypes hofTypes hmakes.settle
  obtain rfl := Except.ok.inj (hsettle.symm.trans hsettle')
  exact Naming.exists_reorders (Upgrades.nodup_names_of_settle hmakes.settle) htypes
    (Upgrades.finalName?_of_perm hperm hmakes.ofTypes hofTypes)

variable {σ : Perm Nat} (h : Reorders σ ns ns') {arena arena' : Arena}
  {productions productions' : List (Nat × Production)}
  (hrun : ns.lowerAll.run Arena.empty = .ok (productions, arena))
include h hrun

/-- Lowering succeeds in another order, and meets no other terminals. -/
theorem Reorders.exists_run : ∃ productions' arena',
    ns'.lowerAll.run Arena.empty = .ok (productions', arena') ∧
      ∀ t ∈ arena'.terminals, t ∈ arena.terminals := by
  -- The terminals that were met are a pool in which the other run succeeds too.
  obtain ⟨hkeyed, hlowers⟩ := lowers_of_lowerAll hrun
  obtain ⟨hfields, -, -⟩ := ns.lowerAll_eq_ok hrun
  have hfields' : ∀ t ∈ ns'.types, t.checkFields = .ok () := fun t ht =>
    hfields t (h.types.mem_iff.1 ht)
  obtain ⟨productions', arena', hrun', harena'⟩ := lowerAll_succeeds hkeyed.consistent hfields'
    fun t ht rule hrule =>
      h.carries.lowers (fun _ => id) (hlowers t (h.types.mem_iff.1 ht) rule hrule)
  exact ⟨productions', arena', hrun', harena'.mem⟩

variable (hrun' : ns'.lowerAll.run Arena.empty = .ok (productions', arena'))
include hrun'

/-- Both orders meet the same terminals. -/
theorem Reorders.terminals_perm (h' : ∃ τ : Perm Nat, Reorders τ ns' ns) :
    arena'.terminals.Perm arena.terminals := by
  -- Each run meets only terminals of the other one, and none of them twice.
  obtain ⟨hkeyed, -⟩ := lowers_of_lowerAll hrun
  obtain ⟨hkeyed', -⟩ := lowers_of_lowerAll hrun'
  obtain ⟨τ, hτ⟩ := h'
  obtain ⟨_, b, hb, hsub⟩ := h.exists_run hrun
  obtain ⟨-, rfl⟩ := Prod.mk.inj (Except.ok.inj (hrun'.symm.trans hb))
  obtain ⟨_, b', hb', hsub'⟩ := hτ.exists_run hrun'
  obtain ⟨-, rfl⟩ := Prod.mk.inj (Except.ok.inj (hrun.symm.trans hb'))
  exact (List.perm_ext_iff_of_nodup hkeyed'.among.nodup hkeyed.among.nodup).2
    fun t => ⟨hsub t, hsub' t⟩

/-- The productions of all rules by their other numbers, in some order. -/
theorem Reorders.ruleProductions_perm {τ : Perm Nat} (hτ : ∀ i, arena'.get? (τ i) = arena.get? i) :
    (ns'.ruleProductions arena').Perm ((ns.ruleProductions arena).map fun x =>
      (σ x.1, Renumbering.production ⟨σ, τ, Equiv.refl String⟩ x.2)) := by
  obtain ⟨hkeyed, -⟩ := lowers_of_lowerAll hrun
  obtain ⟨hkeyed', -⟩ := lowers_of_lowerAll hrun'
  rw [← h.carries.ruleProductions (fun t ht i => Arena.indexOf?_of_perm hkeyed hkeyed' hτ ht) hrun]
  exact h.types.flatMap_right _

end Grammars

end Naming

/-! ## Declarations in another order -/

section Declarations

variable {declared declared' : List NodeType} (hperm : declared'.Perm declared) {lowered : Lowered}
  (hlower : lower declared = .ok lowered)
include hperm hlower

/-- Declarations are lowered in every order or in none. -/
theorem lower_ok_of_perm : ∃ lowered', lower declared' = .ok lowered' := by
  obtain ⟨ns, hmakes⟩ := lower_eq_ok hlower
  obtain ⟨productions, hrun⟩ := hmakes.exists_run hlower
  obtain ⟨u', hu'⟩ := Upgrades.exists_ofTypes_of_perm hperm hmakes.ofTypes
  obtain ⟨settled', hsettle', htypes⟩ :=
    Upgrades.exists_settle_of_perm hperm hmakes.ofTypes hu' hmakes.settle
  obtain ⟨σ, hσ⟩ : ∃ σ, Naming.Reorders σ ns ⟨u', settled'⟩ :=
    hmakes.exists_reorders hperm hu' hsettle'
  obtain ⟨productions', arena', hrun', -⟩ := hσ.exists_run hrun
  have hstart := uniqueStart_of_perm htypes hmakes.uniqueStart
  exact ⟨_, Except.bind_eq_ok_iff.2 ⟨u', hu', Except.bind_eq_ok_iff.2 ⟨settled', hsettle',
    Except.bind_eq_ok_iff.2 ⟨lowered.start, hstart,
      Except.bind_eq_ok_iff.2 ⟨(productions', arena'), hrun', rfl⟩⟩⟩⟩⟩

/-- Another order of the declarations gives the same grammar by other numbers. Types have the numbers
under which they are settled. -/
theorem exists_renumbers_of_perm {lowered' : Lowered} (hlower' : lower declared' = .ok lowered') :
    ∃ r, Grammar.Renumbers r lowered.grammar lowered'.grammar ∧ r.kind = Equiv.refl String ∧
      ∀ i < lowered.types.length, lowered'.types[r.nonTerminal i]? = lowered.types[i]? := by
  obtain ⟨ns, hmakes⟩ := lower_eq_ok hlower
  obtain ⟨ns', hmakes'⟩ := lower_eq_ok hlower'
  obtain ⟨productions, hrun⟩ := hmakes.exists_run hlower
  obtain ⟨productions', hrun'⟩ := hmakes'.exists_run hlower'
  obtain ⟨σ, h⟩ := hmakes.exists_reorders hperm hmakes'.ofTypes hmakes'.settle
  have hterminals := h.terminals_perm hrun hrun'
    (hmakes'.exists_reorders hperm.symm hmakes.ofTypes hmakes.settle)
  obtain ⟨τ, hτ⟩ := exists_perm_getElem? hterminals
  refine ⟨⟨σ, τ, Equiv.refl String⟩,
    ⟨?_, fun i => ?_, ?_, hterminals.length_eq, hτ, fun i => ?_⟩, rfl, ?_⟩
  · rw [hmakes.size, hmakes'.size, h.length_eq]
  · rw [hmakes.size]
    exact h.lt_length_iff i
  · -- Both grammars start with the type of one name.
    have hname : lowered'.start = lowered.start := Except.ok.inj
      (hmakes'.uniqueStart.symm.trans (uniqueStart_of_perm h.types hmakes.uniqueStart))
    have hstart := h.carries.typeNumber? _ _ hmakes.typeNumber?_start
    rw [← hname, hmakes'.typeNumber?_start] at hstart
    exact Option.some.inj hstart
  · rw [hmakes.productionsOf_eq, hmakes'.productionsOf_eq]
    exact filter_number_of_perm (h.ruleProductions_perm hrun hrun' hτ) i
  · rw [hmakes.types, hmakes'.types]
    exact h.getElem?

end Declarations

end SmallLang
