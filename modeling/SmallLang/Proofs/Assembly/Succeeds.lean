import SmallLang.Proofs.Assembly.Lowering
import SmallLang.Proofs.Language
import SmallLang.Proofs.Lookahead.LeftRecursion

/-!
# When assembly succeeds

Each step of assembly may refuse. Lowering succeeds where every name of a rule has a type, every
template has what it asks for, and no two terminals share a key (`Naming.lowerAll_succeeds`). The rest
succeeds exactly if there is no left recursion, no cell of the table is tied, and all patterns can be
read (`Compiled.ofGrammar_ok_iff`); no cell is where no lookahead admits two productions of a
non-terminal (`Compiled.ofGrammar_succeeds`).
-/

set_option autoImplicit false

namespace SmallLang

/-! ## Lowering -/

/-- No two terminals of the pool have one key. -/
def Arena.Consistent (pool : Terminal → Prop) : Prop :=
  ∀ s t, pool s → pool t → s.sameKey t = true → s = t

/-- The arena holds terminals of the pool, each once. -/
structure Arena.Among (pool : Terminal → Prop) (a : Arena) : Prop where
  mem : ∀ t ∈ a.terminals, pool t
  nodup : a.terminals.Nodup

/-- In an arena of a consistent pool a terminal has one number, the one that it is looked up by. -/
theorem Arena.Among.indexOf?_eq_some_iff {pool : Terminal → Prop} {a : Arena} (ha : a.Among pool)
    (hpool : Arena.Consistent pool) {t : Terminal} (ht : pool t) {i : Nat} :
    a.indexOf? t = some i ↔ a.get? i = some t := by
  have hfound : ∀ j, a.indexOf? t = some j → a.get? j = some t := by
    intro j hj
    obtain ⟨hlt, hkey, -⟩ := List.findIdx?_eq_some_iff_getElem.1 hj
    rw [Arena.get?, List.getElem?_eq_getElem hlt,
      ← hpool t _ ht (ha.mem _ (List.getElem_mem hlt)) hkey]
  refine ⟨hfound i, fun hi => ?_⟩
  cases hindex : a.indexOf? t with
  | none =>
      rw [Arena.indexOf?, List.findIdx?_eq_none_iff] at hindex
      have hdiffer := hindex t (List.mem_of_getElem? hi)
      rw [Arena.sameKey_self] at hdiffer
      exact absurd hdiffer (by simp)
  | some j =>
      obtain ⟨hlt, -⟩ := List.getElem?_eq_some_iff.1 hi
      rw [(List.getElem?_inj hlt ha.nodup).1 (hi.trans (hfound j hindex).symm)]

/-- Where all terminals so far are from the pool, the step succeeds and they still are. -/
def Lower.Succeeds {α : Type} (pool : Terminal → Prop) (x : Lower α) : Prop :=
  ∀ a : Arena, a.Among pool → ∃ v a', x a = .ok (v, a') ∧ a'.Among pool

namespace Lower

variable {α β : Type} {pool : Terminal → Prop}

theorem succeeds_pure (v : α) : Lower.Succeeds pool (pure v) :=
  fun a ha => ⟨v, a, rfl, ha⟩

theorem succeeds_lift {x : Except AssemblyError α} {v : α} (h : x = .ok v) :
    Lower.Succeeds pool (monadLift x) := by
  intro a ha
  refine ⟨v, a, ?_, ha⟩
  rw [h]
  rfl

theorem Succeeds.bind {x : Lower α} {f : α → Lower β} (hx : x.Succeeds pool)
    (hf : ∀ v, (f v).Succeeds pool) : Lower.Succeeds pool (x >>= f) := by
  intro a ha
  obtain ⟨v, a', hv, ha'⟩ := hx a ha
  obtain ⟨w, a'', hw, ha''⟩ := hf v a' ha'
  exact ⟨w, a'', Except.bind_eq_ok_iff.2 ⟨(v, a'), hv, hw⟩, ha''⟩

theorem Succeeds.map {x : Lower α} (hx : x.Succeeds pool) (f : α → β) :
    Lower.Succeeds pool (f <$> x) := by
  rw [map_eq_pure_bind]
  exact hx.bind fun v => succeeds_pure (f v)

theorem succeeds_mapM {f : α → Lower β} {xs : List α} (h : ∀ x ∈ xs, (f x).Succeeds pool) :
    Lower.Succeeds pool (xs.mapM f) := by
  induction xs with
  | nil => exact succeeds_pure []
  | cons x xs ih =>
      simp only [List.mapM_cons]
      refine (h x List.mem_cons_self).bind fun y => ?_
      refine (ih fun x' hx' => h x' (List.mem_cons_of_mem _ hx')).bind fun ys => ?_
      exact succeeds_pure _

/-- A terminal of a consistent pool can be numbered. -/
theorem succeeds_intern (hpool : Arena.Consistent pool) {t : Terminal} (ht : pool t) :
    Lower.Succeeds pool
      fun arena => (arena.intern t).map fun (i, arena') => (Symbol.terminal i, arena') := by
  intro a ha
  simp only [Arena.intern]
  cases hindex : a.indexOf? t with
  | none =>
      refine ⟨_, _, rfl, fun s hs => ?_, ?_⟩
      · rcases List.mem_append.1 hs with hs | hs
        · exact ha.mem s hs
        · rw [List.mem_singleton.1 hs]
          exact ht
      · refine List.nodup_append.2 ⟨ha.nodup, List.nodup_singleton t, fun s hs u hu heq => ?_⟩
        rw [Arena.indexOf?, List.findIdx?_eq_none_iff] at hindex
        have hdiffer := hindex s hs
        rw [heq, List.mem_singleton.1 hu, Arena.sameKey_self] at hdiffer
        exact absurd hdiffer (by simp)
  | some i =>
      have hget := (ha.indexOf?_eq_some_iff hpool ht).1 hindex
      refine ⟨.terminal i, a, ?_, ha⟩
      simp only [hget, if_true]
      rfl

end Lower

/-- The names in an element have types, and its terminal is from the pool. -/
def Naming.Resolves (ns : Naming) (pool : Terminal → Prop) (owner : String) : Sym → Prop
  | .this => ∃ i, ns.typeNumber? owner = some i
  | .node name => ∃ i, ns.typeNumber? name = some i
  | .terminal t => pool t
  | .field _ target _ => ns.Resolves pool owner target

namespace Naming

variable {ns : Naming} {pool : Terminal → Prop} {owner : String}

theorem lowerType_succeeds {name : String} {i : Nat} (h : ns.typeNumber? name = some i) :
    (ns.lowerType owner name).Succeeds pool := by
  rw [lowerType, h]
  exact Lower.succeeds_pure i

theorem lowerSym_succeeds (hpool : Arena.Consistent pool) {s : Sym}
    (h : ns.Resolves pool owner s) : (ns.lowerSym owner s).Succeeds pool := by
  induction s with
  | this =>
      obtain ⟨i, hi⟩ := h
      simp only [lowerSym]
      exact (lowerType_succeeds hi).map Symbol.nonTerminal
  | node name =>
      obtain ⟨i, hi⟩ := h
      simp only [lowerSym]
      exact (lowerType_succeeds hi).map Symbol.nonTerminal
  | terminal t =>
      simp only [lowerSym]
      exact Lower.succeeds_intern hpool h
  | field name target default ih =>
      simp only [lowerSym]
      exact ih h

/-- What a rule needs to become a production. -/
structure Lowers (ns : Naming) (pool : Terminal → Prop) (t : NodeType) (r : Rule) : Prop where
  head : ∃ i, ns.headNumber? t.name r.head = some i
  body : ∀ s, .sym s ∈ r.body → ns.Resolves pool t.name s
  construction : ∃ c, t.construction r = .ok c

theorem lowerRule_succeeds (hpool : Arena.Consistent pool) {t : NodeType} {r : Rule}
    (h : ns.Lowers pool t r) : (ns.lowerRule t r).Succeeds pool := by
  have hhead : (ns.lowerHead t.name r.head).Succeeds pool := by
    obtain ⟨i, hi⟩ := h.head
    cases hr : r.head with
    | this =>
        rw [hr] at hi
        exact lowerType_succeeds hi
    | type name =>
        rw [hr] at hi
        exact lowerType_succeeds hi
    | rest => exact Lower.succeeds_pure _
  refine hhead.bind fun head => ?_
  refine Lower.Succeeds.bind (Lower.succeeds_mapM fun x hx => ?_) fun symbols => ?_
  · cases x with
    | sym s => exact lowerSym_succeeds hpool (h.body s hx)
    | rest => exact Lower.succeeds_pure _
  · obtain ⟨c, hc⟩ := h.construction
    exact (Lower.succeeds_lift hc).bind fun _ => Lower.succeeds_pure _

/-- Lowering succeeds, and the terminals of the grammar are from the pool. -/
theorem lowerAll_succeeds (hpool : Arena.Consistent pool)
    (hfields : ∀ t ∈ ns.types, t.checkFields = .ok ())
    (hrules : ∀ t ∈ ns.types, ∀ r ∈ t.rules, ns.Lowers pool t r) :
    ∃ productions arena, ns.lowerAll.run Arena.empty = .ok (productions, arena) ∧
      arena.Among pool := by
  have hall : ns.lowerAll.Succeeds pool := by
    refine Lower.Succeeds.bind (Lower.succeeds_mapM fun t ht => ?_) fun rows =>
      Lower.succeeds_pure _
    refine (Lower.succeeds_lift (hfields t ht)).bind fun _ => ?_
    exact Lower.succeeds_mapM fun r hr => lowerRule_succeeds hpool (hrules t ht r hr)
  exact hall Arena.empty ⟨fun t ht => absurd ht List.not_mem_nil, List.nodup_nil⟩

end Naming

/-! ## Types without upgrades -/

namespace Upgrades

theorem ofTypes_eq_nil {types : List NodeType} (h : ∀ t ∈ types, t.upgraded = []) :
    ofTypes types = .ok [] := by
  unfold ofTypes
  induction types with
  | nil => rfl
  | cons t ts ih =>
      rw [List.foldlM_cons, h t List.mem_cons_self, List.foldlM_nil]
      exact ih fun s hs => h s (List.mem_cons_of_mem _ hs)

/-- Types of different names are settled as they are declared. -/
theorem settle_nil_eq_ok {types : List NodeType} (h : (types.map NodeType.name).Nodup) :
    settle [] types = .ok types := by
  have hstep : ∀ settled : List NodeType, ((settled ++ types).map NodeType.name).Nodup →
      types.foldlM (fun settled t => do admitType settled (← resolve [] t)) settled =
        .ok (settled ++ types) := by
    clear h
    induction types with
    | nil =>
        intro settled _
        rw [List.append_nil]
        rfl
    | cons t ts ih =>
        intro settled hnodup
        have hnew : settled.find? (·.name == t.name) = none := by
          rw [List.find?_eq_none]
          intro s hs heq
          rw [List.map_append, List.map_cons, List.nodup_append] at hnodup
          exact hnodup.2.2 _ (List.mem_map_of_mem hs) _ List.mem_cons_self (eq_of_beq heq)
        have hadmit : admitType settled t = .ok (settled ++ [t]) := by
          rw [admitType, hnew]
        rw [List.append_cons] at hnodup ⊢
        rw [List.foldlM_cons]
        exact Except.bind_eq_ok_iff.2 ⟨_, hadmit, ih (settled ++ [t]) hnodup⟩
  exact hstep [] h

end Upgrades

/-- Without upgrades a name has the number of the type of that name. -/
theorem Naming.typeNumber?_of_upgrades_nil (types : List NodeType) (name : String) :
    Naming.typeNumber? ⟨[], types⟩ name = types.findIdx? (·.name == name) := rfl

/-- The type with the number of a name has the name. -/
theorem Naming.name_of_typeNumber? {types : List NodeType} {name : String} {i : Nat}
    (h : Naming.typeNumber? ⟨[], types⟩ name = some i) :
    (types[i]?).map NodeType.name = some name := by
  rw [typeNumber?_of_upgrades_nil] at h
  obtain ⟨hlt, hname, -⟩ := List.findIdx?_eq_some_iff_getElem.1 h
  rw [List.getElem?_eq_getElem hlt, Option.map_some, eq_of_beq hname]

/-- Names stand for themselves where nothing is upgraded. -/
theorem Naming.Makes.upgrades_eq_nil {ns : Naming} {declared : List NodeType} {lowered : Lowered}
    (h : ns.Makes declared lowered) (hupgraded : ∀ t ∈ declared, t.upgraded = []) :
    ns = ⟨[], lowered.types⟩ := by
  obtain ⟨upgrades, types⟩ := ns
  obtain rfl : upgrades = [] :=
    Except.ok.inj (h.ofTypes.symm.trans (Upgrades.ofTypes_eq_nil hupgraded))
  rw [h.types]

/-- Types of different names that upgrade nothing are lowered as they are declared. -/
theorem Naming.Makes.eq_declared {ns : Naming} {declared : List NodeType} {lowered : Lowered}
    (h : ns.Makes declared lowered) (hupgraded : ∀ t ∈ declared, t.upgraded = [])
    (hnames : (declared.map NodeType.name).Nodup) : ns = ⟨[], declared⟩ := by
  obtain rfl := h.upgrades_eq_nil hupgraded
  have hsettle := h.settle
  rw [Upgrades.settle_nil_eq_ok hnames] at hsettle
  rw [Except.ok.inj hsettle]

/-- Lowering of types of different names without upgrades. -/
theorem lower_succeeds {declared : List NodeType} {start : String} {pool : Terminal → Prop}
    (hupgraded : ∀ t ∈ declared, t.upgraded = [])
    (hnames : (declared.map NodeType.name).Nodup) (hstart : uniqueStart declared = .ok start)
    (hpool : Arena.Consistent pool) (hfields : ∀ t ∈ declared, t.checkFields = .ok ())
    (hrules : ∀ t ∈ declared, ∀ r ∈ t.rules, Naming.Lowers ⟨[], declared⟩ pool t r) :
    ∃ lowered, lower declared = .ok lowered ∧
      Naming.Makes ⟨[], declared⟩ declared lowered ∧ lowered.grammar.arena.Among pool := by
  have hofTypes := Upgrades.ofTypes_eq_nil hupgraded
  have hsettle := Upgrades.settle_nil_eq_ok hnames
  obtain ⟨productions, arena, hall, harena⟩ : ∃ productions arena,
      (Naming.lowerAll ⟨[], declared⟩).run Arena.empty = .ok (productions, arena) ∧
        arena.Among pool := Naming.lowerAll_succeeds hpool hfields hrules
  have hlower : lower declared = .ok _ :=
    Except.bind_eq_ok_iff.2 ⟨[], hofTypes, Except.bind_eq_ok_iff.2 ⟨declared, hsettle,
      Except.bind_eq_ok_iff.2 ⟨start, hstart,
        Except.bind_eq_ok_iff.2 ⟨(productions, arena), hall, rfl⟩⟩⟩⟩
  obtain ⟨ns, hmakes⟩ := lower_eq_ok hlower
  obtain rfl := hmakes.eq_declared hupgraded hnames
  exact ⟨_, hlower, hmakes, harena⟩

/-! ## Everything that is derived from a grammar -/

namespace Grammar

variable {g : Grammar} {first : FirstTable g.arena.size} {follow : FollowTable g.arena.size}

/-- A cell has one candidate at most if only one production admits the lookahead. -/
theorem length_candidates_le_one {nt : Nat} {la : Lookahead}
    (h : ∀ i j p q, g.production? nt i = some p → g.production? nt j = some q →
      la.admits (first.ofSymbols p.symbols) (follow.get nt) = true →
      la.admits (first.ofSymbols q.symbols) (follow.get nt) = true → i = j) :
    (g.candidates first follow nt la).length ≤ 1 := by
  -- The numbers of the candidates are different, and all the same.
  have hnodup : ((g.candidates first follow nt la).map Prod.fst).Nodup := by
    have hsublist : ((g.candidates first follow nt la).map Prod.fst).Sublist
        ((g.productionsOf nt).zipIdx.map Prod.snd) := by
      rw [candidates, List.map_filterMap]
      generalize (g.productionsOf nt).zipIdx = ps
      induction ps with
      | nil => exact List.Sublist.refl _
      | cons p ps ih =>
          rw [List.filterMap_cons]
          split
          · exact ih.trans (List.sublist_cons_self _ _)
          · rename_i i hi
            have hp : p.2 = i := by
              obtain ⟨q, j⟩ := p
              simp only [Option.map_if, Option.ite_none_right_eq_some, Option.some.injEq] at hi
              exact hi.2
            rw [List.map_cons, hp]
            exact ih.cons_cons i
    refine hsublist.nodup ?_
    rw [List.zipIdx_map_snd]
    exact List.nodup_range'
  match hcs : g.candidates first follow nt la with
  | [] => exact Nat.zero_le 1
  | [c] => exact Nat.le_refl 1
  | c :: d :: cs =>
      exfalso
      obtain ⟨p, hp, hadmits, -⟩ := mem_candidates_iff.1
        (show (c.1, c.2) ∈ g.candidates first follow nt la by simp [hcs])
      obtain ⟨q, hq, hadmits', -⟩ := mem_candidates_iff.1
        (show (d.1, d.2) ∈ g.candidates first follow nt la by simp [hcs])
      have heq := h c.1 d.1 p q hp hq hadmits hadmits'
      rw [hcs] at hnodup
      simp [heq] at hnodup

end Grammar

theorem Scanner.recognizer_ok_iff {compile? : String → Option (List Char → Option Nat)}
    {t : Terminal} :
    (∃ r, recognizer compile? t = .ok r) ↔
      ∀ c, t = .ofClass c → (compile? c.pattern).isSome = true := by
  cases t with
  | literal text => exact ⟨fun _ c hc => absurd hc (by simp), fun _ => ⟨_, rfl⟩⟩
  | ofClass c =>
      cases hm : compile? c.pattern with
      | none => simp [recognizer, hm]
      | some m => simp [recognizer, hm]

/-- The scanner of an arena exists if all its patterns can be read, and only then. -/
theorem Scanner.ofArena_ok_iff {compile? : String → Option (List Char → Option Nat)}
    {arena : Arena} :
    (∃ scanner, Scanner.ofArena compile? arena = .ok scanner) ↔
      ∀ c, .ofClass c ∈ arena.terminals → (compile? c.pattern).isSome = true := by
  have hmap : (∃ scanner, Scanner.ofArena compile? arena = .ok scanner) ↔
      ∃ rs, arena.terminals.mapM (recognizer compile?) = .ok rs := by
    rw [ofArena]
    cases arena.terminals.mapM (recognizer compile?) with
    | error err => simp [Except.map]
    | ok rs => simp [Except.map]
  rw [hmap]
  induction arena.terminals with
  | nil => exact ⟨fun _ c hc => absurd hc List.not_mem_nil, fun _ => ⟨[], rfl⟩⟩
  | cons t ts ih =>
      have hcons : (∃ rs, (t :: ts).mapM (recognizer compile?) = .ok rs) ↔
          (∃ r, recognizer compile? t = .ok r) ∧
            ∃ rs, ts.mapM (recognizer compile?) = .ok rs := by
        rw [List.mapM_cons]
        constructor
        · rintro ⟨rs, h⟩
          obtain ⟨r, hr, h⟩ := Except.bind_eq_ok_iff.1 h
          obtain ⟨rs', hrs', -⟩ := Except.bind_eq_ok_iff.1 h
          exact ⟨⟨r, hr⟩, rs', hrs'⟩
        · rintro ⟨⟨r, hr⟩, rs, hrs⟩
          exact ⟨r :: rs, Except.bind_eq_ok_iff.2 ⟨r, hr, Except.bind_eq_ok_iff.2 ⟨rs, hrs, rfl⟩⟩⟩
      rw [hcons, and_congr recognizer_ok_iff ih]
      constructor
      · rintro ⟨ht, hts⟩ c hc
        rcases List.mem_cons.1 hc with hc | hc
        · exact ht c hc.symm
        · exact hts c hc
      · intro h
        refine ⟨fun c hc => h c ?_, fun c hc => h c (List.mem_cons_of_mem _ hc)⟩
        rw [hc]
        exact List.mem_cons_self

/-- Everything can be derived from a grammar without left recursion, without ties, and with patterns
that can be read. -/
theorem Compiled.ofGrammar_ok_iff {g : Grammar} :
    (∃ compiled, Compiled.ofGrammar g = .ok compiled) ↔
      g.checkLeftRecursion g.firstTable = .ok () ∧
        (∃ table, g.parseTable g.firstTable (g.followTable g.firstTable) = .ok table) ∧
        ∀ c, .ofClass c ∈ g.arena.terminals → (Pattern.compile? c.pattern).isSome = true := by
  rw [← Scanner.ofArena_ok_iff]
  constructor
  · rintro ⟨compiled, h⟩
    obtain ⟨⟨⟩, hrecursion, h⟩ := Except.bind_eq_ok_iff.1 h
    obtain ⟨table, htable, h⟩ := Except.bind_eq_ok_iff.1 h
    obtain ⟨scanner, hscanner, -⟩ := Except.bind_eq_ok_iff.1 h
    exact ⟨hrecursion, ⟨table, htable⟩, scanner, hscanner⟩
  · rintro ⟨hrecursion, ⟨table, htable⟩, scanner, hscanner⟩
    refine ⟨⟨g, g.firstTable, g.followTable g.firstTable, table, scanner⟩, ?_⟩
    refine Except.bind_eq_ok_iff.2 ⟨(), hrecursion, ?_⟩
    refine Except.bind_eq_ok_iff.2 ⟨_, htable, ?_⟩
    exact Except.bind_eq_ok_iff.2 ⟨scanner, hscanner, rfl⟩

/-- Everything can be derived from a grammar without left recursion and without ambiguous cells, and
its table decides nothing by priority. -/
theorem Compiled.ofGrammar_succeeds {g : Grammar}
    (hrecursion : g.checkLeftRecursion g.firstTable = .ok ())
    (hunique : ∀ nt < g.size, ∀ la : Lookahead, la.column ≤ g.arena.size →
      (g.candidates g.firstTable (g.followTable g.firstTable) nt la).length ≤ 1)
    (hpatterns : ∀ c, .ofClass c ∈ g.arena.terminals → (Pattern.compile? c.pattern).isSome = true) :
    ∃ compiled, Compiled.ofGrammar g = .ok compiled ∧ compiled.table.resolutions = [] := by
  obtain ⟨htable, hresolutions⟩ := Grammar.parseTable_eq_ok_of_unique hunique
  obtain ⟨compiled, h⟩ := Compiled.ofGrammar_ok_iff.2 ⟨hrecursion, ⟨_, htable⟩, hpatterns⟩
  have heq := (Grammar.parseTable_eq_ok (Compiled.ofGrammar_eq_ok h).2.2).1
  exact ⟨compiled, h, heq ▸ hresolutions⟩

end SmallLang
