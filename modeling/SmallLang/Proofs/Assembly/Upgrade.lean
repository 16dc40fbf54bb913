import Mathlib.Data.List.Nodup
import Mathlib.Data.List.Perm.Subperm
import Mathlib.Data.Nat.Find
import SmallLang.Assembly.Upgrade

/-!
# What upgrades lead to

The table of upgrades holds, for each upgraded name, the first declaration that upgrades it
(`Upgrades.lookup_ofTypes`). A walk along upgrades that ends at all ends within the steps it is
allowed (`Upgrades.final?_eq_some_iff`), so where it leads depends on the entries only. The types of
a settled list are those that walks from the declarations end at.
-/

set_option autoImplicit false

namespace SmallLang

theorem Except.bind_eq_ok_iff {ε α β : Type} {x : Except ε α} {f : α → Except ε β} {b : β} :
    x >>= f = .ok b ↔ ∃ a, x = .ok a ∧ f a = .ok b := by
  cases x with
  | error err => simp [bind, Except.bind]
  | ok a => simp [bind, Except.bind]

/-- What a test finds out about a result. -/
theorem Except.exists_of_any {ε α : Type} {x : Except ε α} {check : α → Bool}
    (h : x.toOption.any check = true) : ∃ a, x = .ok a ∧ check a = true := by
  cases x with
  | error err => simp [Except.toOption] at h
  | ok a => exact ⟨a, rfl, by simpa [Except.toOption] using h⟩

theorem Except.eq_ok_of_beq {ε α : Type} [DecidableEq α] {x : Except ε α} {a : α}
    (h : (x.toOption == some a) = true) : x = .ok a := by
  cases x with
  | error err => simp [Except.toOption] at h
  | ok b => simpa [Except.toOption] using h

namespace Upgrades

/-! ## The table -/

/-- The names that the table has an entry for. -/
def keys (u : Upgrades) : List String := u.map Prod.fst

theorem lookup_eq_none_iff {u : Upgrades} {name : String} :
    u.lookup name = none ↔ name ∉ u.keys := by
  rw [List.lookup_eq_none_iff, keys, List.mem_map]
  constructor
  · rintro h ⟨x, hx, rfl⟩
    exact absurd (h x hx) (by simp)
  · intro h x hx
    rw [bne_iff_ne]
    rintro rfl
    exact h ⟨x, hx, rfl⟩

/-- Adding an upgrade changes the entry of that name only, and only if there is none. -/
theorem lookup_add {t : NodeType} {u u' : Upgrades} {name : String} (h : add t u name = .ok u')
    (x : String) :
    u'.lookup x = (u.lookup x).or (if x = name then some t else none) := by
  rw [add] at h
  split at h
  · rename_i hnone
    obtain rfl := Except.ok.inj h
    rw [List.lookup_append]
    by_cases hx : x = name
    · subst hx
      simp [hnone]
    · have hbeq : (x == name) = false := by simpa using hx
      simp [List.lookup_cons, hx, hbeq]
  · rename_i first hfirst
    split at h
    · obtain rfl := Except.ok.inj h
      by_cases hx : x = name
      · subst hx
        simp [hfirst]
      · simp [hx]
    · exact absurd h (by simp)

/-- Another type may have upgraded the name before only if it has the same name. -/
theorem add_ok_iff {t : NodeType} {u : Upgrades} {name : String} :
    (∃ u', add t u name = .ok u') ↔ ∀ first, u.lookup name = some first → first.name = t.name := by
  rw [add]
  cases hlookup : u.lookup name with
  | none => simp
  | some first =>
      by_cases hname : first.name = t.name
      · simp [hname]
      · simp [hname]

/-- The entries after a type was taken in. -/
theorem lookup_foldlM_add {t : NodeType} {names : List String} {u u' : Upgrades}
    (h : names.foldlM (add t) u = .ok u') (x : String) :
    u'.lookup x = (u.lookup x).or (if x ∈ names then some t else none) := by
  induction names generalizing u with
  | nil =>
      obtain rfl := Except.ok.inj h
      simp
  | cons name names ih =>
      rw [List.foldlM_cons] at h
      obtain ⟨u₁, hu₁, h⟩ := Except.bind_eq_ok_iff.1 h
      rw [ih h, lookup_add hu₁]
      by_cases hx : x = name
      · subst hx
        cases u.lookup x <;> simp
      · simp [hx]

theorem foldlM_add_ok_iff {t : NodeType} {names : List String} {u : Upgrades} :
    (∃ u', names.foldlM (add t) u = .ok u') ↔
      ∀ x ∈ names, ∀ first, u.lookup x = some first → first.name = t.name := by
  induction names generalizing u with
  | nil => simp [pure, Except.pure]
  | cons name names ih =>
      rw [List.foldlM_cons, List.forall_mem_cons, ← add_ok_iff]
      constructor
      · rintro ⟨u', h⟩
        obtain ⟨u₁, hu₁, h⟩ := Except.bind_eq_ok_iff.1 h
        refine ⟨⟨u₁, hu₁⟩, fun x hx first hfirst => ?_⟩
        refine ih.1 ⟨u', h⟩ x hx first ?_
        rw [lookup_add hu₁, hfirst]
        rfl
      · rintro ⟨⟨u₁, hu₁⟩, h⟩
        have hnext : ∀ x ∈ names, ∀ first, u₁.lookup x = some first → first.name = t.name := by
          intro x hx first hfirst
          rw [lookup_add hu₁, Option.or_eq_some_iff] at hfirst
          rcases hfirst with hfirst | ⟨-, hfirst⟩
          · exact h x hx first hfirst
          · split at hfirst
            · rw [← Option.some.inj hfirst]
            · exact absurd hfirst (by simp)
        obtain ⟨u', hu'⟩ := ih.2 hnext
        exact ⟨u', Except.bind_eq_ok_iff.2 ⟨u₁, hu₁, hu'⟩⟩

/-- The first declaration that upgrades a name. -/
def firstUpgrade? (types : List NodeType) (name : String) : Option NodeType :=
  types.find? (·.upgraded.contains name)

/-- Declarations that upgrade one name have one name. -/
def Compatible (types : List NodeType) : Prop :=
  ∀ t ∈ types, ∀ t' ∈ types, ∀ x ∈ t.upgraded, x ∈ t'.upgraded → t.name = t'.name

theorem firstUpgrade?_cons (t : NodeType) (ts : List NodeType) (x : String) :
    firstUpgrade? (t :: ts) x = (if x ∈ t.upgraded then some t else none).or (firstUpgrade? ts x) := by
  rw [firstUpgrade?, List.find?_cons]
  by_cases hx : x ∈ t.upgraded
  · simp [hx]
  · simp [hx, firstUpgrade?]

theorem lookup_foldlM {types : List NodeType} {u u' : Upgrades}
    (h : types.foldlM (fun u t => t.upgraded.foldlM (add t) u) u = .ok u') (x : String) :
    u'.lookup x = (u.lookup x).or (firstUpgrade? types x) := by
  induction types generalizing u with
  | nil =>
      obtain rfl := Except.ok.inj h
      simp [firstUpgrade?]
  | cons t ts ih =>
      rw [List.foldlM_cons] at h
      obtain ⟨u₁, hu₁, h⟩ := Except.bind_eq_ok_iff.1 h
      rw [ih h, lookup_foldlM_add hu₁, firstUpgrade?_cons, Option.or_assoc]

/-- The table holds the first declaration that upgrades a name. -/
theorem lookup_ofTypes {types : List NodeType} {u : Upgrades} (h : ofTypes types = .ok u)
    (x : String) : u.lookup x = firstUpgrade? types x := by
  rw [lookup_foldlM h]
  rfl

theorem compatible_cons_iff {t : NodeType} {ts : List NodeType} :
    Compatible (t :: ts) ↔
      (∀ t' ∈ ts, ∀ x ∈ t.upgraded, x ∈ t'.upgraded → t.name = t'.name) ∧ Compatible ts := by
  constructor
  · intro h
    exact ⟨fun t' ht' => h t List.mem_cons_self t' (List.mem_cons_of_mem _ ht'),
      fun t₁ ht₁ t₂ ht₂ => h t₁ (List.mem_cons_of_mem _ ht₁) t₂ (List.mem_cons_of_mem _ ht₂)⟩
  · rintro ⟨hhead, htail⟩ t₁ ht₁ t₂ ht₂ x hx₁ hx₂
    rcases List.mem_cons.1 ht₁ with rfl | hts₁
    · rcases List.mem_cons.1 ht₂ with rfl | hts₂
      · rfl
      · exact hhead t₂ hts₂ x hx₁ hx₂
    · rcases List.mem_cons.1 ht₂ with rfl | hts₂
      · exact (hhead t₁ hts₁ x hx₂ hx₁).symm
      · exact htail t₁ hts₁ t₂ hts₂ x hx₁ hx₂

/-- What the table holds after a declaration agrees with others, if it did before and the declaration
does: what the declaration upgrades was upgraded before, or is upgraded by it from now on. -/
theorem lookup_foldlM_add_agrees_iff {t t' : NodeType} {u u' : Upgrades}
    (h : t.upgraded.foldlM (add t) u = .ok u')
    (hold : ∀ x ∈ t.upgraded, ∀ first, u.lookup x = some first → first.name = t.name) :
    (∀ x ∈ t'.upgraded, ∀ first, u'.lookup x = some first → first.name = t'.name) ↔
      (∀ x ∈ t'.upgraded, ∀ first, u.lookup x = some first → first.name = t'.name) ∧
        ∀ x ∈ t.upgraded, x ∈ t'.upgraded → t.name = t'.name := by
  constructor
  · intro hnext
    have hbefore : ∀ x ∈ t'.upgraded, ∀ first, u.lookup x = some first → first.name = t'.name := by
      intro x hx first hlookup
      refine hnext x hx first ?_
      rw [lookup_foldlM_add h, hlookup]
      rfl
    refine ⟨hbefore, fun x hx hx' => ?_⟩
    cases hlookup : u.lookup x with
    | none =>
        refine hnext x hx' t ?_
        rw [lookup_foldlM_add h, hlookup, if_pos hx]
        rfl
    | some first =>
        rw [← hold x hx first hlookup]
        exact hbefore x hx' first hlookup
  · rintro ⟨hbefore, hpair⟩ x hx first hlookup
    rw [lookup_foldlM_add h, Option.or_eq_some_iff] at hlookup
    rcases hlookup with hlookup | ⟨-, hlookup⟩
    · exact hbefore x hx first hlookup
    · split at hlookup
      · rename_i hmem
        rw [← Option.some.inj hlookup]
        exact hpair x hmem hx
      · exact absurd hlookup (by simp)

theorem foldlM_ok_iff {types : List NodeType} {u : Upgrades} :
    (∃ u', types.foldlM (fun u t => t.upgraded.foldlM (add t) u) u = .ok u') ↔
      (∀ t ∈ types, ∀ x ∈ t.upgraded, ∀ first, u.lookup x = some first → first.name = t.name) ∧
        Compatible types := by
  induction types generalizing u with
  | nil => simp [Compatible, pure, Except.pure]
  | cons t ts ih =>
      rw [List.foldlM_cons, compatible_cons_iff, List.forall_mem_cons]
      constructor
      · rintro ⟨u', h⟩
        obtain ⟨u₁, hu₁, h⟩ := Except.bind_eq_ok_iff.1 h
        have hhead := foldlM_add_ok_iff.1 ⟨u₁, hu₁⟩
        obtain ⟨hnext, hcompatible⟩ := ih.1 ⟨u', h⟩
        have hboth := fun t' ht' => (lookup_foldlM_add_agrees_iff hu₁ hhead).1 (hnext t' ht')
        exact ⟨⟨hhead, fun t' ht' => (hboth t' ht').1⟩, fun t' ht' => (hboth t' ht').2, hcompatible⟩
      · rintro ⟨⟨hhead, htail⟩, hpair, hcompatible⟩
        obtain ⟨u₁, hu₁⟩ := foldlM_add_ok_iff.2 hhead
        obtain ⟨u', hu'⟩ := ih.2 ⟨fun t' ht' =>
          (lookup_foldlM_add_agrees_iff hu₁ hhead).2 ⟨htail t' ht', hpair t' ht'⟩, hcompatible⟩
        exact ⟨u', Except.bind_eq_ok_iff.2 ⟨u₁, hu₁, hu'⟩⟩

/-- The upgrades of some declarations contradict each other exactly if two of them upgrade one name
and have different names. -/
theorem ofTypes_ok_iff {types : List NodeType} :
    (∃ u, ofTypes types = .ok u) ↔ Compatible types := by
  rw [ofTypes, foldlM_ok_iff]
  simp

theorem mem_of_lookup_ofTypes {types : List NodeType} {u : Upgrades} (h : ofTypes types = .ok u)
    {x : String} {t : NodeType} (hx : u.lookup x = some t) : t ∈ types ∧ x ∈ t.upgraded := by
  rw [lookup_ofTypes h, firstUpgrade?] at hx
  refine ⟨List.mem_of_find?_eq_some hx, ?_⟩
  have hcontains := List.find?_some hx
  simpa using hcontains

/-! ## Following upgrades -/

theorem follow_succ_of_lookup_eq_none {u : Upgrades} {t : NodeType} (h : u.lookup t.name = none)
    (n : Nat) : u.follow (n + 1) t = some t := by
  rw [follow, h]

theorem follow_succ_of_lookup_eq_some {u : Upgrades} {t next : NodeType}
    (h : u.lookup t.name = some next) (n : Nat) : u.follow (n + 1) t = u.follow n next := by
  rw [follow, h]

theorem follow_mono {u : Upgrades} {m n : Nat} {t last : NodeType} (hmn : m ≤ n)
    (h : u.follow m t = some last) : u.follow n t = some last := by
  induction m generalizing n t with
  | zero => simp [follow] at h
  | succ m ih =>
      obtain ⟨n, rfl⟩ : ∃ k, n = k + 1 := ⟨n - 1, by omega⟩
      cases hlookup : u.lookup t.name with
      | none =>
          rw [follow_succ_of_lookup_eq_none hlookup] at h ⊢
          exact h
      | some next =>
          rw [follow_succ_of_lookup_eq_some hlookup] at h ⊢
          exact ih (Nat.le_of_succ_le_succ hmn) h

/-- A shortest walk passes as many different upgraded names as it has steps. A name that it passes
is as far from the end for every type of that name, so none is passed twice. -/
theorem exists_names_of_follow {u : Upgrades} {n : Nat} {t last : NodeType}
    (h : u.follow n t = some last) (hleast : ∀ m < n, u.follow m t ≠ some last) :
    ∃ names : List String, names.Nodup ∧ names ⊆ u.keys ∧ names.length + 1 = n ∧
      ∀ s : NodeType, s.name ∈ names → u.follow n s = some last := by
  induction n generalizing t with
  | zero => simp [follow] at h
  | succ n ih =>
      cases hlookup : u.lookup t.name with
      | none =>
          -- The walk ends where it begins.
          have hn : n = 0 := by
            by_contra hne
            rw [follow_succ_of_lookup_eq_none hlookup] at h
            refine hleast 1 (by omega) ?_
            rw [follow_succ_of_lookup_eq_none hlookup, h]
          subst hn
          exact ⟨[], List.nodup_nil, List.nil_subset _, rfl, fun s hs => absurd hs List.not_mem_nil⟩
      | some next =>
          have hnext : u.follow n next = some last := by
            rw [← follow_succ_of_lookup_eq_some hlookup, h]
          have hleast' : ∀ m < n, u.follow m next ≠ some last := by
            intro m hm hfollow
            refine hleast (m + 1) (by omega) ?_
            rw [follow_succ_of_lookup_eq_some hlookup, hfollow]
          obtain ⟨names, hnodup, hkeys, hlength, hall⟩ := ih hnext hleast'
          refine ⟨t.name :: names, ?_, ?_, by simp [hlength], ?_⟩
          · refine List.nodup_cons.2 ⟨fun hmem => ?_, hnodup⟩
            exact hleast n (Nat.lt_succ_self n) (hall t hmem)
          · refine List.cons_subset.2 ⟨?_, hkeys⟩
            by_contra hnot
            rw [lookup_eq_none_iff.2 hnot] at hlookup
            exact absurd hlookup (by simp)
          · intro s hs
            rcases List.mem_cons.1 hs with hs | hs
            · rw [← hs] at hlookup
              rw [follow_succ_of_lookup_eq_some hlookup, hnext]
            · exact follow_mono (Nat.le_succ n) (hall s hs)

/-- The number of steps that are allowed is enough for every walk that ends. -/
theorem final?_eq_some_iff {u : Upgrades} {t last : NodeType} :
    u.final? t = some last ↔ ∃ n, u.follow n t = some last := by
  constructor
  · intro h
    exact ⟨_, h⟩
  · intro h
    classical
    have hfound := Nat.find_spec h
    obtain ⟨names, hnodup, hkeys, hlength, -⟩ :=
      exists_names_of_follow hfound fun m hm => Nat.find_min h hm
    have hle : names.length ≤ u.keys.length := (hnodup.subperm hkeys).length_le
    rw [keys, List.length_map] at hle
    exact follow_mono (by omega) hfound

theorem final?_of_lookup_eq_none {u : Upgrades} {t : NodeType} (h : u.lookup t.name = none) :
    u.final? t = some t :=
  follow_succ_of_lookup_eq_none h _

/-- An upgraded type ends where the type that upgrades it ends. -/
theorem final?_of_lookup_eq_some {u : Upgrades} {t next : NodeType}
    (h : u.lookup t.name = some next) : u.final? t = u.final? next := by
  refine Option.ext fun last => ?_
  rw [final?_eq_some_iff, final?_eq_some_iff]
  constructor
  · rintro ⟨n, hn⟩
    cases n with
    | zero => simp [follow] at hn
    | succ n => exact ⟨n, by rw [← follow_succ_of_lookup_eq_some h, hn]⟩
  · rintro ⟨n, hn⟩
    exact ⟨n + 1, by rw [follow_succ_of_lookup_eq_some h, hn]⟩

/-- Nothing upgrades the type that a walk ends at. -/
theorem lookup_of_follow {u : Upgrades} {n : Nat} {t last : NodeType}
    (h : u.follow n t = some last) : u.lookup last.name = none := by
  induction n generalizing t with
  | zero => simp [follow] at h
  | succ n ih =>
      cases hlookup : u.lookup t.name with
      | none =>
          rw [follow_succ_of_lookup_eq_none hlookup] at h
          rw [← Option.some.inj h, hlookup]
      | some next =>
          rw [follow_succ_of_lookup_eq_some hlookup] at h
          exact ih h

/-- Where upgrades lead depends on the entries of the table only. -/
theorem final?_congr {u v : Upgrades} (h : ∀ x, u.lookup x = v.lookup x) (t : NodeType) :
    u.final? t = v.final? t := by
  have hfollow : ∀ (n : Nat) (t : NodeType), u.follow n t = v.follow n t := by
    intro n
    induction n with
    | zero => exact fun t => rfl
    | succ n ih =>
        intro t
        rw [follow, follow, h t.name]
        cases v.lookup t.name with
        | none => rfl
        | some next => exact ih next
  refine Option.ext fun last => ?_
  simp only [final?_eq_some_iff, hfollow]

/-- The name of a type leads to where a type of that name leads. -/
theorem finalName?_eq (u : Upgrades) (name : String) :
    u.finalName? name = (u.final? (.named name)).map NodeType.name := by
  rw [finalName?]
  cases hlookup : u.lookup name with
  | none =>
      rw [final?_of_lookup_eq_none (t := .named name) hlookup]
      rfl
  | some next => rw [final?_of_lookup_eq_some (t := .named name) hlookup]

/-! ## Settled types -/

/-- Where upgrades lead from a type: to the type itself or to one of the table. -/
theorem mem_of_follow {u : Upgrades} {n : Nat} {t last : NodeType} (h : u.follow n t = some last) :
    last = t ∨ ∃ name, u.lookup name = some last := by
  induction n generalizing t with
  | zero => simp [follow] at h
  | succ n ih =>
      rw [follow] at h
      split at h
      · exact Or.inl (Option.some.inj h).symm
      · rename_i next hnext
        rcases ih h with rfl | hlast
        · exact Or.inr ⟨t.name, hnext⟩
        · exact Or.inr hlast

theorem resolve_eq_ok_iff {u : Upgrades} {t last : NodeType} :
    u.resolve t = .ok last ↔ u.final? t = some last := by
  rw [resolve]
  cases u.final? t with
  | none => simp
  | some last' => simp

theorem admitType_eq_ok {types types' : List NodeType} {t : NodeType}
    (h : admitType types t = .ok types') :
    (types' = types ++ [t] ∧ ∀ s ∈ types, s.name ≠ t.name) ∨ (types' = types ∧ t ∈ types) := by
  rw [admitType] at h
  split at h
  · rename_i hnone
    refine Or.inl ⟨(Except.ok.inj h).symm, fun s hs => ?_⟩
    simpa using List.find?_eq_none.1 hnone s hs
  · rename_i known hknown
    split at h
    · rename_i heq
      subst heq
      exact Or.inr ⟨(Except.ok.inj h).symm, List.mem_of_find?_eq_some hknown⟩
    · exact absurd h (by simp)

/-- What passes from one list of types to the next while declarations are settled holds of the
settled list. -/
theorem settle_induction {P : List NodeType → Prop} {u : Upgrades} {types settled : List NodeType}
    (h : u.settle types = .ok settled) (hnil : P [])
    (hstep : ∀ done next t last, P done → t ∈ types → u.final? t = some last →
      admitType done last = .ok next → P next) : P settled := by
  have hfold : ∀ {ts done : List NodeType}, (∀ t ∈ ts, t ∈ types) → P done →
      ts.foldlM (fun settled t => do admitType settled (← u.resolve t)) done = .ok settled →
      P settled := by
    intro ts
    induction ts with
    | nil =>
        intro done _ hdone h
        obtain rfl := Except.ok.inj h
        exact hdone
    | cons t ts ih =>
        intro done hmem hdone h
        rw [List.foldlM_cons] at h
        obtain ⟨next, hnext, h⟩ := Except.bind_eq_ok_iff.1 h
        obtain ⟨last, hlast, hadmit⟩ := Except.bind_eq_ok_iff.1 hnext
        have ht := hmem t List.mem_cons_self
        refine ih (fun t' ht' => hmem t' (List.mem_cons_of_mem _ ht')) ?_ h
        exact hstep done next t last hdone ht (resolve_eq_ok_iff.1 hlast) hadmit
  exact hfold (fun _ ht => ht) hnil h

/-- The settled types have different names. -/
theorem nodup_names_of_settle {u : Upgrades} {types settled : List NodeType}
    (h : u.settle types = .ok settled) : (settled.map NodeType.name).Nodup := by
  refine settle_induction (P := fun ts => (ts.map NodeType.name).Nodup) h List.nodup_nil
    fun done next t last hdone _ _ hadmit => ?_
  rcases admitType_eq_ok hadmit with ⟨rfl, hnew⟩ | ⟨rfl, -⟩
  · rw [List.map_append, List.map_singleton]
    refine hdone.append (List.nodup_singleton _) ?_
    intro x hx hlast
    obtain ⟨s, hs, rfl⟩ := List.mem_map.1 hx
    exact hnew s hs (List.mem_singleton.1 hlast)
  · exact hdone

/-- Every settled type is one that upgrades lead to from a declaration. -/
theorem final?_of_settle {u : Upgrades} {types settled : List NodeType}
    (h : u.settle types = .ok settled) : ∀ s ∈ settled, ∃ t ∈ types, u.final? t = some s := by
  refine settle_induction (P := fun ts => ∀ s ∈ ts, ∃ t ∈ types, u.final? t = some s) h
    (fun s hs => absurd hs List.not_mem_nil)
    fun done next t last hdone ht hlast hadmit => ?_
  rcases admitType_eq_ok hadmit with ⟨rfl, -⟩ | ⟨rfl, -⟩
  · intro s hs
    rcases List.mem_append.1 hs with hs | hs
    · exact hdone s hs
    · rw [List.mem_singleton.1 hs]
      exact ⟨t, ht, hlast⟩
  · exact hdone

/-- Upgrades lead somewhere from every declaration of a settled list. -/
theorem exists_final?_of_settle {u : Upgrades} {types settled : List NodeType}
    (h : u.settle types = .ok settled) {t : NodeType} (ht : t ∈ types) :
    ∃ last, u.final? t = some last := by
  have hfold : ∀ {ts done : List NodeType},
      ts.foldlM (fun settled t => do admitType settled (← u.resolve t)) done = .ok settled →
      t ∈ ts → ∃ last, u.final? t = some last := by
    intro ts
    induction ts with
    | nil => exact fun _ ht => absurd ht List.not_mem_nil
    | cons s ts ih =>
        intro done h ht
        rw [List.foldlM_cons] at h
        obtain ⟨next, hnext, h⟩ := Except.bind_eq_ok_iff.1 h
        obtain ⟨last, hlast, -⟩ := Except.bind_eq_ok_iff.1 hnext
        rcases List.mem_cons.1 ht with rfl | ht
        · exact ⟨last, resolve_eq_ok_iff.1 hlast⟩
        · exact ih h ht
  exact hfold h ht

/-- Every settled type is one of the declarations. -/
theorem mem_of_settle {types settled : List NodeType} {u : Upgrades} (hu : ofTypes types = .ok u)
    (h : u.settle types = .ok settled) : ∀ s ∈ settled, s ∈ types := by
  intro s hs
  obtain ⟨t, ht, hfinal⟩ := final?_of_settle h s hs
  rcases mem_of_follow hfinal with rfl | ⟨name, hname⟩
  · exact ht
  · exact (mem_of_lookup_ofTypes hu hname).1

end Upgrades

end SmallLang
