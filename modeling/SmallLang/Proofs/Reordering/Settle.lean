import SmallLang.Proofs.Assembly.Extend

/-!
# Upgrades in another order

The table of upgrades holds the first declaration that upgrades a name, so another order of the
declarations may give other entries. They have the same names, though, and so names lead to the same
names (`Upgrades.finalName?_of_perm`). Where the declarations of the one order can be settled, each of
them leads to the same type in the other order (`Upgrades.final?_of_perm`); so they can be settled there
too, to the same types in some order (`Upgrades.exists_settle_of_perm`).
-/

set_option autoImplicit false

namespace SmallLang

namespace Upgrades

/-! ## Tables -/

theorem exists_ofTypes_of_perm {declared declared' : List NodeType} {u : Upgrades}
    (h : declared'.Perm declared) (hu : ofTypes declared = .ok u) :
    ∃ u', ofTypes declared' = .ok u' := by
  have hcompatible := ofTypes_ok_iff.1 ⟨u, hu⟩
  exact ofTypes_ok_iff.2 fun t ht s hs => hcompatible t (h.mem_iff.1 ht) s (h.mem_iff.1 hs)

section Tables

variable {declared declared' : List NodeType} {u u' : Upgrades} (h : declared'.Perm declared)
  (hu : ofTypes declared = .ok u) (hu' : ofTypes declared' = .ok u')
include h hu hu'

theorem map_name_lookup_of_perm (x : String) :
    (u'.lookup x).map NodeType.name = (u.lookup x).map NodeType.name := by
  have hnone : u'.lookup x = none ↔ u.lookup x = none := by
    rw [lookup_ofTypes hu, lookup_ofTypes hu', firstUpgrade?, firstUpgrade?, List.find?_eq_none,
      List.find?_eq_none]
    exact ⟨fun hno t ht => hno t (h.mem_iff.2 ht), fun hno t ht => hno t (h.mem_iff.1 ht)⟩
  cases hx : u.lookup x with
  | none => rw [hnone.2 hx]
  | some t =>
      cases hx' : u'.lookup x with
      | none =>
          rw [hnone.1 hx'] at hx
          exact absurd hx (by simp)
      | some t' =>
          -- Both declarations upgrade the name.
          obtain ⟨ht, hxt⟩ := mem_of_lookup_ofTypes hu hx
          obtain ⟨ht', hxt'⟩ := mem_of_lookup_ofTypes hu' hx'
          have hname := ofTypes_ok_iff.1 ⟨u, hu⟩ t' (h.mem_iff.1 ht') t ht x hxt' hxt
          rw [Option.map_some, Option.map_some, hname]

theorem map_name_follow_of_perm (n : Nat) {t t' : NodeType} (hname : t'.name = t.name) :
    (u'.follow n t').map NodeType.name = (u.follow n t).map NodeType.name := by
  induction n generalizing t t' with
  | zero => rfl
  | succ n ih =>
      -- The next types have one name, and only the name decides where the walk goes on.
      have hlookup := map_name_lookup_of_perm h hu hu' t.name
      cases hnext : u.lookup t.name with
      | none =>
          rw [hnext] at hlookup
          rw [follow_succ_of_lookup_eq_none hnext,
            follow_succ_of_lookup_eq_none (hname ▸ Option.map_eq_none_iff.1 hlookup), Option.map_some,
            Option.map_some, hname]
      | some next =>
          rw [hnext] at hlookup
          obtain ⟨next', hnext', hnames⟩ := Option.map_eq_some_iff.1 hlookup
          rw [follow_succ_of_lookup_eq_some hnext,
            follow_succ_of_lookup_eq_some (hname ▸ hnext')]
          exact ih hnames

theorem map_name_final?_of_perm {t t' : NodeType} (hname : t'.name = t.name) :
    (u'.final? t').map NodeType.name = (u.final? t).map NodeType.name := by
  -- The tables may allow walks of different lengths, so the walks are compared and not the limits.
  refine Option.ext fun name => ?_
  simp only [Option.map_eq_some_iff, final?_eq_some_iff]
  constructor
  · rintro ⟨last', ⟨n, hn⟩, rfl⟩
    have hfollow := map_name_follow_of_perm h hu hu' n hname
    rw [hn] at hfollow
    obtain ⟨last, hlast, hnames⟩ := Option.map_eq_some_iff.1 hfollow.symm
    exact ⟨last, ⟨n, hlast⟩, hnames⟩
  · rintro ⟨last, ⟨n, hn⟩, rfl⟩
    have hfollow := map_name_follow_of_perm h hu hu' n hname
    rw [hn] at hfollow
    obtain ⟨last', hlast', hnames⟩ := Option.map_eq_some_iff.1 hfollow
    exact ⟨last', ⟨n, hlast'⟩, hnames⟩

/-- In another order of the declarations names lead to the same names. -/
theorem finalName?_of_perm (name : String) : u'.finalName? name = u.finalName? name := by
  rw [finalName?_eq, finalName?_eq]
  exact map_name_final?_of_perm h hu hu' rfl

/-! ## Settled types -/

variable {settled : List NodeType} (hsettle : u.settle declared = .ok settled)
include hsettle

/-- In another order of the declarations each of them leads to the same type. -/
theorem final?_of_perm {t : NodeType} (ht : t ∈ declared) : u'.final? t = u.final? t := by
  obtain ⟨last, hlast⟩ := exists_final?_of_settle hsettle ht
  have hnames : (u'.final? t).map NodeType.name = (u.final? t).map NodeType.name :=
    map_name_final?_of_perm h hu hu' rfl
  rw [hlast] at hnames
  obtain ⟨last', hlast', hname⟩ := Option.map_eq_some_iff.1 hnames
  -- The end of the other chain is a declaration that nothing upgrades, so it is settled as well.
  have hmem : last' ∈ declared := by
    rcases mem_of_follow hlast' with rfl | ⟨x, hx⟩
    · exact ht
    · exact h.mem_iff.1 (mem_of_lookup_ofTypes hu' hx).1
  have hend : u.lookup last'.name = none := by
    have hlookup := map_name_lookup_of_perm h hu hu' last'.name
    rw [lookup_of_follow hlast'] at hlookup
    exact Option.map_eq_none_iff.1 hlookup.symm
  have hin := mem_settle_of_final? hsettle ht hlast
  have hin' := mem_settle_of_final? hsettle hmem (final?_of_lookup_eq_none hend)
  rw [hlast', hlast, List.inj_on_of_nodup_map (nodup_names_of_settle hsettle) hin' hin hname]

end Tables

/-- Declarations can be settled that lead to types of different names. -/
theorem exists_settle {u : Upgrades} {types ends : List NodeType}
    (hnodup : (ends.map NodeType.name).Nodup)
    (hends : ∀ t ∈ types, ∃ last ∈ ends, u.final? t = some last) :
    ∃ settled, u.settle types = .ok settled := by
  -- The list settled so far has only types among the ends, so a second type of one name is the same.
  have hfold : ∀ done : List NodeType, done ⊆ ends →
      ∃ settled, types.foldlM u.settleStep done = .ok settled := by
    induction types with
    | nil => exact fun done _ => ⟨done, rfl⟩
    | cons t ts ih =>
        intro done hdone
        obtain ⟨last, hlast, hfinal⟩ := hends t List.mem_cons_self
        obtain ⟨next, hadmit, hnext⟩ : ∃ next, admitType done last = .ok next ∧ next ⊆ ends := by
          rw [admitType]
          cases hfind : done.find? (·.name == last.name) with
          | none =>
              refine ⟨_, rfl, List.append_subset.2 ⟨hdone, fun s hs => ?_⟩⟩
              rwa [List.mem_singleton.1 hs]
          | some known =>
              have hname : known.name = last.name := by simpa using List.find?_some hfind
              have hknown := hdone (List.mem_of_find?_eq_some hfind)
              exact ⟨done, if_pos (List.inj_on_of_nodup_map hnodup hknown hlast hname), hdone⟩
        obtain ⟨settled, hsettled⟩ := ih (fun s hs => hends s (List.mem_cons_of_mem t hs)) next hnext
        refine ⟨settled, ?_⟩
        rw [List.foldlM_cons, settleStep_of_final?_eq_some hfinal]
        exact Except.bind_eq_ok_iff.2 ⟨next, hadmit, hsettled⟩
  exact hfold [] (List.nil_subset ends)

/-- Declarations can be settled in another order too, to the same types in some order. -/
theorem exists_settle_of_perm {declared declared' settled : List NodeType} {u u' : Upgrades}
    (h : declared'.Perm declared) (hu : ofTypes declared = .ok u) (hu' : ofTypes declared' = .ok u')
    (hsettle : u.settle declared = .ok settled) :
    ∃ settled', u'.settle declared' = .ok settled' ∧ settled'.Perm settled := by
  have hnodup := nodup_names_of_settle hsettle
  have hfinal : ∀ t ∈ declared, u'.final? t = u.final? t := fun t ht =>
    final?_of_perm h hu hu' hsettle ht
  obtain ⟨settled', hsettle'⟩ : ∃ settled', u'.settle declared' = .ok settled' := by
    refine exists_settle hnodup fun t ht => ?_
    have ht' := h.mem_iff.1 ht
    obtain ⟨last, hlast⟩ := exists_final?_of_settle hsettle ht'
    exact ⟨last, mem_settle_of_final? hsettle ht' hlast, (hfinal t ht').trans hlast⟩
  refine ⟨settled', hsettle', ?_⟩
  refine (List.perm_ext_iff_of_nodup (nodup_names_of_settle hsettle').of_map hnodup.of_map).2
    fun s => ⟨fun hs => ?_, fun hs => ?_⟩
  · obtain ⟨t, ht, hlast⟩ := final?_of_settle hsettle' s hs
    have ht' := h.mem_iff.1 ht
    exact mem_settle_of_final? hsettle ht' ((hfinal t ht').symm.trans hlast)
  · obtain ⟨t, ht, hlast⟩ := final?_of_settle hsettle s hs
    exact mem_settle_of_final? hsettle' (h.mem_iff.2 ht) ((hfinal t ht).trans hlast)

end Upgrades

/-- The only start type is the same in another order. -/
theorem uniqueStart_of_perm {types types' : List NodeType} {start : String}
    (h : types'.Perm types) (hstart : uniqueStart types = .ok start) :
    uniqueStart types' = .ok start := by
  have hfilter := h.filter NodeType.isStart
  rw [uniqueStart] at hstart
  split at hstart
  · rename_i t ht
    rw [ht] at hfilter
    rw [uniqueStart, List.perm_singleton.1 hfilter]
    exact hstart
  · exact absurd hstart (by simp)

end SmallLang
