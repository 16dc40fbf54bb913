import SmallLang.Proofs.Assembly.Succeeds

/-!
# The terminals of a lowered grammar

Lowering succeeds where terminals of one key are the same (`Naming.lowerAll_succeeds`). Conversely, where
it succeeds, no two terminals of the grammar have one key, and each rule has what it needs with the
terminals of the grammar as the pool (`Naming.lowers_of_lowerAll`). So whether lowering succeeds does not
depend on the order in which it meets the terminals.
-/

set_option autoImplicit false

namespace SmallLang

theorem Terminal.sameKey_comm (s t : Terminal) : s.sameKey t = t.sameKey s := by
  cases s <;> cases t <;> simp only [sameKey, Bool.beq_comm]

namespace Arena

/-- No two terminals have one key. -/
def Keyed (a : Arena) : Prop := a.terminals.Pairwise fun s t => s.sameKey t = false

theorem keyed_empty : Keyed .empty := List.Pairwise.nil

variable {a a' : Arena}

/-- The terminals of such an arena are a pool that it is from. -/
theorem Keyed.consistent (h : a.Keyed) : Consistent (· ∈ a.terminals) := by
  have hfirst : a.terminals.Pairwise fun s t => s.sameKey t = true → s = t :=
    h.imp fun {s t} hdiffer hkey => absurd hkey (by simp [hdiffer])
  have hflip : a.terminals.Pairwise (flip fun s t => s.sameKey t = true → s = t) :=
    hfirst.imp fun {s t} heq hkey => (heq (Terminal.sameKey_comm t s ▸ hkey)).symm
  intro s t hs ht
  exact hfirst.forall_of_forall_of_flip (fun _ _ _ => rfl) hflip hs ht

theorem Keyed.among (h : a.Keyed) : a.Among (· ∈ a.terminals) := by
  refine ⟨fun t ht => ht, h.imp fun {s t} hdiffer heq => ?_⟩
  rw [heq, sameKey_self] at hdiffer
  exact absurd hdiffer (by simp)

/-- A key is that of one number only. -/
theorem Keyed.eq_of_sameKey (h : a.Keyed) {i j : Nat} {s t : Terminal} (hi : a.get? i = some s)
    (hj : a.get? j = some t) (hkey : s.sameKey t = true) : i = j := by
  obtain ⟨hi', rfl⟩ := List.getElem?_eq_some_iff.1 hi
  obtain ⟨hj', rfl⟩ := List.getElem?_eq_some_iff.1 hj
  have hpairs := List.pairwise_iff_getElem.1 h
  rcases Nat.lt_trichotomy i j with hlt | heq | hlt
  · rw [hpairs i j hi' hj' hlt] at hkey
    exact Bool.noConfusion hkey
  · exact heq
  · rw [Terminal.sameKey_comm, hpairs j i hj' hi' hlt] at hkey
    exact Bool.noConfusion hkey

theorem Keyed.intern (h : a.Keyed) {t : Terminal} {i : Nat} (hi : a.intern t = .ok (i, a')) :
    a'.Keyed ∧ t ∈ a'.terminals := by
  rw [Arena.intern] at hi
  split at hi
  · rename_i hnone
    obtain ⟨-, rfl⟩ : a.size = i ∧ Arena.mk (a.terminals ++ [t]) = a' := by simpa using hi
    refine ⟨List.pairwise_append.2 ⟨h, List.pairwise_singleton _ _, fun s hs u hu => ?_⟩,
      List.mem_append_right _ (List.mem_singleton.2 rfl)⟩
    rw [List.mem_singleton.1 hu, Terminal.sameKey_comm]
    exact List.findIdx?_eq_none_iff.1 hnone s hs
  · rename_i j hsome
    split at hi
    · rename_i hget
      obtain ⟨-, rfl⟩ : j = i ∧ a = a' := by simpa using hi
      exact ⟨h, List.mem_of_getElem? hget⟩
    · exact absurd hi (by simp)

end Arena

/-- The step keeps an arena in which no two terminals have one key such an arena, and where it succeeds,
`P` holds of every pool with all terminals by then. -/
def Lower.Shows {α : Type} (x : Lower α) (P : (Terminal → Prop) → Prop) : Prop :=
  ∀ a v a', a.Keyed → x a = .ok (v, a') →
    a'.Keyed ∧ a.Extends a' ∧ ∀ pool, (∀ t ∈ a'.terminals, pool t) → P pool

namespace Lower

variable {α β : Type} {P Q : (Terminal → Prop) → Prop}

theorem Shows.imp {x : Lower α} (hx : x.Shows P) (h : ∀ pool, P pool → Q pool) : x.Shows Q := by
  intro a v a' ha hv
  obtain ⟨ha', hextends, hP⟩ := hx a v a' ha hv
  exact ⟨ha', hextends, fun pool hpool => h pool (hP pool hpool)⟩

theorem shows_pure (v : α) (hP : ∀ pool, P pool) : Lower.Shows (pure v) P := by
  intro a w a' ha h
  obtain ⟨-, rfl⟩ := Prod.mk.inj (Except.ok.inj h)
  exact ⟨ha, Arena.Extends.refl a, fun pool _ => hP pool⟩

theorem shows_throw (err : AssemblyError) : Lower.Shows (throw err : Lower α) P := by
  intro a v a' _ h
  exact absurd h (by simp [throw, throwThe, MonadExceptOf.throw, StateT.lift, bind, Except.bind])

theorem shows_lift (x : Except AssemblyError α) :
    Lower.Shows (monadLift x : Lower α) fun _ => ∃ v, x = .ok v := by
  intro a v a' ha h
  cases x with
  | error err =>
      exact absurd h (by simp [monadLift, MonadLift.monadLift, StateT.lift, bind, Except.bind])
  | ok w =>
      obtain ⟨-, rfl⟩ : w = v ∧ a = a' := by
        simpa [monadLift, MonadLift.monadLift, StateT.lift, bind, Except.bind, pure,
          Except.pure] using h
      exact ⟨ha, Arena.Extends.refl a, fun _ _ => ⟨w, rfl⟩⟩

theorem Shows.bind {x : Lower α} {f : α → Lower β} (hx : x.Shows P) (hf : ∀ v, (f v).Shows Q) :
    Lower.Shows (x >>= f) fun pool => P pool ∧ Q pool := by
  intro a w a'' ha h
  obtain ⟨⟨v, a'⟩, hv, hw⟩ := Except.bind_eq_ok_iff.1 h
  obtain ⟨ha', haa', hP⟩ := hx a v a' ha hv
  obtain ⟨ha'', haa'', hQ⟩ := hf v a' w a'' ha' hw
  -- A pool with all terminals at the end has those that were there in between.
  refine ⟨ha'', haa'.trans haa'', fun pool hpool => ⟨hP pool fun t ht => ?_, hQ pool hpool⟩⟩
  exact hpool t (haa''.subset ht)

theorem Shows.map {x : Lower α} (hx : x.Shows P) (f : α → β) : Lower.Shows (f <$> x) P := by
  rw [map_eq_pure_bind]
  exact (hx.bind fun v => shows_pure (P := fun _ => True) (f v) fun _ => trivial).imp
    fun _ h => h.1

theorem shows_mapM {f : α → Lower β} {P : α → (Terminal → Prop) → Prop} (xs : List α)
    (h : ∀ x ∈ xs, (f x).Shows (P x)) :
    Lower.Shows (xs.mapM f) fun pool => ∀ x ∈ xs, P x pool := by
  induction xs with
  | nil => exact shows_pure [] fun _ x hx => absurd hx List.not_mem_nil
  | cons x xs ih =>
      simp only [List.mapM_cons]
      refine ((h x List.mem_cons_self).bind fun y =>
        ((ih fun x' hx' => h x' (List.mem_cons_of_mem x hx')).bind fun ys =>
          shows_pure (P := fun _ => True) _ fun _ => trivial)).imp fun pool hpool => ?_
      exact List.forall_mem_cons.2 ⟨hpool.1, hpool.2.1⟩

theorem shows_intern (t : Terminal) :
    Lower.Shows (fun arena => (arena.intern t).map fun (i, arena') => (Symbol.terminal i, arena'))
      fun pool => pool t := by
  intro a v a' ha h
  cases hintern : a.intern t with
  | error err => exact absurd h (by simp [hintern, Except.map])
  | ok found =>
      obtain ⟨i, a''⟩ := found
      simp only [hintern] at h
      obtain ⟨-, rfl⟩ : Symbol.terminal i = v ∧ a'' = a' := by simpa [Except.map] using h
      obtain ⟨hkeyed, hmem⟩ := ha.intern hintern
      exact ⟨hkeyed, (Arena.intern_eq_ok hintern).1, fun pool hpool => hpool t hmem⟩

end Lower

namespace Naming

variable (ns : Naming)

theorem shows_lowerType (owner name : String) :
    (ns.lowerType owner name).Shows fun _ => ∃ i, ns.typeNumber? name = some i := by
  rw [lowerType]
  cases ns.typeNumber? name with
  | none => exact Lower.shows_throw _
  | some i => exact Lower.shows_pure i fun _ => ⟨i, rfl⟩

theorem shows_lowerSym (owner : String) (s : Sym) :
    (ns.lowerSym owner s).Shows fun pool => ns.Resolves pool owner s := by
  induction s with
  | this =>
      simp only [lowerSym, Resolves]
      exact (ns.shows_lowerType owner owner).map Symbol.nonTerminal
  | node name =>
      simp only [lowerSym, Resolves]
      exact (ns.shows_lowerType owner name).map Symbol.nonTerminal
  | terminal t =>
      simp only [lowerSym, Resolves]
      exact Lower.shows_intern t
  | field name target default ih =>
      simp only [lowerSym, Resolves]
      exact ih

theorem shows_lowerElement (owner : String) (x : Element) :
    (ns.lowerElement owner x).Shows fun pool => ∀ s, x = .sym s → ns.Resolves pool owner s := by
  cases x with
  | sym s =>
      refine (ns.shows_lowerSym owner s).imp fun pool h s' heq => ?_
      rwa [← Element.sym.inj heq]
  | rest => exact Lower.shows_pure _ fun _ s h => absurd h (by simp)

theorem shows_lowerHead (owner : String) (head : Head) :
    (ns.lowerHead owner head).Shows fun _ => ∃ i, ns.headNumber? owner head = some i := by
  cases head with
  | this => exact ns.shows_lowerType owner owner
  | type name => exact ns.shows_lowerType owner name
  | rest => exact Lower.shows_pure _ fun _ => ⟨_, rfl⟩

theorem shows_lowerRule (t : NodeType) (r : Rule) :
    (ns.lowerRule t r).Shows fun pool => ns.Lowers pool t r := by
  have hbody := Lower.shows_mapM r.body fun x _ => ns.shows_lowerElement t.name x
  refine ((ns.shows_lowerHead t.name r.head).bind fun head => hbody.bind fun symbols =>
    (Lower.shows_lift (t.construction r)).bind fun construction =>
      Lower.shows_pure (P := fun _ => True) _ fun _ => trivial).imp ?_
  rintro pool ⟨hhead, hresolves, hconstruction, -⟩
  exact ⟨hhead, fun s hs => hresolves _ hs s rfl, hconstruction⟩

theorem shows_lowerNodeType (t : NodeType) :
    (ns.lowerNodeType t).Shows fun pool => ∀ r ∈ t.rules, ns.Lowers pool t r := by
  have hrules := Lower.shows_mapM t.rules fun r _ => ns.shows_lowerRule t r
  exact ((Lower.shows_lift t.checkFields).bind fun _ => hrules).imp fun _ h => h.2

variable {ns}

/-- Where lowering succeeds, no two terminals of the grammar have one key, and each rule has what it
needs. -/
theorem lowers_of_lowerAll {productions : List (Nat × Production)} {arena : Arena}
    (h : ns.lowerAll.run Arena.empty = .ok (productions, arena)) :
    arena.Keyed ∧ ∀ t ∈ ns.types, ∀ r ∈ t.rules, ns.Lowers (· ∈ arena.terminals) t r := by
  have htypes := Lower.shows_mapM ns.types fun t _ => ns.shows_lowerNodeType t
  have hall : ns.lowerAll.Shows fun pool => ∀ t ∈ ns.types, ∀ r ∈ t.rules, ns.Lowers pool t r :=
    (htypes.bind fun rows => Lower.shows_pure (P := fun _ => True) _ fun _ => trivial).imp
      fun _ h => h.1
  obtain ⟨hkeyed, -, hlowers⟩ := hall _ _ _ Arena.keyed_empty h
  exact ⟨hkeyed, hlowers _ fun t ht => ht⟩

end Naming

theorem keyed_of_lower {declared : List NodeType} {lowered : Lowered}
    (h : lower declared = .ok lowered) : lowered.grammar.arena.Keyed := by
  obtain ⟨ns, hmakes⟩ := lower_eq_ok h
  obtain ⟨productions, hrun⟩ := hmakes.exists_run h
  exact (Naming.lowers_of_lowerAll hrun).1

end SmallLang
