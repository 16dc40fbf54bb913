import SmallLang.Proofs.Operator.Staged

/-!
# What is left after all steps of stratification

Each step of stratification reads productions that the steps before it rewrote. Here its result is
said in terms of the grammar that the steps began with. A non-terminal whose turn has come and that
has a ladder is a climb and nothing else (`Staged.productionsOf_base_stage`); every other one keeps its
productions, except for those that declare an operator on a non-terminal before
(`Staged.production?_stage`). What a step adds stays as it is.

So the operators that the step of a non-terminal finds are declared productions, reached by units
through non-terminals that are not ladders yet (`Staged.mem_usesAt_iff`), and its atoms are climbs of
those that are, and the other productions on the way (`Staged.mem_atomsAt_iff`).
-/

set_option autoImplicit false

namespace SmallLang

namespace Grammar

/-! ## The step of a non-terminal -/

/-- The operators that the step of a non-terminal finds. -/
def usesAt (g : Grammar) (x : Nat) : List OperatorUse := (g.stage x).operatorsOn x

/-- The unit closure when the turn of the non-terminal comes. -/
def closureAt (g : Grammar) (x : Nat) : List Nat := (g.stage x).unitClosure x

/-- The atoms that the step of a non-terminal finds. -/
def atomsAt (g : Grammar) (x : Nat) : List Production := (g.stage x).atomsOf x

/-- The ladder that the step of a non-terminal makes. -/
def ladder (g : Grammar) (x : Nat) : Ladder := (g.stage x).ladderAt x

/-- The operators among them that another type declares. -/
def declaredAt (g : Grammar) (x : Nat) : List OperatorUse := (g.stage x).declaredOperators x

/-- The step of the non-terminal makes a ladder. -/
def HasLadder (g : Grammar) (x : Nat) : Prop := g.usesAt x ≠ []

/-- The non-terminal is no ladder after so many steps. -/
def Open (g : Grammar) (k m : Nat) : Prop := ¬ (g.HasLadder m ∧ m < k)

@[simp] theorem ladder_base (g : Grammar) (x : Nat) : (g.ladder x).base = x := rfl

theorem sorted_ladder (g : Grammar) (x : Nat) : (g.ladder x).Sorted := sorted_ladderAt _ x

theorem mem_levels_ladder_iff {g : Grammar} {x : Nat} {p : Int32} :
    p ∈ (g.ladder x).levels ↔ ∃ op ∈ g.usesAt x, op.prec.priority = p :=
  mem_levels_ladderAt_iff

theorem HasLadder.height_pos {g : Grammar} {x : Nat} (h : g.HasLadder x) :
    0 < (g.ladder x).height :=
  height_ladderAt_pos h

theorem HasLadder.of_level {g : Grammar} {x k : Nat} {p : Int32}
    (h : (g.ladder x).levels[k]? = some p) : g.HasLadder x := by
  obtain ⟨op, hop, -⟩ := mem_levels_ladder_iff.1 (List.mem_of_getElem? h)
  exact List.ne_nil_of_mem hop

theorem mem_declaredAt_iff {g : Grammar} {x : Nat} {op : OperatorUse} :
    op ∈ g.declaredAt x ↔ op ∈ g.usesAt x ∧ op.origin.isSome = true :=
  List.mem_filter

theorem Open.self (g : Grammar) (x : Nat) : g.Open x x := fun h => Nat.lt_irrefl x h.2

theorem Open.of_le {g : Grammar} {j k m : Nat} (h : g.Open k m) (hjk : j ≤ k) : g.Open j m :=
  fun hm => h ⟨hm.1, Nat.lt_of_lt_of_le hm.2 hjk⟩

theorem stage_succ_of_hasLadder {g : Grammar} {k : Nat} (h : ¬ g.HasLadder k) :
    g.stage (k + 1) = g.stage k := by
  rw [stage_succ]
  exact stratifyAt_of_eq_nil (Decidable.not_not.1 h)

theorem HasLadder.productionsOf_head {g : Grammar} {x k : Nat} (h : g.HasLadder x)
    (hx : x < (g.stage x).size) (hk : k < (g.ladder x).height) :
    (g.stage (x + 1)).productionsOf ((g.ladder x).head k) =
      [(g.ladder x).climbProduction k ((g.ladder x).tail k)] := by
  rw [stage_succ]
  rcases Nat.eq_zero_or_pos k with rfl | hpos
  · exact productionsOf_base h hx
  · exact Grammar.productionsOf_head h hpos hk

/-! ## Rewriting a production -/

/-- What becomes of a production in so many steps, if its non-terminal gets no ladder. -/
def arranged (g : Grammar) (k m i : Nat) (q : Production) : Production :=
  (List.range k).foldl (fun p x => keptProduction (g.ladder x) (g.usesAt x) m i p) q

@[simp] theorem arranged_zero (g : Grammar) (m i : Nat) (q : Production) :
    g.arranged 0 m i q = q := rfl

theorem arranged_succ (g : Grammar) (k m i : Nat) (q : Production) :
    g.arranged (k + 1) m i q =
      keptProduction (g.ladder k) (g.usesAt k) m i (g.arranged k m i q) := by
  rw [arranged, List.range_succ, List.foldl_append]
  rfl

/-- A step has found the production as the `j`-th operator that another type declares. -/
structure Finds (g : Grammar) (x m i j : Nat) (op : OperatorUse) : Prop where
  getElem? : (g.declaredAt x)[j]? = some op
  origin : op.origin = some (m, i)

/-- The production became an operand and then the `j`-th operator of the ladder. -/
def forcedProduction (g : Grammar) (x j : Nat) (op : OperatorUse) : Production :=
  (g.ladder x).climbProduction ((g.ladder x).levelOf op.prec.priority) ((g.ladder x).forced j)

theorem Finds.mem_usesAt {g : Grammar} {x m i j : Nat} {op : OperatorUse} (h : g.Finds x m i j op) :
    op ∈ g.usesAt x :=
  (mem_declaredAt_iff.1 (List.mem_of_getElem? h.getElem?)).1

theorem exists_finds {g : Grammar} {x m i : Nat} {op : OperatorUse} (hop : op ∈ g.usesAt x)
    (ho : op.origin = some (m, i)) : ∃ j, g.Finds x m i j op := by
  have hmem : op ∈ g.declaredAt x := mem_declaredAt_iff.2 ⟨hop, by rw [ho]; rfl⟩
  obtain ⟨j, hj⟩ := List.mem_iff_getElem?.1 hmem
  exact ⟨j, hj, ho⟩

/-- A production stays as it was, unless a step finds it as an operator. -/
theorem arranged_cases (g : Grammar) (k m i : Nat) (q : Production) :
    (g.arranged k m i q = q ∧ ∀ x < k, ∀ j op, ¬ g.Finds x m i j op) ∨
      ∃ x < k, ∃ j op, g.Finds x m i j op ∧ g.arranged k m i q = g.forcedProduction x j op := by
  induction k with
  | zero => exact Or.inl ⟨rfl, fun x hx => absurd hx (Nat.not_lt_zero x)⟩
  | succ k ih =>
      rw [arranged_succ]
      by_cases hfound : ∃ j op, g.Finds k m i j op
      · obtain ⟨j, op, hfinds⟩ := hfound
        obtain ⟨j', op', hop', ho', heq⟩ :=
          keptProduction_of_origin hfinds.mem_usesAt hfinds.origin (g.arranged k m i q)
        exact Or.inr ⟨k, Nat.lt_succ_self k, j', op', ⟨hop', ho'⟩, heq⟩
      · have hkept : keptProduction (g.ladder k) (g.usesAt k) m i (g.arranged k m i q) =
            g.arranged k m i q := by
          rcases keptProduction_cases (g.stage k) k m i (g.arranged k m i q) with
            heq | ⟨j, op, hop, ho, -⟩
          · exact heq
          · exact absurd ⟨j, op, hop, ho⟩ hfound
        rw [hkept]
        rcases ih with ⟨heq, hnone⟩ | ⟨x, hx, j, op, hfinds, heq⟩
        · refine Or.inl ⟨heq, fun x hx j op hfinds => ?_⟩
          rcases Nat.lt_succ_iff_lt_or_eq.1 hx with hx | rfl
          · exact hnone x hx j op hfinds
          · exact hfound ⟨j, op, hfinds⟩
        · exact Or.inr ⟨x, Nat.lt_succ_of_lt hx, j, op, hfinds, heq⟩

namespace Staged

variable {types : Nat} {g : Grammar} (h : g.Staged types g.size)
include h

/-! ## What stays -/

/-- Before the first step nothing climbs. -/
theorem declared_of_mem {i : Nat} {p : Production} (hp : p ∈ g.productionsOf i) :
    p.Declared types g.size i := by
  obtain ⟨j, hj⟩ := mem_productionsOf_iff.1 hp
  rcases h.declared i (lt_size_of_production? hj) p hp with hd | ⟨-, -, a, b, hsymbols, ha, -⟩
  · exact hd
  · have hlt : a < g.size := h.hasSymbol i p hp (.nonTerminal a) (by simp [hsymbols])
    exact absurd hlt (Nat.not_lt.2 ha)

theorem size_le_stage {k : Nat} (hk : k ≤ g.size) : g.size ≤ (g.stage k).size :=
  (h.stage hk).size_le

theorem lt_size_stage {x k : Nat} (hx : x < g.size) (hk : k ≤ g.size) : x < (g.stage k).size :=
  Nat.lt_of_lt_of_le hx (h.size_le_stage hk)

omit h in
theorem size_stage_mono {j k : Nat} (hjk : j ≤ k) : (g.stage j).size ≤ (g.stage k).size := by
  induction hjk with
  | refl => exact Nat.le_refl _
  | @step k _ ih =>
      refine Nat.le_trans ih ?_
      rw [stage_succ]
      by_cases hops : (g.stage k).operatorsOn k = []
      · rw [stratifyAt_of_eq_nil hops]
      · exact size_le_stratifyAt hops

/-- The step of a non-terminal finds only types as operators on it. -/
theorem lt_of_finds {x m i j : Nat} {op : OperatorUse} (hx : x < g.size)
    (hfinds : g.Finds x m i j op) : m < types := by
  obtain ⟨p, hm, hp, hisop, -, -⟩ := exists_of_origin hfinds.mem_usesAt hfinds.origin
  exact ((h.stage (Nat.le_of_lt hx)).declared_of_isOperatorOn hx hm
    (mem_productionsOf_iff.2 ⟨i, hp⟩) hisop).2.2

/-- What the step of a non-terminal adds stays as it is. -/
theorem productionsOf_stage {j k nt : Nat} (hjk : j ≤ k) (hk : k ≤ g.size) (hnt : g.size ≤ nt)
    (hlt : nt < (g.stage j).size) :
    (g.stage k).productionsOf nt = (g.stage j).productionsOf nt := by
  induction hjk with
  | refl => rfl
  | @step k hjk ih =>
      have hk' := Nat.le_of_succ_le hk
      rw [stage_succ, (h.stage hk').productionsOf_stratifyAt_of_le hk hnt
        (Nat.lt_of_lt_of_le hlt (size_stage_mono hjk)), ih hk']

/-- An operand has a number that no step is for. -/
theorem not_isOperatorOn_climb {x y k next : Nat} (hx : g.HasLadder x) (hxs : x < g.size)
    (hy : y < g.size) : ((g.ladder x).climbProduction k next).isOperatorOn y = false := by
  have hbound : (g.stage x).size ≤ (g.ladder x).operand k := (operand_bounds hx).1
  have hsize := h.size_le_stage (Nat.le_of_lt hxs)
  have hne : (g.ladder x).operand k ≠ y := by omega
  exact beq_eq_false_iff_ne.2 hne

/-- A ladder stays a climb. -/
theorem productionsOf_base_stage {x k : Nat} (hx : g.HasLadder x) (hxk : x < k) (hk : k ≤ g.size) :
    (g.stage k).productionsOf x = [(g.ladder x).climbProduction 0 ((g.ladder x).tail 0)] := by
  have hxs : x < g.size := Nat.lt_of_lt_of_le hxk hk
  induction hxk with
  | refl => exact hx.productionsOf_head (h.lt_size_stage hxs (Nat.le_of_lt hxs)) hx.height_pos
  | @step k hxk ih =>
      have hks : k < g.size := hk
      have hne : x ≠ k := Nat.ne_of_lt hxk
      have hbase := ih (Nat.le_of_lt hks)
      rw [stage_succ]
      refine List.ext_getElem? fun i => ?_
      show ((g.stage k).stratifyAt k).production? x i = _
      rw [production?_stratifyAt (h.lt_size_stage hxs (Nat.le_of_lt hks)) (Or.inl hne),
        production?, hbase]
      have hid : ∀ p, [(g.ladder x).climbProduction 0 ((g.ladder x).tail 0)][i]? = some p →
          keptProduction ((g.stage k).ladderAt k) ((g.stage k).operatorsOn k) x i p = p := by
        intro p hp
        rcases keptProduction_cases (g.stage k) k x i p with heq | ⟨j, op, hop, ho, -⟩
        · exact heq
        · -- A climb begins with a number that no step is for.
          exfalso
          have hfinds : g.Finds k x i j op := ⟨hop, ho⟩
          obtain ⟨p', -, hp', hisop, -, -⟩ := exists_of_origin hfinds.mem_usesAt hfinds.origin
          have hmem : p' ∈ (g.stage k).productionsOf x := mem_productionsOf_iff.2 ⟨i, hp'⟩
          rw [hbase] at hmem
          rw [List.mem_singleton.1 hmem, h.not_isOperatorOn_climb hx hxs hks] at hisop
          exact absurd hisop Bool.false_ne_true
      cases hget : [(g.ladder x).climbProduction 0 ((g.ladder x).tail 0)][i]? with
      | none => rfl
      | some p => rw [Option.map_some, hid p hget]

/-- A non-terminal that is no ladder has its declared productions, each rewritten if a step found
it as an operator. -/
theorem production?_stage {k m : Nat} (hk : k ≤ g.size) (hm : m < g.size) (hopen : g.Open k m)
    (i : Nat) : (g.stage k).production? m i = (g.production? m i).map (g.arranged k m i) := by
  induction k with
  | zero =>
      have hid : g.arranged 0 m i = id := rfl
      rw [stage_zero, hid, Option.map_id, id]
  | succ k ih =>
      have hne : m ≠ k ∨ (g.stage k).operatorsOn k = [] := by
        by_contra hno
        rw [not_or, not_not] at hno
        obtain ⟨rfl, hops⟩ := hno
        exact hopen ⟨hops, Nat.lt_succ_self m⟩
      rw [stage_succ, production?_stratifyAt (h.lt_size_stage hm (Nat.le_of_succ_le hk)) hne,
        ih (Nat.le_of_succ_le hk) (hopen.of_le (Nat.le_succ k)), Option.map_map]
      refine congrArg (Option.map · _) (funext fun q => ?_)
      exact (arranged_succ g k m i q).symm

/-! ## What a step finds -/

/-- A production that is not a climb was declared, and its non-terminal is no ladder. -/
theorem original_of_stage {k m i : Nat} {p : Production} (hk : k ≤ g.size) (hm : m < g.size)
    (hp : (g.stage k).production? m i = some p) (hc : p.construction ≠ .climb) :
    g.Open k m ∧ g.production? m i = some p := by
  have hopen : g.Open k m := by
    rintro ⟨hladder, hmk⟩
    have hmem : p ∈ (g.stage k).productionsOf m := mem_productionsOf_iff.2 ⟨i, hp⟩
    rw [h.productionsOf_base_stage hladder hmk hk] at hmem
    rw [List.mem_singleton.1 hmem] at hc
    exact hc rfl
  refine ⟨hopen, ?_⟩
  rw [h.production?_stage hk hm hopen] at hp
  obtain ⟨q, hq, heq⟩ := Option.map_eq_some_iff.1 hp
  rcases g.arranged_cases k m i q with ⟨hsame, -⟩ | ⟨x, -, j, op, -, hforced⟩
  · rw [← heq, hsame]
    exact hq
  · rw [← heq, hforced] at hc
    exact absurd rfl hc

theorem original_of_isOperatorOn {k m i y : Nat} {p : Production} (hk : k ≤ g.size)
    (hm : m < g.size) (hy : y < g.size) (hp : (g.stage k).production? m i = some p)
    (hisop : p.isOperatorOn y = true) : g.Open k m ∧ g.production? m i = some p :=
  h.original_of_stage hk hm hp
    ((h.stage hk).construction_ne_climb hy hm (mem_productionsOf_iff.2 ⟨i, hp⟩) hisop)

/-- What a step finds is a declared production that begins with the non-terminal of the step. -/
theorem exists_of_finds {x m i j : Nat} {op : OperatorUse} (hx : x < g.size)
    (hfinds : g.Finds x m i j op) :
    ∃ q, m ∈ g.closureAt x ∧ g.Open x m ∧ g.production? m i = some q ∧ q.isOperatorOn x = true ∧
      m ≠ x ∧ op = operatorUse x m i q := by
  obtain ⟨q, hm, hq, hisop, hne, rfl⟩ := exists_of_origin hfinds.mem_usesAt hfinds.origin
  have hms : m < g.size := Nat.lt_of_lt_of_le (h.lt_of_finds hx hfinds) h.types_le
  obtain ⟨hopen, hq⟩ := h.original_of_isOperatorOn (Nat.le_of_lt hx) hms hx hq hisop
  exact ⟨q, hm, hopen, hq, hisop, hne, rfl⟩

/-- No step finds a production that only hands on a non-terminal. -/
theorem arranged_of_unitTarget? {k m i target : Nat} {q : Production} (hk : k ≤ g.size)
    (hq : g.production? m i = some q) (ht : q.unitTarget? = some target) :
    g.arranged k m i q = q := by
  rcases g.arranged_cases k m i q with ⟨heq, -⟩ | ⟨x, hx, j, op, hfinds, -⟩
  · exact heq
  · obtain ⟨q', -, -, hq', hisop, -⟩ := h.exists_of_finds (Nat.lt_of_lt_of_le hx hk) hfinds
    obtain rfl : q = q' := Option.some.inj (hq.symm.trans hq')
    rw [Production.unitTarget?_of_isOperatorOn hisop] at ht
    exact absurd ht (by simp)

/-- No other step finds a production that begins with a non-terminal. -/
theorem arranged_of_isOperatorOn {k m i y : Nat} {q : Production} (hk : k ≤ g.size)
    (hq : g.production? m i = some q) (hisop : q.isOperatorOn y = true) :
    g.arranged k m i q = q ∨
      y < k ∧ ∃ j op, g.Finds y m i j op ∧ g.arranged k m i q = g.forcedProduction y j op := by
  rcases g.arranged_cases k m i q with ⟨heq, -⟩ | ⟨x, hx, j, op, hfinds, heq⟩
  · exact Or.inl heq
  · obtain ⟨q', -, -, hq', hisop', -⟩ := h.exists_of_finds (Nat.lt_of_lt_of_le hx hk) hfinds
    obtain rfl : q = q' := Option.some.inj (hq.symm.trans hq')
    obtain rfl := Production.eq_of_isOperatorOn hisop hisop'
    exact Or.inr ⟨hx, j, op, hfinds, heq⟩

/-- What a step found is a forced production after it. -/
theorem exists_forcedProduction {k x m i j : Nat} {op : OperatorUse} {q : Production}
    (hk : k ≤ g.size) (hxk : x < k) (hq : g.production? m i = some q)
    (hfinds : g.Finds x m i j op) :
    ∃ j', g.Finds x m i j' op ∧ g.arranged k m i q = g.forcedProduction x j' op := by
  have hxs := Nat.lt_of_lt_of_le hxk hk
  obtain ⟨q', -, -, hq', hisop, -, rfl⟩ := h.exists_of_finds hxs hfinds
  obtain rfl : q = q' := Option.some.inj (hq.symm.trans hq')
  rcases g.arranged_cases k m i q with ⟨-, hnone⟩ | ⟨y, hy, j', op', hfinds', heq⟩
  · exact absurd hfinds (hnone x hxk j _)
  · obtain ⟨q', -, -, hq', hisop', -, rfl⟩ :=
      h.exists_of_finds (Nat.lt_of_lt_of_le hy hk) hfinds'
    obtain rfl : q = q' := Option.some.inj (hq.symm.trans hq')
    obtain rfl := Production.eq_of_isOperatorOn hisop hisop'
    exact ⟨j', hfinds', heq⟩

/-- Units lead on from what is no ladder yet. -/
theorem unitStep_stage_iff {k m target : Nat} (hk : k ≤ g.size) (hm : m < g.size) :
    (g.stage k).UnitStep m target ↔ g.Open k m ∧ g.UnitStep m target := by
  constructor
  · rintro ⟨p, hp, ht, -⟩
    obtain ⟨i, hi⟩ := mem_productionsOf_iff.1 hp
    obtain ⟨-, hc⟩ := Production.unitTarget?_eq_some_iff.1 ht
    obtain ⟨hopen, hq⟩ := h.original_of_stage hk hm hi (by rw [hc]; simp)
    have hmem : p ∈ g.productionsOf m := mem_productionsOf_iff.2 ⟨i, hq⟩
    exact ⟨hopen, p, hmem, ht, Nat.lt_of_lt_of_le (h.lt_of_unitTarget? hm hmem ht).2 h.types_le⟩
  · rintro ⟨hopen, q, hq, ht, hlt⟩
    obtain ⟨i, hi⟩ := mem_productionsOf_iff.1 hq
    refine ⟨q, mem_productionsOf_iff.2 ⟨i, ?_⟩, ht, h.lt_size_stage hlt hk⟩
    rw [h.production?_stage hk hm hopen, hi, Option.map_some, h.arranged_of_unitTarget? hk hi ht]

theorem lt_of_mem_closureAt {x m : Nat} (hx : x < g.size) (hm : m ∈ g.closureAt x) : m < g.size := by
  rcases (h.stage (Nat.le_of_lt hx)).mem_unitClosure hx hm with rfl | ⟨-, hlt⟩
  · exact hx
  · exact Nat.lt_of_lt_of_le hlt h.types_le

omit h in
theorem self_mem_closureAt (g : Grammar) (x : Nat) : x ∈ g.closureAt x :=
  self_mem_unitClosure _ x

theorem mem_closureAt_of_unitStep {x m target : Nat} (hx : x < g.size) (hm : m ∈ g.closureAt x)
    (hopen : g.Open x m) (hstep : g.UnitStep m target) : target ∈ g.closureAt x := by
  refine mem_unitClosure_iff.2 ((mem_unitClosure_iff.1 hm).tail ?_)
  exact (h.unitStep_stage_iff (Nat.le_of_lt hx) (h.lt_of_mem_closureAt hx hm)).2 ⟨hopen, hstep⟩

/-- What holds of the non-terminal, and passes along units from what is no ladder yet, holds of the
closure. -/
theorem closureAt_induction {x m : Nat} (hx : x < g.size) (hm : m ∈ g.closureAt x)
    {motive : Nat → Prop} (self : motive x)
    (step : ∀ a b, a ∈ g.closureAt x → g.Open x a → g.UnitStep a b → motive a → motive b) :
    motive m := by
  have hpath := mem_unitClosure_iff.1 hm
  clear hm
  induction hpath with
  | refl => exact self
  | @tail a b hpath hab ih =>
      have ha : a ∈ g.closureAt x := mem_unitClosure_iff.2 hpath
      obtain ⟨hopen, hunit⟩ :=
        (h.unitStep_stage_iff (Nat.le_of_lt hx) (h.lt_of_mem_closureAt hx ha)).1 hab
      exact step a b ha hopen hunit ih

/-- The operators that a step finds are declared productions that begin with the non-terminal of the
step. -/
theorem mem_usesAt_iff {x : Nat} {op : OperatorUse} (hx : x < g.size) :
    op ∈ g.usesAt x ↔
      ∃ m i q, m ∈ g.closureAt x ∧ g.Open x m ∧ g.production? m i = some q ∧
        q.isOperatorOn x = true ∧ op = operatorUse x m i q := by
  constructor
  · intro hop
    obtain ⟨m, i, q, hm, hq, hisop, rfl⟩ := mem_operatorsOn_iff.1 hop
    obtain ⟨hopen, hq⟩ := h.original_of_isOperatorOn (Nat.le_of_lt hx)
      (h.lt_of_mem_closureAt hx hm) hx hq hisop
    exact ⟨m, i, q, hm, hopen, hq, hisop, rfl⟩
  · rintro ⟨m, i, q, hm, hopen, hq, hisop, rfl⟩
    refine mem_operatorsOn_iff.2 ⟨m, i, q, hm, ?_, hisop, rfl⟩
    rw [h.production?_stage (Nat.le_of_lt hx) (h.lt_of_mem_closureAt hx hm) hopen, hq,
      Option.map_some]
    rcases h.arranged_of_isOperatorOn (Nat.le_of_lt hx) hq hisop with heq | ⟨hlt, -⟩
    · rw [heq]
    · exact absurd hlt (Nat.lt_irrefl x)

/-- A production that stands among the atoms of a step was declared as neither an operator nor a unit. -/
theorem original_of_atom {x m i : Nat} {q : Production} (hx : x < g.size) (hm : m ∈ g.closureAt x)
    (hopen : g.Open x m) (hq : g.production? m i = some q)
    (hisop : (g.arranged x m i q).isOperatorOn x = false)
    (hunit : ∀ target, (g.arranged x m i q).unitTarget? = some target → target ∉ g.closureAt x) :
    q.isOperatorOn x = false ∧ q.unitTarget? = none := by
  have hxle := Nat.le_of_lt hx
  constructor
  · by_contra htrue
    rw [Bool.not_eq_false] at htrue
    rcases h.arranged_of_isOperatorOn hxle hq htrue with heq | ⟨hlt, -⟩
    · rw [heq, htrue] at hisop
      exact absurd hisop (by simp)
    · exact absurd hlt (Nat.lt_irrefl x)
  · cases ht : q.unitTarget? with
    | none => rfl
    | some target =>
        rw [h.arranged_of_unitTarget? hxle hq ht] at hunit
        have hqmem : q ∈ g.productionsOf m := mem_productionsOf_iff.2 ⟨i, hq⟩
        have hms := h.lt_of_mem_closureAt hx hm
        have hlt := Nat.lt_of_lt_of_le (h.lt_of_unitTarget? hms hqmem ht).2 h.types_le
        exact absurd (h.mem_closureAt_of_unitStep hx hm hopen ⟨q, hqmem, ht, hlt⟩) (hunit target ht)

/-- The climb of a ladder in the closure is among the atoms. -/
theorem climb_mem_atomsAt {x m : Nat} (hx : x < g.size) (hm : m ∈ g.closureAt x)
    (hladder : g.HasLadder m) (hlt : m < x) :
    (g.ladder m).climbProduction 0 ((g.ladder m).tail 0) ∈ g.atomsAt x := by
  refine mem_atomsOf_iff.2 ⟨m, hm, ?_, ?_, ?_⟩
  · rw [h.productionsOf_base_stage hladder hlt (Nat.le_of_lt hx)]
    exact List.mem_singleton.2 rfl
  · exact h.not_isOperatorOn_climb hladder (Nat.lt_trans hlt hx) hx
  · intro target ht
    exact absurd (Production.unitTarget?_eq_some_iff.1 ht).2 (by simp [Ladder.climbProduction])

/-- What is declared as neither an operator nor a unit is among the atoms, as the steps before arrange
it. -/
theorem arranged_mem_atomsAt {x m i : Nat} {q : Production} (hx : x < g.size)
    (hm : m ∈ g.closureAt x) (hopen : g.Open x m) (hq : g.production? m i = some q)
    (hisop : q.isOperatorOn x = false) (hunit : q.unitTarget? = none) :
    g.arranged x m i q ∈ g.atomsAt x := by
  have hmem : g.arranged x m i q ∈ (g.stage x).productionsOf m := by
    refine mem_productionsOf_iff.2 ⟨i, ?_⟩
    rw [h.production?_stage (Nat.le_of_lt hx) (h.lt_of_mem_closureAt hx hm) hopen, hq,
      Option.map_some]
  rcases g.arranged_cases x m i q with ⟨heq, -⟩ | ⟨y, hy, j, op, hfinds, heq⟩
  · rw [heq] at hmem ⊢
    refine mem_atomsOf_iff.2 ⟨m, hm, hmem, hisop, fun target ht => ?_⟩
    rw [ht] at hunit
    exact absurd hunit (by simp)
  · rw [heq] at hmem ⊢
    have hladder : g.HasLadder y := List.ne_nil_of_mem hfinds.mem_usesAt
    refine mem_atomsOf_iff.2 ⟨m, hm, hmem, ?_, fun target ht => ?_⟩
    · exact h.not_isOperatorOn_climb hladder (Nat.lt_trans hy hx) hx
    · exact absurd (Production.unitTarget?_eq_some_iff.1 ht).2
        (by simp [forcedProduction, Ladder.climbProduction])

/-- The atoms that a step finds are the climbs of ladders in the closure, and the other productions
of the closure that neither are operators nor lead back into it. -/
theorem mem_atomsAt_iff {x : Nat} {p : Production} (hx : x < g.size) :
    p ∈ g.atomsAt x ↔
      (∃ m ∈ g.closureAt x, g.HasLadder m ∧ m < x ∧
        p = (g.ladder m).climbProduction 0 ((g.ladder m).tail 0)) ∨
      ∃ m ∈ g.closureAt x, g.Open x m ∧ ∃ i q, g.production? m i = some q ∧
        q.isOperatorOn x = false ∧ q.unitTarget? = none ∧ p = g.arranged x m i q := by
  constructor
  · intro hp
    obtain ⟨m, hm, hmem, hisop, hunit⟩ := mem_atomsOf_iff.1 hp
    by_cases hopen : g.Open x m
    · obtain ⟨i, hi⟩ := mem_productionsOf_iff.1 hmem
      rw [h.production?_stage (Nat.le_of_lt hx) (h.lt_of_mem_closureAt hx hm) hopen] at hi
      obtain ⟨q, hq, rfl⟩ := Option.map_eq_some_iff.1 hi
      obtain ⟨hisop, hunit⟩ := h.original_of_atom hx hm hopen hq hisop hunit
      exact Or.inr ⟨m, hm, hopen, i, q, hq, hisop, hunit, rfl⟩
    · rw [Open, not_not] at hopen
      obtain ⟨hladder, hlt⟩ := hopen
      rw [h.productionsOf_base_stage hladder hlt (Nat.le_of_lt hx)] at hmem
      exact Or.inl ⟨m, hm, hladder, hlt, List.mem_singleton.1 hmem⟩
  · rintro (⟨m, hm, hladder, hlt, rfl⟩ | ⟨m, hm, hopen, i, q, hq, hisop, hunit, rfl⟩)
    · exact h.climb_mem_atomsAt hx hm hladder hlt
    · exact h.arranged_mem_atomsAt hx hm hopen hq hisop hunit

/-! ## The stratified grammar -/

/-- A level climbs to its tail. -/
theorem productionsOf_head_stratify {x k : Nat} (hx : g.HasLadder x) (hxs : x < g.size)
    (hk : k < (g.ladder x).height) :
    g.stratify.productionsOf ((g.ladder x).head k) =
      [(g.ladder x).climbProduction k ((g.ladder x).tail k)] := by
  rw [stratify_eq_stage]
  rcases Nat.eq_zero_or_pos k with rfl | hpos
  · exact h.productionsOf_base_stage hx hxs (Nat.le_refl _)
  · obtain ⟨hge, hlt⟩ := head_bounds (g := g.stage x) hx hpos hk
    rw [← stage_succ] at hlt
    have hnew := Nat.le_trans (h.size_le_stage (Nat.le_of_lt hxs)) hge
    refine (h.productionsOf_stage hxs (Nat.le_refl _) hnew hlt).trans ?_
    exact hx.productionsOf_head (h.lt_size_stage hxs (Nat.le_of_lt hxs)) hk

/-- A tail lists the operators of its priority, then its end. -/
theorem productionsOf_tail_stratify {x k : Nat} {p : Int32} (hx : g.HasLadder x) (hxs : x < g.size)
    (hp : (g.ladder x).levels[k]? = some p) :
    g.stratify.productionsOf ((g.ladder x).tail k) =
      ((g.usesAt x).filter (·.prec.priority == p)).map (g.ladder x).tailProduction ++
        [Ladder.endProduction] := by
  obtain ⟨hk, -⟩ := List.getElem?_eq_some_iff.1 hp
  obtain ⟨hge, hlt⟩ := tail_bounds (g := g.stage x) hx hk
  rw [← stage_succ] at hlt
  have hnew := Nat.le_trans (h.size_le_stage (Nat.le_of_lt hxs)) hge
  rw [stratify_eq_stage]
  refine (h.productionsOf_stage hxs (Nat.le_refl _) hnew hlt).trans ?_
  rw [stage_succ]
  exact productionsOf_tail hx hp

/-- The atoms are those that the step found. -/
theorem productionsOf_atom_stratify {x : Nat} (hx : g.HasLadder x) (hxs : x < g.size) :
    g.stratify.productionsOf (g.ladder x).atom =
      (g.atomsAt x).map (g.ladder x).atomProduction := by
  obtain ⟨hge, hlt⟩ := atom_bounds (g := g.stage x) hx
  rw [← stage_succ] at hlt
  have hnew := Nat.le_trans (h.size_le_stage (Nat.le_of_lt hxs)) hge
  rw [stratify_eq_stage]
  refine (h.productionsOf_stage hxs (Nat.le_refl _) hnew hlt).trans ?_
  rw [stage_succ]
  exact productionsOf_atom hx

/-- A production that a step found begins its own tail. -/
theorem productionsOf_forced_stratify {x m i j : Nat} {op : OperatorUse} (hxs : x < g.size)
    (hfinds : g.Finds x m i j op) :
    g.stratify.productionsOf ((g.ladder x).forced j) = [(g.ladder x).tailProduction op] := by
  have hx : g.HasLadder x := List.ne_nil_of_mem hfinds.mem_usesAt
  obtain ⟨hj, -⟩ := List.getElem?_eq_some_iff.1 hfinds.getElem?
  obtain ⟨hge, hlt⟩ := forced_bounds (g := g.stage x) hx hj
  rw [← stage_succ] at hlt
  have hnew := Nat.le_trans (h.size_le_stage (Nat.le_of_lt hxs)) hge
  rw [stratify_eq_stage]
  refine (h.productionsOf_stage hxs (Nat.le_refl _) hnew hlt).trans ?_
  rw [stage_succ]
  exact productionsOf_forced hx hfinds.getElem?

/-- What has no ladder has its declared productions, rewritten where a step found an operator. -/
theorem production?_stratify {m : Nat} (hm : m < g.size) (hno : ¬ g.HasLadder m) (i : Nat) :
    g.stratify.production? m i = (g.production? m i).map (g.arranged g.size m i) :=
  h.production?_stage (Nat.le_refl _) hm (fun hladder => hno hladder.1) i

omit h in
/-- The last symbol of a climb is no operand that could be limited. -/
theorem atomProduction_climb {x y : Nat} {k next : Nat} (hxs : x < g.size) (hnext : g.size ≤ next) :
    (g.ladder x).atomProduction ((g.ladder y).climbProduction k next) =
      (g.ladder y).climbProduction k next := by
  have hne : ¬ next = x := by omega
  simp [Ladder.atomProduction, Ladder.climbProduction, hne]

theorem atomProduction_forcedProduction {x y m i j : Nat} {op : OperatorUse} (hxs : x < g.size)
    (hys : y < g.size) (hfinds : g.Finds y m i j op) :
    (g.ladder x).atomProduction (g.forcedProduction y j op) = g.forcedProduction y j op := by
  have hladder : g.HasLadder y := List.ne_nil_of_mem hfinds.mem_usesAt
  obtain ⟨hj, -⟩ := List.getElem?_eq_some_iff.1 hfinds.getElem?
  have hbound : (g.stage y).size ≤ (g.ladder y).forced j :=
    (forced_bounds (g := g.stage y) hladder hj).1
  exact atomProduction_climb hxs (Nat.le_trans (h.size_le_stage (Nat.le_of_lt hys)) hbound)

theorem mem_atom_of_mem_atomsAt {x : Nat} {p : Production} (hx : g.HasLadder x) (hxs : x < g.size)
    (hp : p ∈ g.atomsAt x) :
    (g.ladder x).atomProduction p ∈ g.stratify.productionsOf (g.ladder x).atom := by
  rw [h.productionsOf_atom_stratify hx hxs]
  exact List.mem_map.2 ⟨p, hp, rfl⟩

/-- A ladder in the closure of another non-terminal is an atom there. -/
theorem climb_mem_atom {x m : Nat} (hx : g.HasLadder x) (hxs : x < g.size)
    (hm : m ∈ g.closureAt x) (hladder : g.HasLadder m) (hlt : m < x) :
    (g.ladder m).climbProduction 0 ((g.ladder m).tail 0) ∈
      g.stratify.productionsOf (g.ladder x).atom := by
  have hatom := (h.mem_atomsAt_iff hxs).2 (Or.inl ⟨m, hm, hladder, hlt, rfl⟩)
  have hmem := h.mem_atom_of_mem_atomsAt hx hxs hatom
  have htail : (g.stage m).size ≤ (g.ladder m).tail 0 :=
    (tail_bounds (g := g.stage m) hladder hladder.height_pos).1
  have hms : m < g.size := Nat.lt_trans hlt hxs
  rwa [atomProduction_climb hxs
    (Nat.le_trans (h.size_le_stage (Nat.le_of_lt hms)) htail)] at hmem

end Staged

end Grammar

end SmallLang
