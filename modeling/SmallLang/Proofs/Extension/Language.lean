import SmallLang.Proofs.Extension.Lowering
import SmallLang.Proofs.Extension.Simulate
import SmallLang.Proofs.Language

/-!
# Extending a language keeps what it accepts

If no type upgrades another one and the table of the extended language decides nothing by priority,
then whatever the language accepted, the extended one accepts with the same value
(`Language.addTypes_keeps_parses`). Both grammars are lowered and stratified apart from each other; that
one has grown from the other is `Naming.Makes.grows`, and that stratification goes along with it
is `Grammar.Extension.exists_derives`.
-/

set_option autoImplicit false

namespace SmallLang

/-! ## Types without upgrades -/

namespace Upgrades

/-- Where nothing that is left upgrades anything, nothing was declared to. -/
theorem upgraded_eq_nil_of_settle {declared settled : List NodeType} {u : Upgrades}
    (hu : ofTypes declared = .ok u) (hsettle : u.settle declared = .ok settled)
    (h : ∀ t ∈ settled, t.upgraded = []) : ∀ t ∈ declared, t.upgraded = [] := by
  intro t ht
  obtain ⟨last, hlast⟩ := exists_final?_of_settle hsettle ht
  have hmem := h last (mem_settle_of_final? hsettle ht hlast)
  rcases mem_of_follow hlast with rfl | ⟨name, hname⟩
  · exact hmem
  · exact absurd hmem (ne_nil_of_mem_upgraded (mem_of_lookup_ofTypes hu hname).2)

/-- Further types are settled after those that are there. -/
theorem exists_settle_append {types extra settled : List NodeType}
    (hnodup : (types.map NodeType.name).Nodup) (h : settle [] (types ++ extra) = .ok settled) :
    ∃ more, settled = types ++ more ∧ ∀ t ∈ more, t ∈ extra := by
  rw [settle_eq_foldlM, List.foldlM_append] at h
  obtain ⟨done, hdone, h⟩ := Except.bind_eq_ok_iff.1 h
  obtain rfl : types = done := Except.ok.inj ((settle_nil_eq_ok hnodup).symm.trans hdone)
  have hfold : ∀ {extra done : List NodeType}, extra.foldlM (settleStep []) done = .ok settled →
      ∃ more, settled = done ++ more ∧ ∀ t ∈ more, t ∈ extra := by
    intro extra
    induction extra with
    | nil =>
        intro done h
        obtain rfl := Except.ok.inj h
        exact ⟨[], (List.append_nil _).symm, fun t ht => absurd ht List.not_mem_nil⟩
    | cons t ts ih =>
        intro done h
        rw [List.foldlM_cons] at h
        obtain ⟨next, hnext, h⟩ := Except.bind_eq_ok_iff.1 h
        obtain ⟨more, rfl, hmore⟩ := ih h
        rw [settleStep_of_final?_eq_some (final?_of_lookup_eq_none rfl)] at hnext
        rcases admitType_eq_ok hnext with ⟨rfl, -⟩ | ⟨rfl, -⟩
        · refine ⟨t :: more, List.append_assoc _ _ _, fun s hs => ?_⟩
          rcases List.mem_cons.1 hs with rfl | hs
          · exact List.mem_cons_self
          · exact List.mem_cons_of_mem _ (hmore s hs)
        · exact ⟨more, rfl, fun s hs => List.mem_cons_of_mem _ (hmore s hs)⟩
  exact hfold h

end Upgrades

namespace Language

variable {declared extra : List NodeType} {config : Config} {l l' : Language}

/-- The grammars of a language and of an extension of it. -/
theorem exists_extension (hbuilt : ∀ t ∈ declared ++ extra, t.Built)
    (hl : assemble declared config = .ok l) (hold : ∀ t ∈ l.types, t.upgraded = [])
    (hextra : ∀ t ∈ extra, t.upgraded = []) (hl' : l.addTypes extra = .ok l') :
    ∃ n n' g g', Grammar.Extension n n' g g' ∧ g.start < n ∧ g.arena.Extends g'.arena ∧
      Compiled.ofGrammar g.stratify = .ok l.compiled ∧
      Compiled.ofGrammar g'.stratify = .ok l'.compiled := by
  obtain ⟨lowered, hlower, htypes, -, hcompiled⟩ := assemble_eq_ok hl
  obtain ⟨ns, hmakes⟩ := lower_eq_ok hlower
  rw [htypes] at hold
  have hmem := Upgrades.mem_of_settle hmakes.ofTypes hmakes.settle
  have hsettle := hmakes.settle
  rw [← hmakes.types] at hmem hsettle
  have hdeclared := Upgrades.upgraded_eq_nil_of_settle hmakes.ofTypes hsettle hold
  obtain rfl := hmakes.upgrades_eq_nil hdeclared
  obtain ⟨lowered', hlower', -, -, hcompiled'⟩ := assemble_eq_ok hl'
  rw [htypes] at hlower'
  obtain ⟨ns', hmakes'⟩ := lower_eq_ok hlower'
  obtain rfl := hmakes'.upgrades_eq_nil fun t ht => by
    rcases List.mem_append.1 ht with ht | ht
    · exact hold t ht
    · exact hextra t ht
  -- The settled types of the language are settled again to themselves, and the further ones come after
  -- them.
  obtain ⟨more, hmore, hmoremem⟩ := Upgrades.exists_settle_append
    (Upgrades.nodup_names_of_settle hmakes.settle) hmakes'.settle
  obtain ⟨grammar', types', start'⟩ := lowered'
  obtain rfl : types' = lowered.types ++ more := hmore
  obtain ⟨productions, hrun⟩ := hmakes.exists_run hlower
  obtain ⟨productions', hrun'⟩ := hmakes'.exists_run hlower'
  have harena : lowered.grammar.arena.Extends grammar'.arena :=
    Naming.extends_of_lowerAll rfl hrun hrun'
  have hallbuilt : ∀ t ∈ lowered.types ++ more, t.Built := by
    intro t ht
    rcases List.mem_append.1 ht with ht | ht
    · exact hbuilt t (List.mem_append_left _ (hmem t ht))
    · exact hbuilt t (List.mem_append_right _ (hmoremem t ht))
  refine ⟨_, _, lowered.grammar, grammar', ⟨Naming.Makes.grows hmakes hmakes' harena hallbuilt, ?_, ?_,
    (Compiled.ofGrammar_eq_ok hcompiled).2.1, (Compiled.ofGrammar_eq_ok hcompiled').2.1⟩,
    hmakes.start_lt, harena, hcompiled, hcompiled'⟩
  · exact Grammar.staged_of_lowered hmakes fun t ht => hallbuilt t (List.mem_append_left _ ht)
  · exact Grammar.staged_of_lowered hmakes' hallbuilt

/-- A language keeps what it accepts when it is extended, with the same value, if no type upgrades
another one and the table of the extended language decides nothing by priority. Its terminals keep
their numbers. -/
theorem addTypes_keeps_parses (hbuilt : ∀ t ∈ declared ++ extra, t.Built)
    (hl : assemble declared config = .ok l) (hold : ∀ t ∈ l.types, t.upgraded = [])
    (hextra : ∀ t ∈ extra, t.upgraded = []) (hl' : l.addTypes extra = .ok l')
    (hresolutions : l'.compiled.table.resolutions = []) :
    l.arena.Extends l'.arena ∧
      ∀ tokens v, l.parseTokens tokens = .ok v → l'.parseTokens tokens = .ok v := by
  obtain ⟨n, n', g, g', hextension, hstart, harena, hcompiled, hcompiled'⟩ :=
    exists_extension hbuilt hl hold hextra hl'
  obtain ⟨hgrammar, -⟩ := Compiled.ofGrammar_eq_ok hcompiled
  obtain ⟨hgrammar', -, htable⟩ := Compiled.ofGrammar_eq_ok hcompiled'
  have hwellFormed : g'.stratify.WellFormed := by
    apply hextension.new.wellFormed_stratify
    rw [hextension.grows.start]
    exact hextension.lt_new hstart
  refine ⟨?_, fun tokens v hparse => ?_⟩
  · rw [arena, arena, grammar, grammar, hgrammar, hgrammar', Grammar.stratify_eq_stage,
      Grammar.stratify_eq_stage, Grammar.stage_arena, Grammar.stage_arena]
    exact harena
  · obtain ⟨t, ht, htokens, hvalue⟩ := exists_tree_of_parseTokens hcompiled hparse
    obtain ⟨t', ht', htokens', hvalue'⟩ := hextension.exists_derives hwellFormed
      (Grammar.undecided_of_resolutions htable hresolutions) hstart ht
    rw [parseTokens_eq_ok_iff hcompiled' hwellFormed hresolutions]
    exact ⟨t', ht', htokens'.trans htokens, hvalue'.trans hvalue⟩

/-- Products, which bind tighter than the sums of `sumTypes`, and negations, which bind tightest. -/
def productTypes : List NodeType :=
  [((NodeType.named "Product").generates
      [.field "left" (.node "Expr") none, .literal "*", .field "right" (.node "Expr") none]
      ⟨.left, 20⟩).replaces "Expr" Prec.default,
    ((NodeType.named "Negation").generates [.literal "-", .field "operand" (.node "Expr") none]
      ⟨.none, 30⟩).replaces "Expr" Prec.default]

/-- The tokens `1 + ( 2 + 3 )` of `sumTypes`. -/
def sumTokens : List Token :=
  let literal (i : Nat) (text : String) : Token := ⟨i, text, .token text, .outside⟩
  [sumNumber 1, literal 3 "+", literal 0 "(", sumNumber 2, literal 3 "+", sumNumber 3,
    literal 1 ")"]

theorem addTypes_keeps_parses_of_sumTypes :
    ∃ l l' v, assemble sumTypes .quiet = .ok l ∧ l.addTypes productTypes = .ok l' ∧
      l.parseTokens sumTokens = .ok v ∧ l'.parseTokens sumTokens = .ok v := by
  have hcheck : (assemble sumTypes .quiet).toOption.any (fun l =>
      l.types.all (fun t => t.upgraded.isEmpty) && (l.parseTokens sumTokens).toOption.isSome &&
        (l.addTypes productTypes).toOption.any fun l' =>
          l'.compiled.table.resolutions.isEmpty) = true := by
    cbv
  have hbuilt : ∀ t ∈ sumTypes ++ productTypes, t.Built := by
    intro t ht
    simp only [sumTypes, productTypes, List.cons_append, List.nil_append, List.mem_cons,
      List.not_mem_nil, or_false] at ht
    rcases ht with rfl | rfl | rfl | rfl | rfl
    · exact ((NodeType.Built.named _).skip _ _).start
    all_goals exact ((NodeType.Built.named _).generates _ _).replaces _ _
  cases hl : assemble sumTypes .quiet with
  | error e => exact absurd hcheck (by simp [hl, Except.toOption])
  | ok l =>
      simp only [hl, Except.toOption, Option.any_some, Bool.and_eq_true, List.all_eq_true,
        List.isEmpty_iff] at hcheck
      obtain ⟨⟨hold, hparse⟩, hadd⟩ := hcheck
      cases hl' : l.addTypes productTypes with
      | error e => exact absurd hadd (by simp [hl'])
      | ok l' =>
          cases hv : l.parseTokens sumTokens with
          | error e => exact absurd hparse (by simp [hv])
          | ok v =>
              rw [hl'] at hadd
              obtain ⟨-, hkeeps⟩ := addTypes_keeps_parses hbuilt hl hold (by decide) hl'
                (List.isEmpty_iff.1 hadd)
              exact ⟨l, l', v, rfl, hl', hv, hkeeps _ _ hv⟩

end Language

end SmallLang
