import SmallLang.Proofs.Assembly.Extend
import SmallLang.Proofs.Language
import SmallLang.Proofs.Renumbering.Parse
import SmallLang.Proofs.Renumbering.Stratify

/-!
# Languages under other numbers

Two lists of types may be lowered to grammars that are the same by other numbers, and with other kinds of
nodes. If these numbers keep the order of the steps of stratification that are linked, both lists
assemble or none does (`Language.assemble_ok_iff_of_renumbers`). The languages accept the same tokens
(`Language.accepts_iff_of_renumbers`), and yield the same values up to the kinds of nodes
(`Language.parseTokens_iff_of_renumbers`).
-/

set_option autoImplicit false

namespace SmallLang

namespace Grammar

/-- The numbers keep the order of the steps that are linked. -/
def KeepsOrder (r : Renumbering) (g : Grammar) : Prop :=
  ∀ x < g.size, ∀ y < g.size, g.Linked x y → x < y → r.nonTerminal x < r.nonTerminal y

/-- The parser with the table of the grammar, whatever becomes of ties in it. -/
def parseWithCells (g : Grammar) (tokens : List Token) : Except ParseError ParseTree :=
  Parser.parse g (g.allCells g.firstTable (g.followTable g.firstTable)) tokens

end Grammar

namespace Language

/-! ## What a language is made of -/

section Parts

variable {declared : List NodeType} {lowered : Lowered} {config : Config} {l : Language}
  (hlower : lower declared = .ok lowered)
include hlower

/-- Lowered types can be stratified, and their productions have what they ask for. -/
theorem staged_of_lower (hbuilt : ∀ t ∈ declared, t.Built) :
    lowered.grammar.Staged lowered.types.length lowered.grammar.size ∧
      lowered.grammar.start < lowered.grammar.size ∧ lowered.grammar.Supplied := by
  obtain ⟨ns, hmakes⟩ := lower_eq_ok hlower
  have hsettled : ∀ t ∈ ns.types, t.Built := fun t ht =>
    hbuilt t (Upgrades.mem_of_settle hmakes.ofTypes hmakes.settle t ht)
  rw [hmakes.types]
  exact ⟨Grammar.staged_of_lowered hmakes hsettled,
    Nat.lt_of_lt_of_le hmakes.start_lt hmakes.length_types_le, hmakes.supplied hsettled⟩

/-- After lowering, types assemble if everything can be derived from the stratified grammar. -/
theorem assemble_ok_iff_of_lower (config : Config) :
    (∃ l, assemble declared config = .ok l) ↔
      ∃ compiled, Compiled.ofGrammar lowered.grammar.stratify = .ok compiled := by
  constructor
  · rintro ⟨l, hl⟩
    obtain ⟨lowered', hlower', -, -, hcompiled⟩ := assemble_eq_ok hl
    obtain rfl := Except.ok.inj (hlower.symm.trans hlower')
    exact ⟨l.compiled, hcompiled⟩
  · rintro ⟨compiled, hcompiled⟩
    refine ⟨⟨lowered.types, lowered.start, config, compiled⟩, ?_⟩
    exact Except.bind_eq_ok_iff.2 ⟨lowered, hlower, Except.bind_eq_ok_iff.2 ⟨compiled, hcompiled, rfl⟩⟩

/-- Stratification keeps the terminals. -/
theorem arena_of_assemble (hl : assemble declared config = .ok l) :
    l.arena = lowered.grammar.arena := by
  obtain ⟨lowered', hlower', -, -, hcompiled⟩ := assemble_eq_ok hl
  obtain rfl := Except.ok.inj (hlower.symm.trans hlower')
  rw [arena, grammar, (Compiled.ofGrammar_eq_ok hcompiled).1, Grammar.stratify_eq_stage,
    Grammar.stage_arena]

/-- A language parses with the table of the stratified grammar. -/
theorem parseTokens_of_assemble (hl : assemble declared config = .ok l) (tokens : List Token)
    (v : Value) : l.parseTokens tokens = .ok v ↔
      ∃ t, lowered.grammar.stratify.parseWithCells tokens = .ok t ∧
        t.value lowered.grammar.stratify = v := by
  obtain ⟨lowered', hlower', -, -, hcompiled⟩ := assemble_eq_ok hl
  obtain rfl := Except.ok.inj (hlower.symm.trans hlower')
  obtain ⟨hgrammar, -, htable⟩ := Compiled.ofGrammar_eq_ok hcompiled
  rw [parseTokens_eq_ok, Language.grammar, hgrammar, (Grammar.parseTable_eq_ok htable).1]
  rfl

theorem accepts_of_assemble (hl : assemble declared config = .ok l) (tokens : List Token) :
    (∃ v, l.parseTokens tokens = .ok v) ↔
      ∃ t, lowered.grammar.stratify.parseWithCells tokens = .ok t := by
  simp only [parseTokens_of_assemble hlower hl]
  exact ⟨fun ⟨_, t, ht, _⟩ => ⟨t, ht⟩, fun ⟨t, ht⟩ => ⟨_, t, ht, rfl⟩⟩

end Parts

/-! ## Two languages -/

variable {declared declared' : List NodeType} {lowered lowered' : Lowered} {r : Renumbering}
  {config config' : Config} (hbuilt : ∀ t ∈ declared, t.Built)
  (hlower : lower declared = .ok lowered)
  (h : Grammar.Renumbers r lowered.grammar lowered'.grammar)
  (horder : Grammar.KeepsOrder r lowered.grammar)
include hbuilt hlower h horder

/-- The stratified grammars are the same by other numbers, and these are known for terminals. -/
theorem exists_renumbers_stratify :
    ∃ s, Grammar.Renumbers s lowered.grammar.stratify lowered'.grammar.stratify ∧
      s.terminal = r.terminal ∧ s.kind = r.kind := by
  obtain ⟨hstaged, hstart, -⟩ := staged_of_lower hlower hbuilt
  exact h.exists_stratify hstaged hstart horder

variable (hlower' : lower declared' = .ok lowered')
include hlower'

/-- Both lists assemble, or none does. -/
theorem assemble_ok_iff_of_renumbers :
    (∃ l, assemble declared config = .ok l) ↔ ∃ l', assemble declared' config' = .ok l' := by
  obtain ⟨hstaged, hstart, -⟩ := staged_of_lower hlower hbuilt
  obtain ⟨s, hs, -, -⟩ := exists_renumbers_stratify hbuilt hlower h horder
  rw [assemble_ok_iff_of_lower hlower, assemble_ok_iff_of_lower hlower']
  exact hs.ofGrammar_ok_iff (hstaged.wellFormed_stratify hstart)

variable {l l' : Language} (hl : assemble declared config = .ok l)
  (hl' : assemble declared' config' = .ok l')
include hl hl'

/-- Both languages accept the same tokens by the other numbers of their terminals, whatever the values of
the tokens are. -/
theorem accepts_iff_of_renumbers {φ ψ : Value → Value} (hψ : Function.LeftInverse ψ φ)
    (tokens : List Token) : (∃ v, l.parseTokens tokens = .ok v) ↔
      ∃ v, l'.parseTokens (tokens.map (r.token φ)) = .ok v := by
  obtain ⟨hstaged, hstart, -⟩ := staged_of_lower hlower hbuilt
  obtain ⟨s, hs, hterminal, -⟩ := exists_renumbers_stratify hbuilt hlower h horder
  have htoken : s.token φ = r.token φ := by
    funext t
    rw [Renumbering.token, hterminal]
    rfl
  rw [accepts_of_assemble hlower hl, accepts_of_assemble hlower' hl', ← htoken]
  exact hs.parse_ok_iff hψ (hstaged.wellFormed_stratify hstart) tokens

/-- Both languages yield the same values for the same tokens by other numbers, up to the kinds of
nodes. -/
theorem parseTokens_iff_of_renumbers (tokens : List Token) (v : Value) :
    l.parseTokens tokens = .ok v ↔
      l'.parseTokens (tokens.map (r.token (Value.rename r.kind))) = .ok (v.rename r.kind) := by
  obtain ⟨hstaged, hstart, hsupplied⟩ := staged_of_lower hlower hbuilt
  obtain ⟨s, hs, hterminal, hkind⟩ := exists_renumbers_stratify hbuilt hlower h horder
  have hvalued : lowered.grammar.stratify.Valued (.nonTerminal lowered.grammar.stratify.start) := by
    rw [Grammar.stratify_eq_stage, Grammar.stage_start]
    exact (hstaged.stage (Nat.le_refl _)).valued_of_lt hstart
  have htoken : s.token (Value.rename s.kind) = r.token (Value.rename r.kind) := by
    funext t
    rw [Renumbering.token, hterminal, hkind]
    rfl
  rw [parseTokens_of_assemble hlower hl, parseTokens_of_assemble hlower' hl', ← htoken, ← hkind]
  exact hs.exists_parse_iff (hstaged.wellFormed_stratify hstart)
    (hstaged.supplied_stratify hsupplied) hvalued tokens v

end Language

end SmallLang
