import SmallLang.Proofs.Assembly.Blamed
import SmallLang.Proofs.Priorities.Ladder

/-!
# Names of non-terminals

Messages and dumps show non-terminals by name, and a name is made in two passes: a type or the rest
of its list gets one from lowering, and stratification puts a mark behind it for each level, tail,
row of atoms and forced operator. Here names are read back. If no name of a type has a mark in it,
then what stands before the first `#` is the name from lowering, and what follows says which part of
its ladder the non-terminal is (`Part.append_mark_inj`). A priority is at one level only, and no two
steps find one production, so that no part is made twice (`Grammar.Staged.eq_of_isPart`).

So no two non-terminals of a language have one name, and the name of each begins with that of the
type it was made for (`Language.names_identify`).
-/

set_option autoImplicit false

namespace SmallLang

/-! ## Marks -/

/-- What a non-terminal is among those that stratification makes of one. -/
inductive Part where
  /-- The non-terminal itself, which becomes the head of its loosest level. -/
  | whole
  /-- The head of the level of a priority. -/
  | head (p : Int32)
  /-- The tail of the level of a priority. -/
  | tail (p : Int32)
  /-- The atoms. -/
  | atoms
  /-- The tail that begins with the operator of a production. -/
  | operator (i : Nat)

namespace Part

/-- What is put behind the name. -/
def mark : Part → String
  | whole => ""
  | head p => "#" ++ toString p.toInt
  | tail p => "#" ++ toString p.toInt ++ "'"
  | atoms => "#atom"
  | operator i => "#op" ++ toString i

/-- Other characters than digits are not in a number. -/
theorem not_mem_toDigits {n : Nat} {c : Char} (hdigit : c.isDigit = false) :
    c ∉ Nat.toDigits 10 n := by
  intro h
  rw [Nat.isDigit_of_mem_toDigits (by decide) (by decide) h] at hdigit
  cases hdigit

/-- A number with sign has a minus besides. -/
theorem not_mem_repr {i : Int} {c : Char} (hdigit : c.isDigit = false) (hsign : c ≠ '-') :
    c ∉ i.repr.toList := by
  cases i with
  | ofNat n =>
      rw [Int.repr, Nat.toList_repr]
      exact not_mem_toDigits hdigit
  | negSucc n =>
      rw [Int.repr, String.toList_append, Nat.toList_repr]
      exact List.not_mem_append (by simpa using hsign) (not_mem_toDigits hdigit)

/-- The characters of a mark that tell its kind. -/
theorem mem_mark (a : Part) :
    ('#' ∈ a.mark.toList ↔ a ≠ whole) ∧ ('\'' ∈ a.mark.toList ↔ ∃ p, a = tail p) ∧
      ('a' ∈ a.mark.toList ↔ a = atoms) ∧ ('p' ∈ a.mark.toList ↔ ∃ i, a = operator i) := by
  cases a with
  | whole => simp [mark]
  | head p => simp [mark, not_mem_repr]
  | tail p => simp [mark, not_mem_repr]
  | atoms => simp [mark]
  | operator i => simp [mark, not_mem_toDigits]

/-- The mark tells the part. -/
theorem mark_injective : Function.Injective mark := by
  intro a b h
  have ha := a.mem_mark
  rw [h] at ha
  obtain ⟨hash, hprime, hatoms, hoperator⟩ := b.mem_mark
  rw [hash, hprime, hatoms, hoperator] at ha
  -- Marks of two kinds differ in one of these characters, and numbers are read back.
  cases a <;> cases b
  any_goals (simp at ha; done)
  · rfl
  · rw [Int32.toInt_inj.1 (Int.repr_injective ((String.append_right_inj _).1 h))]
  · have hlevel := (String.append_left_inj _).1 h
    rw [Int32.toInt_inj.1 (Int.repr_injective ((String.append_right_inj _).1 hlevel))]
  · rfl
  · rw [Nat.repr_injective ((String.append_right_inj _).1 h)]

/-- A mark is nothing or begins with its sign. -/
theorem mark_cases (a : Part) : a.mark = "" ∨ ∃ level, a.mark = "#" ++ level := by
  cases a with
  | whole => exact Or.inl rfl
  | head p => exact Or.inr ⟨_, rfl⟩
  | tail p => exact Or.inr ⟨_, String.append_assoc⟩
  | atoms => exact Or.inr ⟨"atom", rfl⟩
  | operator i => exact Or.inr ⟨"op" ++ toString i, String.append_assoc.symm ▸ rfl⟩

/-- A name without marks is what stands before the first one. -/
theorem takeWhile_append_mark {name : String} (hname : '#' ∉ name.toList) (a : Part) :
    (name ++ a.mark).toList.takeWhile (· != '#') = name.toList := by
  have hall : ∀ c ∈ name.toList, (c != '#') = true := fun c hc => by
    simpa using fun heq : c = '#' => hname (heq ▸ hc)
  rw [String.toList_append, List.takeWhile_append_of_pos hall]
  rcases a.mark_cases with hnone | ⟨level, hlevel⟩
  · simp [hnone]
  · simp [hlevel]

/-- From a name with a mark behind it both can be read off. -/
theorem append_mark_inj {s t : String} (hs : '#' ∉ s.toList) (ht : '#' ∉ t.toList) {a b : Part}
    (h : s ++ a.mark = t ++ b.mark) : s = t ∧ a = b := by
  have hname := takeWhile_append_mark hs a
  rw [h, takeWhile_append_mark ht b] at hname
  obtain rfl := String.toList_inj.1 hname
  exact ⟨rfl, mark_injective ((String.append_right_inj _).1 h)⟩

/-- The mark does not count for the name of the type. -/
theorem typeNameOf_append_mark (name : String) (a : Part) :
    typeNameOf (name ++ a.mark) = typeNameOf name := by
  rcases a.mark_cases with hnone | ⟨level, hlevel⟩
  · rw [hnone, String.append_empty]
  · rw [hlevel, ← String.append_assoc]
    exact Grammar.typeNameOf_append_mark name level

end Part

/-! ## Parts of a ladder -/

namespace Grammar

theorem name_getElem {g : Grammar} {i : Nat} (hi : i < g.nonTerminals.length) :
    g.nonTerminals[i].name = g.nameOf i := by
  rw [nameOf, List.getElem?_eq_getElem hi]
  rfl

/-- Names are different if they tell the numbers. -/
theorem nodup_map_name_iff (g : Grammar) : (g.nonTerminals.map NonTerminal.name).Nodup ↔
    ∀ i < g.size, ∀ j < g.size, g.nameOf i = g.nameOf j → i = j := by
  have hname : ∀ i (hi : i < (g.nonTerminals.map NonTerminal.name).length),
      (g.nonTerminals.map NonTerminal.name)[i] = g.nameOf i := by
    intro i hi
    rw [List.getElem_map, name_getElem]
  rw [List.nodup_iff_injective_getElem]
  constructor
  · intro hinj i hi j hj heq
    have hfin := @hinj ⟨i, by rwa [List.length_map]⟩ ⟨j, by rwa [List.length_map]⟩
      (by simpa only [hname] using heq)
    exact congrArg Fin.val hfin
  · intro hinj i j heq
    have hsize : (g.nonTerminals.map NonTerminal.name).length = g.size := List.length_map _
    refine Fin.ext (hinj i (i.isLt.trans_eq hsize) j (j.isLt.trans_eq hsize) ?_)
    simpa only [hname] using heq

/-- A non-terminal is found by its name if no other one has it. -/
theorem find?_nameOf {g : Grammar} (hnames : (g.nonTerminals.map NonTerminal.name).Nodup) {i : Nat}
    (hi : i < g.size) : g.find? (g.nameOf i) = some i := by
  refine List.findIdx?_eq_some_iff_getElem.2
    ⟨hi, beq_iff_eq.2 (name_getElem hi), fun j hj heq => ?_⟩
  rw [beq_iff_eq, name_getElem] at heq
  exact Nat.ne_of_lt hj (g.nodup_map_name_iff.1 hnames j (Nat.lt_trans hj hi) i hi heq)

section

variable {g : Grammar} {e k : Nat} {p : Int32} (hops : g.operatorsOn e ≠ [])
  (hp : (g.ladderAt e).levels[k]? = some p)
include hops hp

theorem nameOf_head (hpos : 0 < k) : (g.stratifyAt e).nameOf ((g.ladderAt e).head k) =
    g.nameOf e ++ (Part.head p).mark := by
  have hget := getElem?_stratifyAt_new hops (2 * k - 1)
  rw [getElem?_ladderNonTerminals_head hpos hp] at hget
  have hnumber : (g.ladderAt e).head k = g.size + (2 * k - 1) := by
    rw [Ladder.head_of_pos hpos, ladderAt_first]
    omega
  rw [hnumber, nameOf, hget]
  exact String.append_assoc

theorem nameOf_tail : (g.stratifyAt e).nameOf ((g.ladderAt e).tail k) =
    g.nameOf e ++ (Part.tail p).mark := by
  have hget := getElem?_stratifyAt_new hops (2 * k)
  rw [getElem?_ladderNonTerminals_tail hp] at hget
  rw [Ladder.tail, ladderAt_first, nameOf, hget]
  show g.nameOf e ++ "#" ++ toString p.toInt ++ "'" = _
  rw [Part.mark, String.append_assoc, String.append_assoc, String.append_assoc]

end

/-- The last number is that of a non-terminal of the stratified grammar, and the first one is that
of the non-terminal that it is a part of. -/
inductive IsPart (g : Grammar) : Nat → Part → Nat → Prop
  | whole {nt : Nat} (hnt : nt < g.size) : IsPart g nt .whole nt
  | head {x k : Nat} {p : Int32} (hx : x < g.size) (hpos : 0 < k)
      (hp : (g.ladder x).levels[k]? = some p) : IsPart g x (.head p) ((g.ladder x).head k)
  | tail {x k : Nat} {p : Int32} (hx : x < g.size) (hp : (g.ladder x).levels[k]? = some p) :
      IsPart g x (.tail p) ((g.ladder x).tail k)
  | atoms {x : Nat} (hx : x < g.size) (hladder : g.HasLadder x) :
      IsPart g x .atoms (g.ladder x).atom
  | operator {x m i j : Nat} {op : OperatorUse} (hx : x < g.size) (hfinds : g.Finds x m i j op) :
      IsPart g m (.operator i) ((g.ladder x).forced j)

theorem Owns.exists_isPart {g : Grammar} {o nt : Nat} (h : g.Owns o nt) :
    ∃ a, g.IsPart o a nt := by
  cases h with
  | self hnt => exact ⟨_, .whole hnt⟩
  | head hx hladder hpos hk => exact ⟨_, .head hx hpos (List.getElem?_eq_getElem hk)⟩
  | tail hx hladder hk => exact ⟨_, .tail hx (List.getElem?_eq_getElem hk)⟩
  | atom hx hladder => exact ⟨_, .atoms hx hladder⟩
  | forced hx hfinds => exact ⟨_, .operator hx hfinds⟩

/-- What a step adds keeps its name, and is named after a non-terminal that was there before. -/
theorem nameOf_stratify_of_step {g : Grammar} {x m nt : Nat} {a : Part} (hx : x < g.size)
    (hm : m < g.size) (hnt : nt < ((g.stage x).stratifyAt x).size)
    (hname : ((g.stage x).stratifyAt x).nameOf nt = (g.stage x).nameOf m ++ a.mark) :
    g.stratify.nameOf nt = g.nameOf m ++ a.mark := by
  rw [(nameOf_stage (g := g) (Nat.zero_le x) hm).1] at hname
  rw [← stage_succ] at hnt hname
  rw [stratify_eq_stage, (nameOf_stage (Nat.succ_le_of_lt hx) hnt).1, hname, stage_zero]

namespace Staged

variable {types : Nat} {g : Grammar} (h : g.Staged types g.size) {o nt nt' : Nat} {a : Part}
include h

theorem lt_of_isPart (hpart : g.IsPart o a nt) : o < g.size := by
  cases hpart with
  | whole hnt => exact hnt
  | head hx => exact hx
  | tail hx => exact hx
  | atoms hx => exact hx
  | operator hx hfinds => exact Nat.lt_of_lt_of_le (h.lt_of_finds hx hfinds) h.types_le

/-- No two non-terminals are the same part of one. -/
theorem eq_of_isPart (hpart : g.IsPart o a nt) (hpart' : g.IsPart o a nt') : nt = nt' := by
  cases hpart with
  | whole =>
      cases hpart' with
      | whole => rfl
  | head hx hpos hp =>
      cases hpart' with
      | head _ _ hp' => rw [(g.sorted_ladder o).eq_of_getElem? hp hp']
  | tail hx hp =>
      cases hpart' with
      | tail _ hp' => rw [(g.sorted_ladder o).eq_of_getElem? hp hp']
  | atoms =>
      cases hpart' with
      | atoms => rfl
  | operator hx hfinds =>
      cases hpart' with
      | operator hx' hfinds' =>
          -- A production begins with one non-terminal only, so the same step has found it.
          obtain ⟨q, -, -, hq, hop, -⟩ := h.exists_of_finds hx hfinds
          obtain ⟨q', -, -, hq', hop', -⟩ := h.exists_of_finds hx' hfinds'
          obtain rfl := Option.some.inj (hq.symm.trans hq')
          obtain rfl := Production.eq_of_isOperatorOn hop hop'
          rw [(hfinds.unique hfinds').1]

/-- Each part is named after the non-terminal that it is a part of. -/
theorem nameOf_of_isPart (hpart : g.IsPart o a nt) :
    g.stratify.nameOf nt = g.nameOf o ++ a.mark := by
  have ho := h.lt_of_isPart hpart
  cases hpart with
  | whole hnt =>
      rw [stratify_eq_stage, (nameOf_stage (g := g) (Nat.zero_le _) hnt).1, stage_zero]
      exact String.append_empty.symm
  | head hx hpos hp =>
      have hladder : g.HasLadder o := .of_level hp
      have hk := (List.getElem?_eq_some_iff.1 hp).1
      exact nameOf_stratify_of_step hx ho (head_bounds hladder hpos hk).2
        (nameOf_head hladder hp hpos)
  | tail hx hp =>
      have hladder : g.HasLadder o := .of_level hp
      have hk := (List.getElem?_eq_some_iff.1 hp).1
      exact nameOf_stratify_of_step hx ho (tail_bounds hladder hk).2 (nameOf_tail hladder hp)
  | atoms hx hladder =>
      exact nameOf_stratify_of_step hx ho (atom_bounds hladder).2 (nameOf_atom hladder)
  | operator hx hfinds =>
      have hladder := List.ne_nil_of_mem hfinds.mem_usesAt
      have hj := (List.getElem?_eq_some_iff.1 hfinds.getElem?).1
      refine nameOf_stratify_of_step hx ho (forced_bounds hladder hj).2 ?_
      refine (nameOf_forced hladder hfinds.getElem? hfinds.origin).trans ?_
      rw [Part.mark, String.append_assoc]

/-- Names without marks stay different when marks are put behind them. -/
theorem eq_of_nameOf_stratify (hmarks : ∀ i < g.size, '#' ∉ (g.nameOf i).toList)
    (hnames : ∀ i < g.size, ∀ j < g.size, g.nameOf i = g.nameOf j → i = j)
    (hnt : nt < g.stratify.size) (hnt' : nt' < g.stratify.size)
    (heq : g.stratify.nameOf nt = g.stratify.nameOf nt') : nt = nt' := by
  obtain ⟨o, howns⟩ := g.exists_owns hnt
  obtain ⟨o', howns'⟩ := g.exists_owns hnt'
  obtain ⟨a, hpart⟩ := howns.exists_isPart
  obtain ⟨a', hpart'⟩ := howns'.exists_isPart
  have ho := h.lt_of_isPart hpart
  have ho' := h.lt_of_isPart hpart'
  rw [h.nameOf_of_isPart hpart, h.nameOf_of_isPart hpart'] at heq
  obtain ⟨hname, rfl⟩ := Part.append_mark_inj (hmarks o ho) (hmarks o' ho') heq
  obtain rfl := hnames o ho o' ho' hname
  exact h.eq_of_isPart hpart hpart'

end Staged

end Grammar

/-! ## Names from lowering -/

/-- What stands before the mark of a list is the name of the type. -/
theorem typeNameOf_eq {name : String} (h : ∀ c ∈ name.toList, c ≠ '#' ∧ c ≠ '@') :
    typeNameOf name = name ∧ typeNameOf (name ++ "@rest") = name := by
  have hall : ∀ c ∈ name.toList, (c != '#' && c != '@') = true := fun c hc => by
    simpa using h c hc
  constructor
  · rw [typeNameOf, List.takeWhile_eq_self_iff.2 hall, String.ofList_toList]
  · rw [typeNameOf, String.toList_append, List.takeWhile_append_of_pos hall]
    exact (congrArg String.ofList (List.append_nil _)).trans String.ofList_toList

namespace Naming

/-- The non-terminal of that number was made for the type: it is that of the type itself, or that of
the rest of its list. -/
inductive MadeFor (ns : Naming) : Nat → NodeType → Prop
  | type {i : Nat} {t : NodeType} (h : ns.types[i]? = some t) : MadeFor ns i t
  | rest {t : NodeType} (ht : t ∈ ns.types) (hrest : t.rules.any Rule.usesRest = true) :
      MadeFor ns (ns.restNumber t.name) t

variable {ns : Naming}

theorem MadeFor.mem {i : Nat} {t : NodeType} (h : ns.MadeFor i t) : t ∈ ns.types := by
  cases h with
  | type h => exact List.mem_of_getElem? h
  | rest ht => exact ht

theorem nodup_listTypes (hnodup : (ns.types.map NodeType.name).Nodup) : ns.listTypes.Nodup :=
  hnodup.sublist (List.filter_sublist.map _)

/-- Each name is that of a type, or this and the mark of its list. -/
theorem exists_madeFor (hnodup : (ns.types.map NodeType.name).Nodup) {i : Nat} {name : String}
    (h : ns.nonTerminalNames[i]? = some name) :
    ∃ t, ns.MadeFor i t ∧ (name = t.name ∨ name = t.name ++ "@rest") := by
  rw [nonTerminalNames] at h
  by_cases hi : i < (ns.types.map NodeType.name).length
  · rw [List.getElem?_append_left hi, List.getElem?_map] at h
    obtain ⟨t, ht, rfl⟩ := Option.map_eq_some_iff.1 h
    exact ⟨t, .type ht, Or.inl rfl⟩
  · rw [List.getElem?_append_right (Nat.le_of_not_lt hi), List.getElem?_map] at h
    obtain ⟨owner, howner, rfl⟩ := Option.map_eq_some_iff.1 h
    obtain ⟨t, ht, rfl⟩ := List.mem_map.1 (List.mem_of_getElem? howner)
    obtain ⟨htypes, hrest⟩ := List.mem_filter.1 ht
    -- No other type has the name, so the place of the list is the one found.
    obtain ⟨hlt, hget⟩ := List.getElem?_eq_some_iff.1 howner
    have hindex := (nodup_listTypes hnodup).idxOf_getElem _ hlt
    rw [hget] at hindex
    have hnumber : ns.restNumber t.name = i := by
      have hfind : ns.listTypes.findIdx (· == t.name) = _ := hindex
      rw [restNumber, hfind]
      rw [List.length_map] at hi ⊢
      omega
    exact ⟨t, hnumber ▸ .rest htypes hrest, Or.inr rfl⟩

/-- Types have different names, and no type is named like a list. -/
theorem nodup_nonTerminalNames (hnodup : (ns.types.map NodeType.name).Nodup)
    (hmarks : ∀ t ∈ ns.types, '@' ∉ t.name.toList) : ns.nonTerminalNames.Nodup := by
  rw [nonTerminalNames]
  refine hnodup.append ((nodup_listTypes hnodup).map fun a b h => ?_) fun name hname hlist => ?_
  · exact (String.append_left_inj _).1 h
  · obtain ⟨t, ht, rfl⟩ := List.mem_map.1 hname
    obtain ⟨owner, -, heq⟩ := List.mem_map.1 hlist
    refine hmarks t ht ?_
    rw [← heq, String.toList_append]
    exact List.mem_append_right _ (by decide)

/-- The names of the non-terminals are those that the naming lists. -/
theorem Makes.map_name {declared : List NodeType} {lowered : Lowered}
    (h : ns.Makes declared lowered) (hlower : lower declared = .ok lowered) :
    lowered.grammar.nonTerminals.map NonTerminal.name = ns.nonTerminalNames := by
  obtain ⟨upgrades, hupgrades, hlower⟩ := Except.bind_eq_ok_iff.1 hlower
  obtain ⟨types, htypes, hlower⟩ := Except.bind_eq_ok_iff.1 hlower
  obtain ⟨start, -, hlower⟩ := Except.bind_eq_ok_iff.1 hlower
  obtain ⟨⟨productions, arena⟩, -, hlower⟩ := Except.bind_eq_ok_iff.1 hlower
  obtain rfl := Except.ok.inj hlower
  obtain rfl := Except.ok.inj (h.ofTypes.symm.trans hupgrades)
  obtain rfl := Except.ok.inj (h.settle.symm.trans htypes)
  show (ns.nonTerminals productions).map NonTerminal.name = _
  rw [nonTerminals, List.map_map]
  exact List.zipIdx_map_fst 0 _

theorem Makes.getElem?_nonTerminalNames {declared : List NodeType} {lowered : Lowered}
    (h : ns.Makes declared lowered) (hlower : lower declared = .ok lowered) {i : Nat}
    (hi : i < lowered.grammar.size) :
    ns.nonTerminalNames[i]? = some (lowered.grammar.nameOf i) := by
  rw [← h.map_name hlower, List.getElem?_map, Grammar.nameOf]
  obtain ⟨nt, hnt⟩ := Grammar.getElem?_eq_some_of_lt_size hi
  rw [hnt]
  rfl

section

variable {declared : List NodeType} {lowered : Lowered} (h : ns.Makes declared lowered)
  (hlower : lower declared = .ok lowered)
  (hmarks : ∀ t ∈ ns.types, ∀ c ∈ t.name.toList, c ≠ '#' ∧ c ≠ '@')
include h hlower hmarks

theorem Makes.nodup_names : (lowered.grammar.nonTerminals.map NonTerminal.name).Nodup := by
  rw [h.map_name hlower]
  exact nodup_nonTerminalNames (Upgrades.nodup_names_of_settle h.settle) fun t ht hmem =>
    (hmarks t ht _ hmem).2 rfl

/-- The name of a non-terminal tells the type that it was made for. -/
theorem Makes.exists_madeFor {i : Nat} (hi : i < lowered.grammar.size) :
    ∃ t, ns.MadeFor i t ∧ '#' ∉ (lowered.grammar.nameOf i).toList ∧
      typeNameOf (lowered.grammar.nameOf i) = t.name := by
  obtain ⟨t, hmade, hname⟩ := Naming.exists_madeFor (Upgrades.nodup_names_of_settle h.settle)
    (h.getElem?_nonTerminalNames hlower hi)
  have ht := hmarks t hmade.mem
  obtain ⟨htype, hrest⟩ := typeNameOf_eq ht
  have hsharp : '#' ∉ t.name.toList := fun hmem => (ht _ hmem).1 rfl
  rcases hname with hname | hname
  · exact ⟨t, hmade, by rwa [hname], by rw [hname, htype]⟩
  · refine ⟨t, hmade, ?_, by rw [hname, hrest]⟩
    rw [hname, String.toList_append]
    exact List.not_mem_append hsharp (by decide)

end

end Naming

/-! ## The names of a language -/

namespace Language

variable {declared : List NodeType} {config : Config} {l : Language}

/-- Every name is that of a type with marks behind it. -/
theorem exists_nameOf_eq (hbuilt : ∀ t ∈ declared, t.Built) (hl : assemble declared config = .ok l)
    {nt : Nat} (hnt : nt < l.grammar.size) : ∃ t ∈ l.types, ∃ a : Part,
      l.grammar.nameOf nt = t.name ++ a.mark ∨
        l.grammar.nameOf nt = t.name ++ "@rest" ++ a.mark := by
  obtain ⟨lowered, hlower, htypes, -, hcompiled⟩ := assemble_eq_ok hl
  obtain ⟨ns, hmakes⟩ := lower_eq_ok hlower
  obtain ⟨hstaged, -, -⟩ := staged_of_lower hlower hbuilt
  have hgrammar : l.grammar = lowered.grammar.stratify := (Compiled.ofGrammar_eq_ok hcompiled).1
  rw [hgrammar] at hnt ⊢
  obtain ⟨o, howns⟩ := lowered.grammar.exists_owns hnt
  obtain ⟨a, hpart⟩ := howns.exists_isPart
  obtain ⟨t, hmade, hname⟩ := Naming.exists_madeFor (Upgrades.nodup_names_of_settle hmakes.settle)
    (hmakes.getElem?_nonTerminalNames hlower (hstaged.lt_of_isPart hpart))
  have ht : t ∈ l.types := by
    rw [htypes, hmakes.types]
    exact hmade.mem
  refine ⟨t, ht, a, ?_⟩
  rw [hstaged.nameOf_of_isPart hpart]
  rcases hname with hname | hname
  · exact Or.inl (by rw [hname])
  · exact Or.inr (by rw [hname])

/-- In a language of types without marks in their names no two non-terminals of the stratified
grammar have one name, so that each is found by its name. Each non-terminal belongs to one of the
grammar from lowering, this one was made for a type of the language, and the name begins with that
of the type. -/
theorem names_identify (hbuilt : ∀ t ∈ declared, t.Built) (hl : assemble declared config = .ok l)
    (hmarks : ∀ t ∈ l.types, ∀ c ∈ t.name.toList, c ≠ '#' ∧ c ≠ '@') :
    (l.grammar.nonTerminals.map NonTerminal.name).Nodup ∧
    (∀ nt < l.grammar.size, l.grammar.find? (l.grammar.nameOf nt) = some nt) ∧
    ∃ (ns : Naming) (lowered : Lowered), lower declared = .ok lowered ∧ ns.Makes declared lowered ∧
      l.grammar = lowered.grammar.stratify ∧
      ∀ (nt : Nat) (nonTerminal : NonTerminal), l.grammar.nonTerminals[nt]? = some nonTerminal →
        ∃ o t, lowered.grammar.Owns o nt ∧ ns.MadeFor o t ∧ t ∈ l.types ∧
          nonTerminal.typeName = t.name := by
  obtain ⟨lowered, hlower, htypes, -, hcompiled⟩ := assemble_eq_ok hl
  obtain ⟨ns, hmakes⟩ := lower_eq_ok hlower
  obtain ⟨hstaged, -, -⟩ := staged_of_lower hlower hbuilt
  have hgrammar : l.grammar = lowered.grammar.stratify := (Compiled.ofGrammar_eq_ok hcompiled).1
  rw [htypes, hmakes.types] at hmarks
  have howner := fun {i} => hmakes.exists_madeFor hlower hmarks (i := i)
  have hnames : (l.grammar.nonTerminals.map NonTerminal.name).Nodup := by
    -- The names from lowering are different and have no marks, so that they can be read back.
    rw [Grammar.nodup_map_name_iff, hgrammar]
    intro nt hnt nt' hnt' heq
    refine hstaged.eq_of_nameOf_stratify (fun i hi => ?_) ?_ hnt hnt' heq
    · obtain ⟨t, -, hsharp, -⟩ := howner hi
      exact hsharp
    · exact (Grammar.nodup_map_name_iff _).1 (hmakes.nodup_names hlower hmarks)
  refine ⟨hnames, fun nt hnt => Grammar.find?_nameOf hnames hnt, ns, lowered, hlower, hmakes,
    hgrammar, fun nt nonTerminal hget => ?_⟩
  have hname : l.grammar.nameOf nt = nonTerminal.name := by rw [Grammar.nameOf, hget]; rfl
  have hnt : nt < l.grammar.size := (List.getElem?_eq_some_iff.1 hget).1
  rw [hgrammar] at hname hnt
  obtain ⟨o, howns⟩ := lowered.grammar.exists_owns hnt
  obtain ⟨a, hpart⟩ := howns.exists_isPart
  obtain ⟨t, hmade, -, htype⟩ := howner (hstaged.lt_of_isPart hpart)
  refine ⟨o, t, howns, hmade, ?_, ?_⟩
  · rw [htypes, hmakes.types]
    exact hmade.mem
  · rw [NonTerminal.typeName, ← hname, hstaged.nameOf_of_isPart hpart,
      Part.typeNameOf_append_mark, htype]

/-- Rows of sums, which bind less tightly than products. -/
def rowTypes : List NodeType :=
  [((NodeType.named "Rows").makeList (.node "Expr") ";" true).start,
    (NodeType.named "Expr").skip [.literal "(", .this, .literal ")"] Prec.default,
    ((NodeType.named "Num").generates [.field "value" (.terminal .number) none]
      Prec.default).replaces "Expr" Prec.default,
    ((NodeType.named "Sum").generates
      [.field "left" (.node "Expr") none, .literal "+", .field "right" (.node "Expr") none]
      ⟨.left, -5⟩).replaces "Expr" Prec.default,
    ((NodeType.named "Product").generates
      [.field "left" (.node "Expr") none, .literal "*", .field "right" (.node "Expr") none]
      ⟨.left, 10⟩).replaces "Expr" Prec.default]

theorem built_rowTypes : ∀ t ∈ rowTypes, t.Built := by
  intro t ht
  simp only [rowTypes, List.mem_cons, List.not_mem_nil, or_false] at ht
  rcases ht with rfl | rfl | rfl | rfl | rfl
  · exact ((NodeType.Built.named _).makeList _ _ _).start
  · exact (NodeType.Built.named _).skip _ _
  all_goals exact ((NodeType.Built.named _).generates _ _).replaces _ _

/-- Each kind of name is among these, and the list's belongs to its type. -/
theorem names_identify_rowTypes : ∃ l, assemble rowTypes .quiet = .ok l ∧
    l.grammar.nonTerminals.map NonTerminal.name = ["Rows", "Expr", "Num", "Sum", "Product",
      "Rows@rest", "Expr#-5'", "Expr#10", "Expr#10'", "Expr#atom", "Sum#op0", "Product#op0"] ∧
    l.grammar.find? (l.grammar.nameOf 10) = some 10 ∧
    ∃ lowered o t, lower rowTypes = .ok lowered ∧ lowered.grammar.Owns o 10 ∧ t ∈ l.types ∧
      t.name = "Sum" := by
  have hcheck : (assemble rowTypes .quiet).toOption.any (fun l =>
      l.types.all (fun t => t.name.toList.all fun c => c != '#' && c != '@') &&
        l.grammar.nonTerminals.map NonTerminal.name == ["Rows", "Expr", "Num", "Sum", "Product",
          "Rows@rest", "Expr#-5'", "Expr#10", "Expr#10'", "Expr#atom", "Sum#op0",
          "Product#op0"]) = true := by
    cbv
  obtain ⟨l, hl, hcheck⟩ := exists_of_any_assemble hcheck
  simp only [Bool.and_eq_true, List.all_eq_true, bne_iff_ne, beq_iff_eq] at hcheck
  obtain ⟨hmarks, hnames⟩ := hcheck
  obtain ⟨-, hfind, _, lowered, hlower, -, -, howner⟩ := names_identify built_rowTypes hl hmarks
  have hsize : 10 < l.grammar.size := by
    rw [Grammar.size, ← List.length_map, hnames]
    decide
  have hname : (l.grammar.nonTerminals.map NonTerminal.name)[10]? = some "Sum#op0" := by
    rw [hnames]
    rfl
  rw [List.getElem?_map] at hname
  obtain ⟨nonTerminal, hget, hname⟩ := Option.map_eq_some_iff.1 hname
  obtain ⟨o, t, howns, -, ht, htype⟩ := howner 10 nonTerminal hget
  refine ⟨l, hl, hnames, hfind 10 hsize, lowered, o, t, hlower, howns, ht, ?_⟩
  rw [← htype, NonTerminal.typeName, hname]
  decide +kernel

end Language

end SmallLang
