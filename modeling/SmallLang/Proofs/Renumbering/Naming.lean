import SmallLang.Proofs.Assembly.Shape
import SmallLang.Proofs.Assembly.Terminals
import SmallLang.Proofs.Renumbering.Grammar

/-!
# Rules by other numbers

A second naming carries the types, the rests of lists and the terminals of a first one to other numbers
(`Naming.Carries`). Whatever a rule needs is there as well, and the rule becomes the same production by these
numbers (`Naming.Carries.production?`).
-/

set_option autoImplicit false

namespace SmallLang

open Equiv (Perm)

namespace Naming

/-- What a name or the rest of a list leads to in the first naming it leads to in the second one, by its
other number. -/
structure Carries (σ : Perm Nat) (ns ns' : Naming) : Prop where
  typeNumber? : ∀ name i, ns.typeNumber? name = some i → ns'.typeNumber? name = some (σ i)
  restNumber : ∀ owner ∈ ns.listTypes, ns'.restNumber owner = σ (ns.restNumber owner)

namespace Carries

variable {ns ns' : Naming} {σ : Perm Nat} (h : Carries σ ns ns')
include h

theorem resolves {pool pool' : Terminal → Prop} (hpool : ∀ t, pool t → pool' t) {owner : String}
    {s : Sym} (hs : ns.Resolves pool owner s) : ns'.Resolves pool' owner s := by
  induction s with
  | this => exact hs.imp' σ fun _ hi => h.typeNumber? _ _ hi
  | node name => exact hs.imp' σ fun _ hi => h.typeNumber? _ _ hi
  | terminal t => exact hpool t hs
  | field name target default ih => exact ih hs

/-- What a rule needs is there in the second naming too. -/
theorem lowers {pool pool' : Terminal → Prop} (hpool : ∀ t, pool t → pool' t) {t : NodeType}
    {rule : Rule} (hr : ns.Lowers pool t rule) : ns'.Lowers pool' t rule := by
  refine ⟨?_, fun s hs => h.resolves hpool (hr.body s hs), hr.construction⟩
  obtain ⟨i, hi⟩ := hr.head
  cases hhead : rule.head with
  | this =>
      rw [hhead] at hi
      exact ⟨σ i, h.typeNumber? _ _ hi⟩
  | type name =>
      rw [hhead] at hi
      exact ⟨σ i, h.typeNumber? _ _ hi⟩
  | rest => exact ⟨_, rfl⟩

theorem restNumber_of_mem {t : NodeType} {rule : Rule} (ht : t ∈ ns.types) (hrule : rule ∈ t.rules)
    (huses : rule.usesRest = true) : ns'.restNumber t.name = σ (ns.restNumber t.name) :=
  h.restNumber _
    (List.mem_map.2 ⟨t, List.mem_filter.2 ⟨ht, List.any_eq_true.2 ⟨rule, hrule, huses⟩⟩, rfl⟩)

variable {a a' : Arena} {τ : Perm Nat}
  (harena : ∀ t ∈ a.terminals, ∀ i, a.indexOf? t = some i → a'.indexOf? t = some (τ i))
include harena

/-- A symbol by its other number. -/
theorem symbol? {owner : String} {s : Sym} (hs : ns.Resolves (· ∈ a.terminals) owner s) {x : Symbol}
    (hx : ns.symbol? a owner s = some x) :
    ns'.symbol? a' owner s = some (Renumbering.symbol ⟨σ, τ, Equiv.refl String⟩ x) := by
  have hnumber : ∀ {name x}, (ns.typeNumber? name).map Symbol.nonTerminal = some x →
      (ns'.typeNumber? name).map Symbol.nonTerminal =
        some (Renumbering.symbol ⟨σ, τ, Equiv.refl String⟩ x) := by
    intro name x hx
    obtain ⟨i, hi, rfl⟩ := Option.map_eq_some_iff.1 hx
    rw [h.typeNumber? _ _ hi]
    rfl
  induction s with
  | this => exact hnumber hx
  | node name => exact hnumber hx
  | terminal t =>
      obtain ⟨i, hi, rfl⟩ := Option.map_eq_some_iff.1 hx
      simp only [Naming.symbol?, harena t hs i hi]
      rfl
  | field name target default ih => exact ih hs hx

/-- The production of a rule by its other numbers. -/
theorem production? {t : NodeType} {rule : Rule} (ht : t ∈ ns.types) (hrule : rule ∈ t.rules)
    (hlowers : ns.Lowers (· ∈ a.terminals) t rule) {i : Nat} {p : Production}
    (hp : ns.production? a t rule = some (i, p)) :
    ns'.production? a' t rule =
      some (σ i, Renumbering.production ⟨σ, τ, Equiv.refl String⟩ p) := by
  obtain ⟨hhead, hbody, hconstruction, hprec⟩ := production?_eq_some_iff.1 hp
  refine production?_eq_some_iff.2 ⟨?_, ?_, ?_, hprec⟩
  · cases hcase : rule.head with
    | this =>
        rw [hcase] at hhead
        exact h.typeNumber? _ _ hhead
    | type name =>
        rw [hcase] at hhead
        exact h.typeNumber? _ _ hhead
    | rest =>
        rw [hcase] at hhead
        obtain rfl := Option.some.inj hhead
        rw [headNumber?, h.restNumber_of_mem ht hrule (by simp [Rule.usesRest, hcase])]
  · rw [Renumbering.production, List.forall₂_map_right_iff]
    refine ((List.forall₂_and_left rule.body p.symbols).2 ⟨fun x hx => hx, hbody⟩).imp ?_
    rintro x s ⟨hx, hsymbol⟩
    cases x with
    | sym y => exact h.symbol? harena (hlowers.body y hx) hsymbol
    | rest =>
        obtain rfl := Option.some.inj hsymbol
        rw [elementSymbol?, h.restNumber_of_mem ht hrule (by simp [Rule.usesRest, hx])]
        rfl
  · rw [hconstruction]
    exact congrArg Except.ok p.construction.rename_id.symm

/-- The productions of all types of the first naming by their other numbers. -/
theorem ruleProductions {productions : List (Nat × Production)}
    (hrun : ns.lowerAll.run Arena.empty = .ok (productions, a)) :
    (ns.types.flatMap fun t => t.rules.filterMap (ns'.production? a' t)) =
      (ns.ruleProductions a).map fun x =>
        (σ x.1, Renumbering.production ⟨σ, τ, Equiv.refl String⟩ x.2) := by
  obtain ⟨-, hlowers⟩ := lowers_of_lowerAll hrun
  obtain ⟨-, hproduces, -⟩ := ns.lowerAll_eq_ok hrun
  rw [Naming.ruleProductions, List.map_flatMap]
  refine List.flatMap_congr fun t ht => ?_
  rw [List.map_filterMap]
  refine List.filterMap_congr fun rule hrule => ?_
  obtain ⟨⟨i, p⟩, hp⟩ := hproduces t ht rule hrule
  rw [h.production? harena ht hrule (hlowers t ht rule hrule) hp, hp]
  rfl

end Carries

end Naming

/-- What belongs to a number belongs to its other number. -/
theorem filter_number_map {α β : Type} (σ : Perm Nat) (f : α → β) (xs : List (Nat × α)) (i : Nat) :
    ((xs.map fun x => (σ x.1, f x.2)).filter (·.1 == σ i)).map Prod.snd =
      ((xs.filter (·.1 == i)).map Prod.snd).map f := by
  have hsame : ((fun y : Nat × β => y.1 == σ i) ∘ fun x : Nat × α => (σ x.1, f x.2)) =
      fun x : Nat × α => x.1 == i := by
    funext x
    rw [Function.comp_apply, Bool.eq_iff_iff, beq_iff_eq, beq_iff_eq]
    exact σ.injective.eq_iff
  rw [List.filter_map, hsame, List.map_map, List.map_map]
  rfl

end SmallLang
