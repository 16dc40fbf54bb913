import SmallLang.Pattern.CharSet
import SmallLang.Text.Property.Category
import SmallLang.Text.Property.Script

/-!
# Formulas for sets of characters

Most properties of characters follow from others, and a formula says how. The tables that it refers
to are read only when the formula is evaluated.
-/

set_option autoImplicit false

namespace SmallLang

/-- A set of characters, made from tables. -/
inductive SetFormula where
  /-- The codes written in lines of text. -/
  | codes (lines : List String)
  /-- The codes in some ranges. -/
  | ranges (rs : List (Nat × Nat))
  /-- Every `step`-th code from `first` to `last`. -/
  | every (step first last : Nat)
  /-- The characters of some general categories, given by short names. -/
  | category (names : List String)
  /-- The characters of a script, given by its short name. -/
  | script (name : String)
  | union (a b : SetFormula)
  | intersection (a b : SetFormula)
  | difference (a b : SetFormula)

namespace SetFormula

instance : Union SetFormula := ⟨.union⟩
instance : Inter SetFormula := ⟨.intersection⟩
instance : SDiff SetFormula := ⟨.difference⟩

/-- All ranges of the sets in a table whose first name is one of those given. -/
def rangesNamed (table : List Text.NamedRanges) (names : List String) : List (Nat × Nat) :=
  (table.filter fun set => names.contains set.name).flatMap (·.ranges)

/-- The set that a formula describes. -/
def eval : SetFormula → CharSet
  | codes lines => .ofRanges (Text.readTable lines)
  | ranges rs => .ofRanges rs
  | every step first last =>
      .ofRanges ((List.range ((last - first) / step + 1)).map fun i =>
        (first + step * i, first + step * i))
  | category names => .ofRanges (rangesNamed Text.categories names)
  | script name => .ofRanges (rangesNamed Text.scripts [name])
  | union a b => a.eval.union b.eval
  | intersection a b => a.eval.intersection b.eval
  | difference a b => a.eval.difference b.eval

end SetFormula

/-- A formula with the names of the set that it describes. -/
structure NamedFormula where
  name : String
  otherNames : List String
  formula : SetFormula

/-- The formula of a table entry. -/
def NamedFormula.ofRanges (set : Text.NamedRanges) : NamedFormula :=
  ⟨set.name, set.otherNames, .codes set.lines⟩

/-- The formula in a table for a name of which `key` is the part that counts. -/
def formulaNamed? (key : String) (table : List NamedFormula) : Option SetFormula :=
  (table.find? fun entry => Text.isNameOf key (entry.name :: entry.otherNames)).map (·.formula)

end SmallLang
