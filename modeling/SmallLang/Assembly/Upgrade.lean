import SmallLang.Assembly.Error
import SmallLang.NodeType

/-!
# Upgrades

A type may stand in for others. An `Upgrades` table gives for each upgraded name the type that
stands in for it; following the table from a type ends at the type that finally takes its place.
`Upgrades.settle` turns a list of declarations into the types of the language: upgraded types are
replaced, repeated declarations dropped, and the first occurrence of a type keeps its place.
-/

set_option autoImplicit false

namespace SmallLang

/-- Upgraded names, each with the type that stands in for it. -/
abbrev Upgrades := List (String × NodeType)

namespace Upgrades

/-- Notes that the type stands in for the name. Another type of the same name may have said so
before, a type of another name may not. -/
def add (t : NodeType) (u : Upgrades) (name : String) : Except AssemblyError Upgrades :=
  match u.lookup name with
  | none => .ok (u ++ [(name, t)])
  | some first =>
      if first.name = t.name then .ok u
      else .error (.conflictingUpgrade name first.name t.name)

/-- The upgrades declared by a list of types. -/
def ofTypes (types : List NodeType) : Except AssemblyError Upgrades :=
  types.foldlM (fun u t => t.upgraded.foldlM (add t) u) []

/-- Follows upgrades from a type for fewer than the given number of steps. -/
def follow (u : Upgrades) : Nat → NodeType → Option NodeType
  | 0, _ => none
  | n + 1, t =>
      match u.lookup t.name with
      | none => some t
      | some next => u.follow n next

/-- The type that finally takes the place of a type. A walk that visits more types than there are
upgrades visits one of them twice, so it never ends. -/
def final? (u : Upgrades) (t : NodeType) : Option NodeType := u.follow (u.length + 1) t

/-- The type that finally takes the place of a type. -/
def resolve (u : Upgrades) (t : NodeType) : Except AssemblyError NodeType :=
  match u.final? t with
  | some last => .ok last
  | none => .error (.upgradeCycle t.name)

/-- Adds a type to those of a language, unless it is there already. -/
def admitType (types : List NodeType) (t : NodeType) : Except AssemblyError (List NodeType) :=
  match types.find? (·.name == t.name) with
  | none => .ok (types ++ [t])
  | some known => if known = t then .ok types else .error (.duplicateType t.name)

/-- The types of the language, in the order in which they first occur. -/
def settle (u : Upgrades) (types : List NodeType) : Except AssemblyError (List NodeType) :=
  types.foldlM (fun settled t => do admitType settled (← u.resolve t)) []

/-- The name of the type that finally takes the place of the type of that name. -/
def finalName? (u : Upgrades) (name : String) : Option String :=
  match u.lookup name with
  | none => some name
  | some next => (u.final? next).map NodeType.name

end Upgrades

/-- The name of the only start type. -/
def uniqueStart (types : List NodeType) : Except AssemblyError String :=
  match types.filter NodeType.isStart with
  | [t] => .ok t.name
  | starts => .error (.noUniqueStart (starts.map NodeType.name))

end SmallLang
