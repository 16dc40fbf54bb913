import SmallLang.Assembly.Error
import SmallLang.NodeType

/-!
# The fields of a node type

The bodies that build nodes of a type declare the fields of these nodes. All bodies declare the same
names; the first one decides their order and their defaults. The scoping of the type mentions only
these names.
-/

set_option autoImplicit false

namespace SmallLang

/-- A declared field: its name and its default. -/
structure FieldDecl where
  name : String
  default : Option Value
  deriving DecidableEq

/-- The field that an element of a body declares. A field inside a field declares nothing. -/
def Element.field? : Element → Option FieldDecl
  | .sym (.field name _ default) => some ⟨name, default⟩
  | _ => none

/-- The fields declared by the body of a rule, in order. -/
def Rule.fields (r : Rule) : List FieldDecl := r.body.filterMap Element.field?

/-- The first name of the list that was seen before. -/
def firstRepeated? (seen : List String) : List String → Option String
  | [] => none
  | name :: names =>
      if seen.contains name then some name else firstRepeated? (name :: seen) names

/-- Two lists of names without repetitions hold the same names. -/
def sameNames (xs ys : List String) : Bool := xs.length == ys.length && xs.all ys.contains

namespace NodeType

/-- The rules that build nodes of the type. -/
def buildingRules (t : NodeType) : List Rule := t.rules.filter (·.template == .construct)

/-- The fields of the nodes of the type, in the order of the first body that builds one. -/
def fields (t : NodeType) : List FieldDecl := (t.buildingRules.head?.map Rule.fields).getD []

/-- The names of the fields. -/
def fieldNames (t : NodeType) : List String := t.fields.map FieldDecl.name

/-- What the fields of the type mean for names. -/
def scoping (t : NodeType) : Scoping := ⟨t.variableField, t.bindings⟩

/-- A body declares each field once, and the fields of the type. -/
def checkBody (t : NodeType) (r : Rule) : Except AssemblyError Unit :=
  let declared := r.fields.map FieldDecl.name
  match firstRepeated? [] declared with
  | some name => .error (.duplicateField t.name name)
  | none =>
      if sameNames t.fieldNames declared then .ok ()
      else .error (.fieldMismatch t.name t.fieldNames declared)

/-- The name belongs to a field of the type. -/
def checkField (t : NodeType) (name : String) : Except AssemblyError Unit :=
  if t.fieldNames.contains name then .ok () else .error (.unknownField t.name name)

/-- All field names that the scoping of the type mentions, in order. -/
def scopingNames (t : NodeType) : List String :=
  t.variableField.toList ++ t.bindings.flatMap fun b => b.binders ++ b.scope

/-- The bodies of the type agree on its fields, and the scoping mentions only these. -/
def checkFields (t : NodeType) : Except AssemblyError Unit := do
  t.buildingRules.forM t.checkBody
  t.scopingNames.forM t.checkField

end NodeType

end SmallLang
