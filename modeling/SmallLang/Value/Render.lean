import SmallLang.Text.Quoted
import SmallLang.Value

/-!
# The text of values

`Value.render` is the short form, `Add(Num(1), x)`: identifiers are bare, other texts are quoted, a
node shows its kind and its field values. `Value.renderTagged` also names the form of each value and
the fields, as in `Node(Add { left: Int(1), right: List([]) })`.
-/

set_option autoImplicit false

namespace SmallLang.Value

open SmallLang.Text

mutual

/-- The short form of a value. -/
def render : Value → String
  | int n => toString n
  | bool b => toString b
  | text s => quoted s
  | token s => quoted s
  | ident s => s
  | list vs => bracketed (renderAll vs)
  | node kind [] => kind
  | node kind (f :: fs) =>
      kind ++ "(" ++ ", ".intercalate (renderFields (f :: fs)) ++ ")"

/-- The short forms of some values. -/
def renderAll : List Value → List String
  | [] => []
  | v :: vs => render v :: renderAll vs

/-- The short forms of field values, without the names. -/
def renderFields : List (String × Value) → List String
  | [] => []
  | (_, v) :: fs => render v :: renderFields fs

end

/-- A form's name and what it holds, in parentheses. -/
def tagged (form content : String) : String := form ++ "(" ++ content ++ ")"

mutual

/-- The form that names the kind of every value and every field. -/
def renderTagged : Value → String
  | int n => tagged "Int" (toString n)
  | bool b => tagged "Bool" (toString b)
  | text s => tagged "Text" (quoted s)
  | ident s => tagged "Ident" (quoted s)
  | token s => tagged "Token" (quoted s)
  | list vs => tagged "List" (bracketed (renderTaggedAll vs))
  | node kind [] => tagged "Node" kind
  | node kind (f :: fs) =>
      tagged "Node"
        (kind ++ " \x7b " ++ ", ".intercalate (renderTaggedFields (f :: fs)) ++ " \x7d")

/-- The tagged forms of some values. -/
def renderTaggedAll : List Value → List String
  | [] => []
  | v :: vs => renderTagged v :: renderTaggedAll vs

/-- Each field's name, a colon and the tagged form of its value. -/
def renderTaggedFields : List (String × Value) → List String
  | [] => []
  | (name, v) :: fs => (name ++ ": " ++ renderTagged v) :: renderTaggedFields fs

end

end SmallLang.Value
