import SmallLang.Precedence
import SmallLang.Terminal
import SmallLang.Value.FreeNames

/-!
# Declaring node types

A node type is a name with the rules that build its nodes, the types it stands in for and what its
fields mean for names. It is plain data: a builder adds to a declaration and nothing is checked
here. `SmallLang.Language` turns declarations into a parser and reports the malformed ones.
-/

set_option autoImplicit false

namespace SmallLang

/-- An element of a body. -/
inductive Sym where
  /-- The type that declares the body. -/
  | this
  /-- A node type, by name. -/
  | node (name : String)
  | terminal (t : Terminal)
  /-- A named child. The default stands in when a body has no such child. -/
  | field (name : String) (target : Sym) (default : Option Value)
  deriving DecidableEq

namespace Sym

/-- A literal as an element of a body. -/
def literal (text : String) : Sym := terminal (.literal text)

end Sym

/-- What a rule builds: the type that declares it, another type, or the rest of a list. -/
inductive Head where
  | this
  | type (name : String)
  | rest
  deriving DecidableEq

/-- What may stand in the body of a rule: a declared element, or the rest of a list. -/
inductive Element where
  | sym (s : Sym)
  | rest
  deriving DecidableEq

/-- What a rule does with the values of its children. -/
inductive Template where
  /-- Build a node of the type from the fields of the body. -/
  | construct
  /-- Hand on the only child. -/
  | handOn
  /-- Hand on the child in the place of the type itself. -/
  | skip
  | emptyList
  /-- An element, then the rest of the list. -/
  | listHead
  /-- A divider, an element, then the rest of the list. -/
  | listNext
  deriving DecidableEq

/-- A production as declared, before names are resolved. -/
structure Rule where
  head : Head
  body : List Element
  template : Template
  prec : Prec
  deriving DecidableEq

/-- The declaration of a node type. -/
structure NodeType where
  name : String
  rules : List Rule
  /-- The names of the types that this one stands in for. -/
  upgraded : List String
  isStart : Bool
  /-- The field that names the variable a node refers to. -/
  variableField : Option String
  bindings : List Binding
  deriving DecidableEq

namespace NodeType

/-- A type of which only the name is declared. -/
def named (name : String) : NodeType :=
  { name, rules := [], upgraded := [], isStart := false, variableField := none, bindings := [] }

/-- Adds rules at the end. -/
def addRules (t : NodeType) (rules : List Rule) : NodeType := { t with rules := t.rules ++ rules }

/-- Nodes of the type are built from the body, and the fields of the body become their fields. -/
def generates (t : NodeType) (body : List Sym) (prec : Prec) : NodeType :=
  t.addRules [⟨.this, body.map .sym, .construct, prec⟩]

/-- Wherever the target is expected, this type is accepted as well. -/
def replaces (t : NodeType) (target : String) (prec : Prec) : NodeType :=
  t.addRules [⟨.type target, [.sym .this], .handOn, prec⟩]

/-- A wrapper that leaves no trace: the node in the place of the type itself is returned as it is. -/
def skip (t : NodeType) (body : List Sym) (prec : Prec) : NodeType :=
  t.addRules [⟨.this, body.map .sym, .skip, prec⟩]

/-- The type stands in for another one everywhere, also in bodies that mention the other. -/
def upgrades (t : NodeType) (source : String) : NodeType :=
  { t with upgraded := t.upgraded ++ [source] }

/-- The type is where parsing starts. -/
def start (t : NodeType) : NodeType := { t with isStart := true }

/-- The type is a sequence of elements with dividers between them. Only with `allowEmpty` may the
sequence be empty. -/
def makeList (t : NodeType) (element : Sym) (divider : String) (allowEmpty : Bool) : NodeType :=
  t.addRules
    ((if allowEmpty then [⟨.this, [], .emptyList, Prec.default⟩] else []) ++
      [⟨.this, [.sym element, .rest], .listHead, Prec.default⟩,
        ⟨.rest, [.sym (Sym.literal divider), .sym element, .rest], .listNext, Prec.default⟩,
        ⟨.rest, [], .emptyList, Prec.default⟩])

/-- Takes over the rules, the scoping and the start mark of another type. What built the other type
builds this one. -/
def inherits (t base : NodeType) : NodeType :=
  { t with
    rules := t.rules ++ base.rules
    variableField := t.variableField.or base.variableField
    isStart := t.isStart || base.isStart
    bindings := t.bindings ++ base.bindings }

/-- Nodes of the type refer to the variable named by the field. -/
def refersTo (t : NodeType) (field : String) : NodeType := { t with variableField := some field }

/-- The names in the binder fields are bound inside the scope fields. -/
def binds (t : NodeType) (binders scope : List String) : NodeType :=
  { t with bindings := t.bindings ++ [⟨binders, scope⟩] }

end NodeType

end SmallLang
