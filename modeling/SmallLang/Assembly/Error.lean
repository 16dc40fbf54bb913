import SmallLang.Text.Quoted

/-!
# Why a language cannot be assembled

`AssemblyError` has one constructor for each cause, and `AssemblyError.message` words it.
-/

set_option autoImplicit false

namespace SmallLang

/-- The causes for which node types do not make a language. -/
inductive AssemblyError where
  /-- Two types of different names stand in for the same type. -/
  | conflictingUpgrade (upgraded first second : String)
  /-- Following the upgrades of a type never ends. -/
  | upgradeCycle (typeName : String)
  /-- Not exactly one type is a start type. -/
  | noUniqueStart (found : List String)
  /-- Two different declarations have one name. -/
  | duplicateType (name : String)
  /-- A declaration mentions a type that is neither part of the language nor upgraded in it. -/
  | unknownType (name referencedBy : String)
  /-- Two bodies of a type declare different fields. -/
  | fieldMismatch (typeName : String) (expected found : List String)
  /-- A body declares a field twice. -/
  | duplicateField (typeName field : String)
  /-- The scoping of a type mentions a field that the type does not have. -/
  | unknownField (typeName field : String)
  /-- A transparent body does not have exactly one place for the wrapped node. -/
  | skipPlaceholder (typeName : String) (count : Nat)
  /-- Two different token classes have one name. -/
  | conflictingTerminal (name : String)
  /-- The pattern of a token class is no regular expression. -/
  | invalidPattern (terminal : String)
  /-- A non-terminal derives a form that begins with itself. -/
  | leftRecursion (nonTerminal : String)
  /-- Several productions of the highest priority apply to one non-terminal and lookahead. -/
  | ambiguous (nonTerminal lookahead : String) (productions : List String)
  deriving DecidableEq, Repr

namespace AssemblyError

open SmallLang.Text

/-- A name between backquotes. -/
private def named (s : String) : String := "`" ++ s ++ "`"

/-- The text of the error. -/
def message : AssemblyError → String
  | conflictingUpgrade upgraded first second =>
      "can't upgrade " ++ named upgraded ++ " both to " ++ named first ++ " and " ++ named second
  | upgradeCycle typeName => "upgrades of " ++ named typeName ++ " form a cycle"
  | noUniqueStart found => "there is no unique start type (found " ++ quotedList found ++ ")"
  | duplicateType name => "two different node types are named " ++ named name
  | unknownType name referencedBy =>
      named referencedBy ++ " refers to " ++ named name ++ ", which is not part of the language"
  | fieldMismatch typeName expected found =>
      "fields of " ++ named typeName ++ " differ between productions: " ++ quotedList expected ++
        " vs. " ++ quotedList found
  | duplicateField typeName field =>
      "field " ++ named field ++ " is declared twice in one production of " ++ named typeName
  | unknownField typeName field => named typeName ++ " has no field named " ++ named field
  | skipPlaceholder typeName count =>
      "skip production of " ++ named typeName ++ " needs exactly one THIS, found " ++
        toString count
  | conflictingTerminal name =>
      "terminal " ++ named name ++ " is declared with two different definitions"
  | invalidPattern terminal => "invalid pattern for terminal " ++ named terminal
  | leftRecursion nonTerminal => "non-terminal " ++ named nonTerminal ++ " is left recursive"
  | ambiguous nonTerminal lookahead productions =>
      "ambiguous grammar: " ++ named nonTerminal ++ " on " ++ lookahead ++
        " can start with any of " ++ quotedList productions

end AssemblyError

end SmallLang
