import SmallLang.Assembly.Fields
import SmallLang.Assembly.Upgrade
import SmallLang.Grammar

/-!
# From node types to a grammar

Every type of a language gets a non-terminal of its own name, and every type that declares a list
one more for the rest of the list. Rules become productions of the non-terminal that they build:
mentioned types become numbers, upgraded names those of the types that stand in for them, and
terminals are numbered in the order in which they are first met.
-/

set_option autoImplicit false

namespace SmallLang

/-- What names stand for while rules become productions: the types of the language, and the
upgrades that lead to them. -/
structure Naming where
  upgrades : Upgrades
  types : List NodeType

/-- Steps that may number a terminal, and may fail. -/
abbrev Lower := StateT Arena (Except AssemblyError)

/-- The rule builds the rest of a list, or mentions it. -/
def Rule.usesRest (r : Rule) : Bool := r.head == .rest || r.body.contains .rest

namespace Naming

/-- The number of the non-terminal of a type, looked up by the name of the type or by a name that
the type stands in for. -/
def typeNumber? (ns : Naming) (name : String) : Option Nat :=
  (ns.upgrades.finalName? name).bind fun final => ns.types.findIdx? (·.name == final)

/-- The names of the types that declare a list. -/
def listTypes (ns : Naming) : List String :=
  (ns.types.filter fun t => t.rules.any Rule.usesRest).map NodeType.name

/-- The number of the non-terminal for the rest of a type's list. These come after all types. -/
def restNumber (ns : Naming) (owner : String) : Nat :=
  ns.types.length + ns.listTypes.findIdx (· == owner)

/-- The names of all non-terminals, in order. -/
def nonTerminalNames (ns : Naming) : List String :=
  ns.types.map NodeType.name ++ ns.listTypes.map (· ++ "@rest")

/-- The number of a mentioned type's non-terminal. -/
def lowerType (ns : Naming) (owner name : String) : Lower Nat :=
  match ns.typeNumber? name with
  | some i => pure i
  | none => throw (.unknownType name owner)

/-- The symbol of an element declared by `owner`. A field stands for what it names. -/
def lowerSym (ns : Naming) (owner : String) : Sym → Lower Symbol
  | .this => Symbol.nonTerminal <$> ns.lowerType owner owner
  | .node name => Symbol.nonTerminal <$> ns.lowerType owner name
  | .terminal t => fun arena => (arena.intern t).map fun (i, arena') => (.terminal i, arena')
  | .field _ target _ => ns.lowerSym owner target

/-- The symbol of an element of a body. -/
def lowerElement (ns : Naming) (owner : String) : Element → Lower Symbol
  | .sym s => ns.lowerSym owner s
  | .rest => pure (.nonTerminal (ns.restNumber owner))

/-- The number of the non-terminal that a rule builds. -/
def lowerHead (ns : Naming) (owner : String) : Head → Lower Nat
  | .this => ns.lowerType owner owner
  | .type name => ns.lowerType owner name
  | .rest => pure (ns.restNumber owner)

end Naming

/-- The places of the declaring type itself in a body. -/
def Rule.thisPlaces (r : Rule) : List Nat :=
  r.body.zipIdx.filterMap fun (e, i) => if e = .sym .this then some i else none

/-- The place in the body of the field of that name. -/
def Rule.fieldPlace (r : Rule) (name : String) : Nat :=
  r.body.findIdx fun e => (e.field?.map FieldDecl.name) == some name

/-- What a rule of the type builds. -/
def NodeType.construction (t : NodeType) (r : Rule) : Except AssemblyError Construction :=
  match r.template with
  | .construct =>
      .ok (.node t.name (t.fields.map fun f => ⟨f.name, r.fieldPlace f.name, f.default⟩))
  | .handOn => .ok (.child 0)
  | .skip =>
      match r.thisPlaces with
      | [i] => .ok (.child i)
      | places => .error (.skipPlaceholder t.name places.length)
  | .emptyList => .ok .emptyList
  | .listHead => .ok .listHead
  | .listNext => .ok .listNext

namespace Naming

/-- A rule of the type as a production, with the number of the non-terminal it belongs to. -/
def lowerRule (ns : Naming) (t : NodeType) (r : Rule) : Lower (Nat × Production) := do
  let head ← ns.lowerHead t.name r.head
  let symbols ← r.body.mapM (ns.lowerElement t.name)
  let construction ← t.construction r
  pure (head, ⟨symbols, construction, r.prec⟩)

/-- The productions of a type, after its fields were checked. -/
def lowerNodeType (ns : Naming) (t : NodeType) : Lower (List (Nat × Production)) := do
  t.checkFields
  t.rules.mapM (ns.lowerRule t)

/-- The productions of all types, in order. -/
def lowerAll (ns : Naming) : Lower (List (Nat × Production)) := do
  pure (← ns.types.mapM ns.lowerNodeType).flatten

/-- The non-terminals, each with the productions that belong to it. -/
def nonTerminals (ns : Naming) (productions : List (Nat × Production)) : List NonTerminal :=
  ns.nonTerminalNames.zipIdx.map fun (name, i) =>
    ⟨name, (productions.filter (·.1 == i)).map Prod.snd⟩

end Naming

/-- The grammar of a list of types before operators are arranged in levels, and the types it was
made from, after upgrades. -/
structure Lowered where
  grammar : Grammar
  types : List NodeType
  start : String

/-- Makes a grammar of declarations. -/
def lower (declared : List NodeType) : Except AssemblyError Lowered := do
  let upgrades ← Upgrades.ofTypes declared
  let types ← upgrades.settle declared
  let start ← uniqueStart types
  let ns : Naming := ⟨upgrades, types⟩
  -- The productions are made in the order of the types, which numbers the terminals.
  let (productions, arena) ← ns.lowerAll.run Arena.empty
  pure
    { grammar :=
        { nonTerminals := ns.nonTerminals productions
          arena
          start := types.findIdx (·.name == start) }
      types
      start }

end SmallLang
