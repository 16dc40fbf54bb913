import SmallLang.Assembly.Lowering
import SmallLang.Operator.Ladder
import SmallLang.Lookahead.LeftRecursion
import SmallLang.Lookahead.ParseTable
import SmallLang.Parsing.Fold
import SmallLang.Parsing.Parser
import SmallLang.Parsing.Scanner
import SmallLang.Pattern.Read

/-!
# Languages

A language is made of node types. Assembling it resolves the types to a grammar, arranges operators
in levels, computes what can come first and next, and builds the parse table and the scanner; each of
these steps may refuse. A language never changes: extending it makes a new one from its types and
further ones.
-/

set_option autoImplicit false

namespace SmallLang

/-- Where the grammar of every assembled language is written to. -/
inductive DumpTarget where
  /-- The error output. -/
  | console
  /-- A file named after the start type, in the directory of that path. -/
  | directory (path : List String)
  deriving DecidableEq, Repr

/-- The settings of assembly. -/
structure Config where
  dump : Option DumpTarget
  deriving DecidableEq, Repr

/-- No grammar is written. -/
def Config.quiet : Config := ⟨none⟩

/-- A grammar with all that is derived from it. -/
structure Compiled where
  grammar : Grammar
  first : FirstTable grammar.arena.size
  follow : FollowTable grammar.arena.size
  table : ParseTable
  scanner : Scanner

namespace Compiled

/-- Derives everything from a grammar whose operators are arranged in levels. -/
def ofGrammar (g : Grammar) : Except AssemblyError Compiled := do
  let first := g.firstTable
  g.checkLeftRecursion first
  let follow := g.followTable first
  let table ← g.parseTable first follow
  let scanner ← Scanner.ofArena Pattern.compile? g.arena
  pure ⟨g, first, follow, table, scanner⟩

/-- The grammar, its FIRST and FOLLOW sets and its table as a text. -/
def dump (c : Compiled) : String :=
  let g := c.grammar
  let setLines (render : Nat → String) : List String :=
    g.nonTerminals.zipIdx.map fun (nt, i) => nt.name ++ ": " ++ render i
  "GRAMMAR\n" ++ g.render ++
    "\nFIRST\n" ++ unlines (setLines fun i => (c.first.get i).render g.arena) ++
    "\nFOLLOW\n" ++ unlines (setLines fun i => (c.follow.get i).render g.arena) ++
    "\nTABLE\n" ++ g.renderTable c.table

end Compiled

/-- A set of node types assembled into a parser. -/
structure Language where
  /-- The types after upgrades. -/
  types : List NodeType
  /-- The name of the start type. -/
  start : String
  config : Config
  compiled : Compiled

namespace Language

/-- Assembles node types. -/
def assemble (types : List NodeType) (config : Config) : Except AssemblyError Language := do
  let lowered ← lower types
  let compiled ← Compiled.ofGrammar lowered.grammar.stratify
  pure ⟨lowered.types, lowered.start, config, compiled⟩

/-- The language of the types of this one and further ones. -/
def addTypes (l : Language) (types : List NodeType) : Except AssemblyError Language :=
  assemble (l.types ++ types) l.config

/-- The grammar after operators were arranged in levels. -/
def grammar (l : Language) : Grammar := l.compiled.grammar

/-- The terminals of the language. -/
def arena (l : Language) : Arena := l.grammar.arena

/-- The tokens of a text. -/
def tokenize (l : Language) (text : String) : Except ParseError (List Token) :=
  l.compiled.scanner.tokenize text

/-- A token for the terminal of that name that does not come from a text. -/
def token (l : Language) (terminal text : String) : Except ParseError Token :=
  Token.ofName l.arena terminal text

/-- The parse tree of a row of tokens. -/
def treeOfTokens (l : Language) (tokens : List Token) : Except ParseError ParseTree :=
  Parser.parse l.grammar l.compiled.table tokens

/-- The parse tree of a text. -/
def parseTree (l : Language) (text : String) : Except ParseError ParseTree := do
  l.treeOfTokens (← l.tokenize text)

/-- The value of a row of tokens. -/
def parseTokens (l : Language) (tokens : List Token) : Except ParseError Value :=
  (l.treeOfTokens tokens).map (·.value l.grammar)

/-- The value of a text. -/
def parse (l : Language) (text : String) : Except ParseError Value := do
  l.parseTokens (← l.tokenize text)

/-- The declaration of the type of that name. -/
def type? (l : Language) (name : String) : Option NodeType := l.types.find? (·.name == name)

/-- What the nodes of each kind mean for names. -/
def scopes (l : Language) : Scopes := fun kind =>
  ((l.type? kind).map NodeType.scoping).getD Scoping.plain

/-- The fields of the nodes of each kind, with their defaults. -/
def fieldsOf (l : Language) (kind : String) : List FieldDecl :=
  ((l.type? kind).map NodeType.fields).getD []

/-- The grammar of the language and all that is derived from it, as a text. -/
def dump (l : Language) : String := l.compiled.dump

end Language

end SmallLang
