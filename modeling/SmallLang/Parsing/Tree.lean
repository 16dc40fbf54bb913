import SmallLang.Grammar
import SmallLang.Parsing.Token

/-!
# Parse trees

A parse tree records the production chosen for each non-terminal, down to the tokens. Its text form
has a line for each node, indented by depth.
-/

set_option autoImplicit false

namespace SmallLang

/-- A token, or a non-terminal with the number of the production chosen for it and its children. -/
inductive ParseTree where
  | token (t : Token)
  | node (nonTerminal production : Nat) (children : List ParseTree)
  deriving Inhabited

namespace ParseTree

mutual

/-- The tokens of a tree from left to right. -/
def tokens : ParseTree → List Token
  | token t => [t]
  | node _ _ children => tokensAll children

/-- The tokens of some trees from left to right. -/
def tokensAll : List ParseTree → List Token
  | [] => []
  | t :: ts => tokens t ++ tokensAll ts

end

/-- The symbol that a tree stands for. -/
def root : ParseTree → Symbol
  | token t => .terminal t.terminal
  | node nt _ _ => .nonTerminal nt

mutual

/-- Whether every node has the children that its production asks for. -/
def IsDerivation (g : Grammar) : ParseTree → Prop
  | token _ => True
  | node nt p children =>
      (g.production? nt p).map Production.symbols = some (children.map root) ∧
        AllDerivations g children

/-- Whether every node of some trees has the children that its production asks for. -/
def AllDerivations (g : Grammar) : List ParseTree → Prop
  | [] => True
  | t :: ts => IsDerivation g t ∧ AllDerivations g ts

end

/-- A node of a tree, without its children. -/
inductive Label where
  | token (t : Token)
  | node (nonTerminal production children : Nat)
  deriving DecidableEq

mutual

/-- The nodes of a tree at the given depth: each node before its children, these from left to
right. -/
def preorder (depth : Nat) : ParseTree → List (Nat × Label)
  | token t => [(depth, .token t)]
  | node nt p children =>
      (depth, .node nt p children.length) :: preorderAll (depth + 1) children

/-- The nodes of some trees at the given depth. -/
def preorderAll (depth : Nat) : List ParseTree → List (Nat × Label)
  | [] => []
  | t :: ts => preorder depth t ++ preorderAll depth ts

end

/-- A node as trees show it: the name of a non-terminal, or a described token. -/
def Label.render (g : Grammar) : Label → String
  | token t => (t.describe? g.arena).getD ""
  | node nt _ _ => g.nameOf nt

/-- The line of a node: four spaces for each level above it. -/
def renderLine (g : Grammar) (depth : Nat) (label : Label) : String :=
  String.ofList (List.replicate (4 * depth) ' ') ++ label.render g

/-- The lines of a tree. -/
def render (g : Grammar) (t : ParseTree) : String :=
  String.join ((t.preorder 0).map fun (depth, label) => renderLine g depth label ++ "\n")

end ParseTree

end SmallLang
