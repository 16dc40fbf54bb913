import SmallLang.Parsing.Tree

/-!
# The value of a parse tree

The value of a tree comes from its nodes' constructions, from the leaves up. Two kinds of chains
lean to the right in a tree but mean something else. The rest of a list adds its items to those of
the list that it belongs to. The tail of an operator level takes the value of the operand before it
as the left operand of its operator, and hands the result on to the rest of the tail, so operators
group to the left. The `Meaning` of a tree says what it contributes in each of these roles.
-/

set_option autoImplicit false

namespace SmallLang

/-- The construction of a production. A production that does not exist builds nothing. -/
def Grammar.constructionOf (g : Grammar) (nt p : Nat) : Construction :=
  ((g.production? nt p).map Production.construction).getD .endOfTail

/-- What a tree contributes: its own value, the items it adds as the rest of a list, and the value
it makes of the operand before it as the tail of an operator level. -/
structure Meaning where
  value : Value
  items : List Value
  climb : Value → Value

namespace Meaning

/-- A tree that is neither the rest of a list nor a tail. -/
def plain (v : Value) : Meaning := ⟨v, [], id⟩

/-- The value of an operand and the tail after it. -/
def climbed : List Meaning → Value
  | [] => .empty
  | [operand] => operand.value
  | operand :: tail :: _ => tail.climb operand.value

/-- The items of a list: the first of the meanings, then what the second adds. -/
def listItems : List Meaning → List Value
  | [] => []
  | [element] => [element.value]
  | element :: rest :: _ => element.value :: rest.items

/-- What an operator makes of the operand before it. When the tail goes on, its last child is the
rest of the tail. -/
def operated (inner : Construction) (looping : Bool) (children : List Meaning) (left : Value) :
    Value :=
  let operands := if looping then children.dropLast else children
  let value := inner.apply (left :: operands.map Meaning.value)
  match looping, children.getLast? with
  | true, some tail => tail.climb value
  | _, _ => value

/-- The meaning of a node, by the meanings of its children. -/
def ofNode (construction : Construction) (children : List Meaning) : Meaning :=
  match construction with
  | .climb => plain (climbed children)
  | .listHead => plain (.list (listItems children))
  -- The first child is the divider.
  | .listNext =>
      let items := listItems children.tail
      ⟨.list items, items, id⟩
  | .operator inner looping =>
      ⟨inner.apply (children.map Meaning.value), [], operated inner looping children⟩
  | other => plain (other.apply (children.map Meaning.value))

end Meaning

namespace ParseTree

mutual

/-- What a tree contributes. -/
def meaning (g : Grammar) : ParseTree → Meaning
  | token t => .plain t.value
  | node nt p children => .ofNode (g.constructionOf nt p) (meaningAll g children)

/-- What each of some trees contributes. -/
def meaningAll (g : Grammar) : List ParseTree → List Meaning
  | [] => []
  | t :: ts => meaning g t :: meaningAll g ts

end

/-- The value of a tree. -/
def value (g : Grammar) (t : ParseTree) : Value := (t.meaning g).value

end ParseTree

end SmallLang
