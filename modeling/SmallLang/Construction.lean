import SmallLang.Value

/-!
# What a production builds

A `Construction` turns the values of a production's children into the value of the production. The
constructions of operator levels work together: `climb` starts with an operand and leaves the
operators after it to the tail, where each `operator` takes the value built so far as its first
child (`SmallLang.ParseTree.value`).
-/

set_option autoImplicit false

namespace SmallLang

/-- A field of a node to be built: its name, the number of the child that holds it, and the value it
gets when there is no such child. -/
structure Slot where
  field : String
  child : Nat
  default : Option Value
  deriving DecidableEq

/-- What the children of a production become. -/
inductive Construction where
  /-- A node of the kind, with one field for each slot. -/
  | node (kind : String) (slots : List Slot)
  /-- The child of that number. -/
  | child (i : Nat)
  | emptyList
  /-- The first child, followed by the items of the second. -/
  | listHead
  /-- The second child, followed by the items of the third. -/
  | listNext
  /-- An operand, and the operators after it. -/
  | climb
  /-- An operator without its left operand. When `looping`, its last child is the rest of the
  tail. -/
  | operator (inner : Construction) (looping : Bool)
  /-- The end of the operators after an operand. -/
  | endOfTail
  deriving DecidableEq

/-- The items of a list, and none of anything else. -/
def itemsOf (v : Option Value) : List Value := (v.bind Value.items?).getD []

/-- The value of a slot, given the children. A child that is missing is made up for by the default,
and without one by the empty list. -/
def Slot.value (s : Slot) (children : List Value) : Value :=
  (children[s.child]?.or s.default).getD .empty

/-- One step of construction. Children that are missing count as empty lists, and those beyond what
the construction asks for do not matter. -/
def Construction.apply : Construction → List Value → Value
  | node kind slots, cs => .node kind (slots.map fun s => (s.field, s.value cs))
  | child i, cs => cs[i]?.getD .empty
  | emptyList, _ => .empty
  | listHead, cs => .list (cs[0]?.toList ++ itemsOf cs[1]?)
  | listNext, cs => .list (cs[1]?.toList ++ itemsOf cs[2]?)
  | climb, cs => cs[0]?.getD .empty
  | operator inner _, cs => inner.apply cs
  | endOfTail, _ => .empty

end SmallLang
