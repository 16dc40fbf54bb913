/-!
# Values

A value is what a parse yields: scalars decoded from tokens, lists, and the nodes of a syntax tree.
A node carries the name of its type and its fields in the order of the declaration. Two values are
the same value exactly when they are equal as data, so nodes built by different languages compare by
kind, field names and field values (`Value.beq_iff_eq`).
-/

set_option autoImplicit false

namespace SmallLang

/-- What parsing a text yields. -/
inductive Value where
  | int (n : Int)
  | bool (b : Bool)
  | text (s : String)
  | ident (s : String)
  /-- The text of a literal, or of a class that keeps its text. -/
  | token (s : String)
  | list (items : List Value)
  /-- A node of the syntax tree: the name of its type, and its fields in declaration order. -/
  | node (kind : String) (fields : List (String × Value))
  deriving Inhabited

namespace Value

/-! ## Equality -/

mutual

/-- Structural equality as a test. -/
def beq : Value → Value → Bool
  | int m, int n => m == n
  | bool a, bool b => a == b
  | text s, text t => s == t
  | ident s, ident t => s == t
  | token s, token t => s == t
  | list vs, list ws => beqList vs ws
  | node k fs, node l gs => k == l && beqFields fs gs
  | _, _ => false

/-- The test on lists of values. -/
def beqList : List Value → List Value → Bool
  | [], [] => true
  | v :: vs, w :: ws => beq v w && beqList vs ws
  | _, _ => false

/-- The test on named fields. -/
def beqFields : List (String × Value) → List (String × Value) → Bool
  | [], [] => true
  | (f, v) :: fs, (g, w) :: gs => f == g && beq v w && beqFields fs gs
  | _, _ => false

end

mutual

theorem beq_iff_eq : ∀ v w : Value, beq v w = true ↔ v = w
  | int m, w => by cases w <;> simp [beq]
  | bool b, w => by cases w <;> simp [beq]
  | text s, w => by cases w <;> simp [beq]
  | ident s, w => by cases w <;> simp [beq]
  | token s, w => by cases w <;> simp [beq]
  | list vs, w => by
      cases w with
      | list ws => simp [beq, beqList_iff_eq vs ws]
      | _ => simp [beq]
  | node k fs, w => by
      cases w with
      | node l gs => simp [beq, beqFields_iff_eq fs gs]
      | _ => simp [beq]

theorem beqList_iff_eq : ∀ vs ws : List Value, beqList vs ws = true ↔ vs = ws
  | [], ws => by cases ws <;> simp [beqList]
  | v :: vs, ws => by
      cases ws with
      | nil => simp [beqList]
      | cons w ws => simp [beqList, beq_iff_eq v w, beqList_iff_eq vs ws]

theorem beqFields_iff_eq :
    ∀ fs gs : List (String × Value), beqFields fs gs = true ↔ fs = gs
  | [], gs => by cases gs <;> simp [beqFields]
  | (f, v) :: fs, gs => by
      cases gs with
      | nil => simp [beqFields]
      | cons g gs => simp [beqFields, beq_iff_eq v g.2, beqFields_iff_eq fs gs, Prod.ext_iff]

end

instance : DecidableEq Value := fun v w => decidable_of_iff _ (beq_iff_eq v w)

/-! ## Views -/

/-- The list without items. -/
def empty : Value := list []

/-- The number, of an integer. -/
def int? : Value → Option Int
  | int n => some n
  | _ => none

/-- The truth value, of a truth value. -/
def bool? : Value → Option Bool
  | bool b => some b
  | _ => none

/-- The text, of a text, an identifier or a token. -/
def str? : Value → Option String
  | text s => some s
  | ident s => some s
  | token s => some s
  | _ => none

/-- The items, of a list. -/
def items? : Value → Option (List Value)
  | list vs => some vs
  | _ => none

/-- The value of the field of that name, of a node that has it. -/
def field? (name : String) : Value → Option Value
  | node _ fs => fs.lookup name
  | _ => none

mutual

/-- All texts of a value and of the lists in it, from left to right. -/
def names : Value → List String
  | text s => [s]
  | ident s => [s]
  | token s => [s]
  | list vs => namesAll vs
  | _ => []

/-- The names of all items. -/
def namesAll : List Value → List String
  | [] => []
  | v :: vs => names v ++ namesAll vs

end

mutual

/-- The number of values in a value, itself included. -/
def size : Value → Nat
  | list vs => 1 + sizeAll vs
  | node _ fs => 1 + sizeFields fs
  | _ => 1

/-- The number of values in a list of values. -/
def sizeAll : List Value → Nat
  | [] => 0
  | v :: vs => size v + sizeAll vs

/-- The number of values in some fields. -/
def sizeFields : List (String × Value) → Nat
  | [] => 0
  | (_, v) :: fs => size v + sizeFields fs

end

end Value

end SmallLang
