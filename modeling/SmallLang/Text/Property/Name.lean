import SmallLang.Text.CodeRanges

/-!
# Names of properties

A property, a category or a script has a name and often other names. Names are compared loosely: by
their letters and digits only, regardless of case, and without an `is` in front.
-/

set_option autoImplicit false

namespace SmallLang.Text

/-- Takes an `is` in either case off the front of a name. -/
def splitIs : List Char → List Char × List Char
  | a :: b :: rest =>
      if a.toLower = 'i' ∧ b.toLower = 's' then ([a, b], rest) else ([], a :: b :: rest)
  | name => ([], name)

/-- The part of a name that counts. Where a `c` alone would be left, the `is` before it counts, too,
for `isc` names a property and `c` a category. -/
def looseName (name : String) : String :=
  let (leading, rest) := splitIs name.toList
  let counts (c : Char) : Bool := c.toNat < 0x80 && c != ' ' && c != '_' && c != '-'
  let key := (rest.filter counts).map Char.toLower
  String.ofList (if key = ['c'] then leading.map Char.toLower ++ key else key)

/-- Whether one of some names is the one of which `key` is the part that counts. -/
def isNameOf (key : String) (names : List String) : Bool :=
  names.any fun name => looseName name = key

/-- A set of characters with its names, and with its ranges of codes in lines of text. -/
structure NamedRanges where
  name : String
  otherNames : List String
  lines : List String

/-- The ranges of codes of the set. -/
def NamedRanges.ranges (set : NamedRanges) : List (Nat × Nat) := readTable set.lines

end SmallLang.Text
