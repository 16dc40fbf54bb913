import SmallLang.Text.Integer
import SmallLang.Text.Quoted
import SmallLang.Value

/-!
# Terminals

A terminal is a literal text or a class of tokens given by a pattern. The text matched by a class
turns into a value by the decoder of the class.
-/

set_option autoImplicit false

namespace SmallLang

/-- How the text of a token turns into a value. -/
inductive Decoder where
  /-- A decimal integer of 64 bits with sign. -/
  | integer
  /-- The words for the two truth values. -/
  | boolean
  /-- The text between two quotes. -/
  | text
  /-- A name as written. -/
  | identifier
  /-- The text itself, kept as a token. -/
  | raw
  deriving DecidableEq, Repr

/-- The characters between two quotes. A single quote is not both of them. -/
def unquoted? : List Char → Option (List Char)
  | '\"' :: rest => if rest.getLast? = some '\"' then some rest.dropLast else none
  | _ => none

/-- The value of a token's text; none when the text does not fit the decoder. -/
def Decoder.decode (d : Decoder) (s : String) : Option Value :=
  match d with
  | integer => (Text.readInteger? s.toList).map Value.int
  | boolean =>
      if s = "true" then some (.bool true)
      else if s = "false" then some (.bool false)
      else none
  | text => (unquoted? s.toList).map fun cs => Value.text (String.ofList cs)
  | identifier => some (.ident s)
  | raw => some (.token s)

/-- A named class of tokens, recognised by a regular expression. Of two classes that match equally
long texts the one of higher priority wins. -/
structure TokenClass where
  name : String
  pattern : String
  decoder : Decoder
  priority : Int32
  deriving DecidableEq, Repr

/-- A kind of token: one literal text, or a class. -/
inductive Terminal where
  | literal (text : String)
  | ofClass (c : TokenClass)
  deriving DecidableEq, Repr

namespace Terminal

/-- The priority of a class that is declared without one. -/
def defaultPriority : Int32 := 10

/-- A class of tokens with the default priority. -/
def tokenClass (name pattern : String) (decoder : Decoder) : Terminal :=
  ofClass ⟨name, pattern, decoder, defaultPriority⟩

/-- The terminal with another priority. A literal has none. -/
def withPriority (t : Terminal) (priority : Int32) : Terminal :=
  match t with
  | literal text => literal text
  | ofClass c => ofClass { c with priority := priority }

/-- Rows of digits. -/
def number : Terminal := tokenClass "Number" "[0-9]+" .integer

/-- The two truth values. They are also identifiers, but win over these. -/
def boolean : Terminal := (tokenClass "Boolean" "true|false" .boolean).withPriority 100

/-- Text between quotes, line ends included. -/
def string : Terminal := tokenClass "String" "\"[^\"]*\"" .text

/-- A letter or low line, then letters, digits and low lines. -/
def identifier : Terminal := tokenClass "RawIdentifier" "[A-Za-z_][A-Za-z0-9_]*" .identifier

/-- A literal is named by its text, a class by its name. -/
def name : Terminal → String
  | literal text => text
  | ofClass c => c.name

/-- The terminal as grammars and messages show it: a quoted literal or the name of a class. -/
def render : Terminal → String
  | literal text => Text.quoted text
  | ofClass c => c.name

/-- Two literals of one text, or two classes of one name. -/
def sameKey : Terminal → Terminal → Bool
  | literal s, literal t => s == t
  | ofClass c, ofClass d => c.name == d.name
  | _, _ => false

/-- Whether the terminal is a class of that name. -/
def isClassNamed (name : String) : Terminal → Bool
  | ofClass c => c.name == name
  | literal _ => false

end Terminal

end SmallLang
