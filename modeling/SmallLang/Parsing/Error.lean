import SmallLang.Text.Position
import SmallLang.Text.Quoted

/-!
# Why a text cannot be parsed

`ParseError` has one constructor for each cause, with the place where it shows, and
`ParseError.message` words it.
-/

set_option autoImplicit false

namespace SmallLang

/-- The causes for which a text or a row of tokens is refused. -/
inductive ParseError where
  /-- No production of the non-terminal can begin with the token. -/
  | unexpectedToken (typeName found : String) (position : Position)
  /-- Another terminal has to come here. -/
  | mismatch (expected found : String) (position : Position)
  /-- Something has to come here, but the input ends. -/
  | unexpectedEnd (expected : String) (position : Position)
  /-- The input goes on after a complete text. -/
  | unconsumedInput (found : String) (position : Position)
  /-- No terminal matches the text. -/
  | unrecognizedToken (text : String) (position : Position)
  /-- The text of a token does not fit the decoder of its class. -/
  | invalidLiteral (terminal text : String) (position : Position)
  /-- The language has no terminal of that name. -/
  | unknownTerminal (name : String)
  /-- A token has the number of a terminal that the language does not have. -/
  | foreignToken (terminal : Nat) (position : Position)
  /-- The non-terminal expands into itself without end before a token is read. -/
  | endlessExpansion (typeName : String) (position : Position)
  deriving DecidableEq, Repr

namespace ParseError

open SmallLang.Text

/-- The place where the error shows. -/
def position? : ParseError → Option Position
  | unexpectedToken _ _ p => some p
  | mismatch _ _ p => some p
  | unexpectedEnd _ p => some p
  | unconsumedInput _ p => some p
  | unrecognizedToken _ p => some p
  | invalidLiteral _ _ p => some p
  | unknownTerminal _ => none
  | foreignToken _ p => some p
  | endlessExpansion _ p => some p

/-- The text of the error, without its place. -/
def reason : ParseError → String
  | unexpectedToken typeName found _ => "unexpected token " ++ found ++ " for `" ++ typeName ++ "`"
  | mismatch expected found _ => "expected " ++ expected ++ ", found " ++ found
  | unexpectedEnd expected _ => "unexpected end of input, expected " ++ expected
  | unconsumedInput found _ => "unconsumed input starting at " ++ found
  | unrecognizedToken text _ => "unrecognized token " ++ quoted text
  | invalidLiteral terminal text _ => "invalid " ++ terminal ++ " literal " ++ quoted text
  | unknownTerminal name => "unknown terminal `" ++ name ++ "`"
  | foreignToken terminal _ => "token of a foreign terminal " ++ toString terminal
  | endlessExpansion typeName _ => "`" ++ typeName ++ "` expands without end"

/-- The text of the error, after its place. -/
def message (e : ParseError) : String :=
  match e.position? with
  | some p => p.render ++ ": " ++ e.reason
  | none => e.reason

end ParseError

end SmallLang
