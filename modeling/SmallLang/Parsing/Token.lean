import SmallLang.Parsing.Error
import SmallLang.Terminal.Arena

/-!
# Tokens

A token is a piece of text that stands for a terminal, with the value of the text and the place where
it was found.
-/

set_option autoImplicit false

namespace SmallLang

/-- A piece of text that stands for the terminal of that number. -/
structure Token where
  terminal : Nat
  text : String
  value : Value
  position : Position
  deriving DecidableEq

/-- The value of a text that stands for a terminal. The text of a literal is kept as it is. -/
def Terminal.decode (t : Terminal) (text : String) (position : Position) :
    Except ParseError Value :=
  match t with
  | .literal _ => .ok (.token text)
  | .ofClass c =>
      match c.decoder.decode text with
      | some v => .ok v
      | none => .error (.invalidLiteral c.name text position)

namespace Token

/-- A token for the terminal of that name that does not come from a text. -/
def ofName (arena : Arena) (name text : String) : Except ParseError Token :=
  match arena.find? name with
  | none => .error (.unknownTerminal name)
  | some i =>
      match arena.get? i with
      | none => .error (.unknownTerminal name)
      | some t =>
          (t.decode text Position.outside).map fun v => ⟨i, text, v, Position.outside⟩

/-- A token as messages show it: a quoted literal, or the name of a class and the quoted text. There
is no such text for a token of a foreign terminal. -/
def describe? (arena : Arena) (t : Token) : Option String :=
  (arena.get? t.terminal).map fun
    | .literal text => Text.quoted text
    | .ofClass c => c.name ++ " " ++ Text.quoted t.text

/-- The place right after the token. -/
def endPosition (t : Token) : Position := t.position.advance t.text.toList

end Token

/-- The place right after the last token, or the start of the text when there is none. -/
def endPosition (tokens : List Token) : Position :=
  (tokens.getLast?.map Token.endPosition).getD Position.start

end SmallLang
