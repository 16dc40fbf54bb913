import SmallLang.Text.Printable

/-!
# Quoted text

Messages, grammars and values show text between quotes, such that a reader sees every character:
quotes and backslashes are escaped, the usual control characters have a letter, and a character
that cannot be shown is written by its code, as in `"a\u{301}"`. Names are listed as
`["a", "b"]`.
-/

set_option autoImplicit false

namespace SmallLang.Text

/-- The written form of one character inside quotes. -/
def escapeChar (c : Char) : List Char :=
  match c with
  | '\x00' => ['\\', '0']
  | '\t' => ['\\', 't']
  | '\n' => ['\\', 'n']
  | '\r' => ['\\', 'r']
  | '\"' => ['\\', '\"']
  | '\\' => ['\\', '\\']
  | c =>
      if isPrintable c then [c]
      else ['\\', 'u', '\x7b'] ++ Nat.toDigits 16 c.toNat ++ ['\x7d']

/-- The text between quotes, every character escaped that cannot stand for itself. -/
def quoted (s : String) : String :=
  String.ofList ('\"' :: s.toList.flatMap escapeChar ++ ['\"'])

/-- A bracketed list of already written items. -/
def bracketed (items : List String) : String := "[" ++ ", ".intercalate items ++ "]"

/-- A list of names, each between quotes. -/
def quotedList (names : List String) : String := bracketed (names.map quoted)

end SmallLang.Text
