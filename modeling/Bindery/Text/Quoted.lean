import Bindery.Text.Printable

set_option autoImplicit false

/-! Quoted texts: a text between double quotes, in which every character that would end the
quotation or could not be seen is written as an escape. Lists and optional values of texts are
written with their members quoted. -/

namespace Bindery.Text

def hexDigits (n : Nat) : List Char := Nat.toDigits 16 n

/-- A character inside quotes. A line therefore never ends inside a quotation. -/
def escapeChar (c : Char) : List Char :=
  if c = '"' then ['\\', '"']
  else if c = '\\' then ['\\', '\\']
  else if c = '\n' then ['\\', 'n']
  else if c = '\r' then ['\\', 'r']
  else if c = '\t' then ['\\', 't']
  else if c.toNat = 0 then ['\\', '0']
  else if isPrintable c then [c]
  else ['\\', 'u', '\x7b'] ++ hexDigits c.toNat ++ ['\x7d']

def quote (text : String) : String :=
  String.ofList ('"' :: text.toList.flatMap escapeChar ++ ['"'])

/-- A list of texts: `["a", "b"]`. -/
def quoteList (texts : List String) : String :=
  "[" ++ String.intercalate ", " (texts.map quote) ++ "]"

/-- An optional text: `Some("a")` or `None`. -/
def quoteOption : Option String → String
  | some text => "Some(" ++ quote text ++ ")"
  | none => "None"

end Bindery.Text
