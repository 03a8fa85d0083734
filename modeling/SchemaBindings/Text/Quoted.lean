import SchemaBindings.Text.Visible

/-!
# Text between quotes

A text is shown between double quotes with every character that a reader could not see spelled out.
Five characters have short escapes, a backslash and a quote are escaped too, and the others that
cannot be shown are written by their code in braces.
-/

namespace SchemaBindings.Text

/-- Lower-case hexadecimal digits, without leading zeros. -/
def hexDigits (n : Nat) : List Char :=
  Nat.toDigits 16 n

/-- The form of one character between the quotes. -/
def escapeVisible (c : Char) : List Char :=
  match c with
  | '"' => ['\\', '"']
  | '\\' => ['\\', '\\']
  | '\n' => ['\\', 'n']
  | '\r' => ['\\', 'r']
  | '\t' => ['\\', 't']
  | '\x00' => ['\\', '0']
  | c => if isVisible c then [c] else ['\\', 'u', '\x7b'] ++ hexDigits c.toNat ++ ['\x7d']

/-- The quoted form of a text. -/
def quoteVisible (text : List Char) : List Char :=
  '"' :: text.flatMap escapeVisible ++ ['"']

/-- The quoted form of a text. -/
def quoted (text : String) : String :=
  String.ofList (quoteVisible text.toList)

end SchemaBindings.Text
