import SchemaBindings.Text.Quoted

/-!
# JSON over several lines

A JSON value is laid out as lines. The members of a list or of a record stand on lines of their own,
two blanks further in; one without members takes a single line.
-/

namespace SchemaBindings.Text.Json

/-- A character within quotes. -/
def escape (c : Char) : List Char :=
  match c with
  | '"' => ['\\', '"']
  | '\\' => ['\\', '\\']
  | '\n' => ['\\', 'n']
  | '\r' => ['\\', 'r']
  | '\t' => ['\\', 't']
  | '\x08' => ['\\', 'b']
  | '\x0c' => ['\\', 'f']
  | c =>
    if c.toNat < 32 then
      '\\' :: 'u' :: '0' :: '0' :: [Nat.digitChar (c.toNat / 16), Nat.digitChar (c.toNat % 16)]
    else [c]

/-- A text within quotes. -/
def quoted (text : String) : String :=
  String.ofList ('"' :: (text.toList.flatMap escape ++ ['"']))

/-- The lines of a text. -/
def text (content : String) : List String := [quoted content]

/-- The lines of a number. -/
def number (value : Nat) : List String := [toString value]

/-- Appends to the last of some lines. -/
def endWith (mark : String) (lines : List String) : List String :=
  match lines.reverse with
  | [] => []
  | last :: before => (((last ++ mark) :: before)).reverse

/-- The lines of members, with a comma after each one but the last. -/
def members : List (List String) → List String
  | [] => []
  | [last] => last.map ("  " ++ ·)
  | first :: rest => (endWith "," first).map ("  " ++ ·) ++ members rest

/-- Members between brackets. -/
def bracketed (opening closing : String) (items : List (List String)) : List String :=
  if items.isEmpty then [opening ++ closing] else opening :: (members items ++ [closing])

/-- The lines of a list. -/
def list (items : List (List String)) : List String :=
  bracketed "[" "]" items

/-- The lines of a member with its key. -/
def withKey (key : String) : List String → List String
  | [] => []
  | first :: rest => (quoted key ++ ": " ++ first) :: rest

/-- The lines of a record. -/
def record (fields : List (String × List String)) : List String :=
  bracketed "\x7b" "\x7d" (fields.map fun field => withKey field.1 field.2)

end SchemaBindings.Text.Json
