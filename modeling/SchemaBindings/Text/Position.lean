/-!
# Positions in a text

Lines and columns count from one. A column counts characters, and only a line feed starts a new
line, so a tab or a carriage return takes one column.
-/

namespace SchemaBindings.Text

/-- A place in a text. -/
structure Position where
  line : Nat
  column : Nat
deriving DecidableEq

/-- The place of the first character. -/
def Position.start : Position := ⟨1, 1⟩

/-- The place after a character. -/
def Position.after (position : Position) (c : Char) : Position :=
  if c = '\n' then ⟨position.line + 1, 1⟩ else ⟨position.line, position.column + 1⟩

/-- The place after a stretch of text. -/
def Position.afterText (position : Position) (text : List Char) : Position :=
  text.foldl Position.after position

/-- Places in reading order. -/
def Position.before (a b : Position) : Bool :=
  a.line < b.line || (a.line == b.line && a.column < b.column)

/-- The place of the character that has `text` in front of it: one line more than its line feeds,
one column more than the characters after the last of them. -/
def Position.ofOffset (text : List Char) : Position :=
  ⟨text.count '\n' + 1, (text.reverse.takeWhile (· ≠ '\n')).length + 1⟩

/-- The number of bytes that a text takes in UTF-8. -/
def byteLength (text : List Char) : Nat :=
  text.foldr (fun c bytes => c.utf8Size + bytes) 0

/-- The front of a text that takes a number of bytes. There is none that ends inside a character. -/
def front? (bytes : Nat) : List Char → Option (List Char)
  | [] => if bytes = 0 then some [] else none
  | c :: rest =>
    if bytes = 0 then some []
    else if bytes < c.utf8Size then none
    else (front? (bytes - c.utf8Size) rest).map (c :: ·)

/-- The place of a byte of a text, and its end for an offset that no character starts at. -/
def Position.ofByte (text : List Char) (offset : Nat) : Position :=
  .ofOffset ((front? offset text).getD text)

end SchemaBindings.Text
