import SchemaBindings.Text.CharRange

/-!
# Blank characters

Blanks separate tokens and are trimmed off the ends of comment lines. They are the characters with
the Unicode property White_Space, which is more than the four that core's `Char.isWhitespace` knows.
-/

namespace SchemaBindings.Text

/-- The 25 characters with the property White_Space. -/
def whiteSpace : List CharRange :=
  [⟨0x9, 0xD, 1⟩, ⟨0x20, 0x20, 1⟩, ⟨0x85, 0x85, 1⟩, ⟨0xA0, 0xA0, 1⟩, ⟨0x1680, 0x1680, 1⟩,
   ⟨0x2000, 0x200A, 1⟩, ⟨0x2028, 0x2029, 1⟩, ⟨0x202F, 0x202F, 1⟩, ⟨0x205F, 0x205F, 1⟩,
   ⟨0x3000, 0x3000, 1⟩]

/-- Whether a character is blank. -/
def isBlank (c : Char) : Bool :=
  inTable whiteSpace c

/-- The text without the blanks at its start. -/
def trimStart (text : List Char) : List Char :=
  text.dropWhile isBlank

/-- The text without the blanks at its end. -/
def trimEnd (text : List Char) : List Char :=
  text.reverse.dropWhile isBlank |>.reverse

/-- The text without the blanks at either end. -/
def trim (text : List Char) : List Char :=
  trimEnd (trimStart text)

end SchemaBindings.Text
