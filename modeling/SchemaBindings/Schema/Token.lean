import SchemaBindings.Number.Plain
import SchemaBindings.Text.Position

/-!
# Tokens of the schema language

Keywords are not told apart from other names here: a field may be called `type`, and the grammar
decides by position what a name means.
-/

namespace SchemaBindings.Schema

open SchemaBindings.Number (Binary64)
open SchemaBindings.Text (Position)

/-- Punctuation. -/
inductive Symbol where
  | leftBrace
  | rightBrace
  | leftBracket
  | rightBracket
  | colon
  | comma
  | semicolon
  | question
  | equals
  | dot
  | at
deriving DecidableEq

/-- The character of a punctuation mark. -/
def Symbol.char : Symbol → Char
  | .leftBrace => '\x7b'
  | .rightBrace => '\x7d'
  | .leftBracket => '['
  | .rightBracket => ']'
  | .colon => ':'
  | .comma => ','
  | .semicolon => ';'
  | .question => '?'
  | .equals => '='
  | .dot => '.'
  | .at => '@'

/-- Every punctuation mark. -/
def Symbol.all : List Symbol :=
  [.leftBrace, .rightBrace, .leftBracket, .rightBracket, .colon, .comma, .semicolon,
    .question, .equals, .dot, .at]

/-- The punctuation mark of a character. -/
def Symbol.ofChar? (c : Char) : Option Symbol :=
  Symbol.all.find? fun symbol => symbol.char = c

/-- A token. A doc token is one comment line, trimmed. -/
inductive Token where
  | name (word : String)
  | integer (value : Int)
  | float (value : Binary64)
  | text (content : String)
  | doc (line : String)
  | symbol (mark : Symbol)
deriving DecidableEq

/-- A punctuation mark as messages show it. -/
def Symbol.shown (symbol : Symbol) : String :=
  String.ofList ['\x60', symbol.char, '\x60']

/-- A token as messages name it. -/
def Token.shown : Token → String
  | .name word => s!"identifier `{word}`"
  | .integer value => s!"integer `{value}`"
  | .float value => s!"float `{value.text}`"
  | .text _ => "string literal"
  | .doc _ => "doc comment"
  | .symbol mark => mark.shown

/-- What messages call the place after the last token. -/
def endShown : String := "end of file"

/-- A token, or the end of the file, as messages name it. -/
def shownOrEnd : Option Token → String
  | some token => token.shown
  | none => endShown

/-- A value with the place of its first character. -/
structure Located (α : Type) where
  position : Position
  value : α
deriving DecidableEq

end SchemaBindings.Schema
