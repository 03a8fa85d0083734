import SchemaBindings.Number.Plain
import SchemaBindings.Text.Quoted

/-!
# Literal values

A default value in a schema is an integer, a floating-point number, a text or a truth value.
Messages and doc comments show it as it could be written in a schema, with texts between quotes.
-/

namespace SchemaBindings.Schema

open SchemaBindings.Number (Binary64)

/-- A default value. Integers fit 64 bits. -/
inductive Literal where
  | integer (value : Int)
  | float (value : Binary64)
  | text (content : String)
  | boolean (value : Bool)
deriving DecidableEq

/-- The range of an integer literal. -/
def fitsInt64 (value : Int) : Bool :=
  -Int.pow 2 63 ≤ value && value < Int.pow 2 63

/-- The words of the two truth values. -/
def booleanWord (value : Bool) : String :=
  if value then "true" else "false"

/-- The text that shows a literal. -/
def Literal.shown : Literal → String
  | .integer value => toString value
  | .float value => value.text
  | .text content => Text.quoted content
  | .boolean value => booleanWord value

end SchemaBindings.Schema
