import SchemaBindings.Graph.Basic
import SchemaBindings.Text.Blank
import SchemaBindings.Text.Lines

/-!
# Doc comments in bindings

The doc comment of a declaration is carried over line by line. A default value, and validators that
a language cannot enforce, are listed behind it. In languages with block comments the lines stand
between `/**` and `*/`, and what would end the comment early is taken apart.
-/

namespace SchemaBindings.Bindings

open SchemaBindings.Graph (Field)
open SchemaBindings.Schema (Literal Validator)
open SchemaBindings.Text (lines trimEnd)

/-- The lines of a doc comment without the blanks at their ends, and a line for the default
value. -/
def docLines (doc? : Option String) (default? : Option Literal) : List String :=
  (match doc? with
    | some doc => (lines doc.toList).map fun line => String.ofList (trimEnd line)
    | none => []) ++
  (match default? with
    | some value => ["Default: " ++ value.shown]
    | none => [])

/-- The doc lines of a field, with its default value if asked for, and with its validators. -/
def fieldDoc (field : Field) (withDefault : Bool) : List String :=
  docLines field.doc? (if withDefault then field.default? else none) ++
    if field.validators.isEmpty then [] else ["Validated: " ++ Validator.listed field.validators]

/-- A text in which every end of a block comment is taken apart. -/
def splitCommentEnds : List Char → List Char
  | [] => []
  | '*' :: '/' :: rest => '*' :: ' ' :: '/' :: splitCommentEnds rest
  | c :: rest => c :: splitCommentEnds rest

/-- A line that may stand inside a block comment. -/
def commentLine (line : String) : String :=
  String.ofList (splitCommentEnds line.toList)

/-- The lines of a block comment: none for no lines, and a single one for a single line. -/
def blockComment (indent : String) : List String → List String
  | [] => []
  | [line] => [indent ++ "/** " ++ commentLine line ++ " */"]
  | docs =>
    (indent ++ "/**") ::
      (docs.map fun line =>
        if commentLine line = "" then indent ++ " *" else indent ++ " * " ++ commentLine line) ++
      [indent ++ " */"]

end SchemaBindings.Bindings
