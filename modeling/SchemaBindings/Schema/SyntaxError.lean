import SchemaBindings.Schema.Declaration
import SchemaBindings.Schema.Lexer

/-!
# Errors in the text of a schema file

Each fault is kept as its cause; one function gives the message. An error is a fault with its place.
-/

namespace SchemaBindings.Schema

/-- What the grammar allows at a place. -/
inductive Expectation where
  | declaration
  | namespaceName
  | typeName
  | fieldName
  | fieldEnd
  | fieldType
  | nameAfterDot
  | literal
  | validatorName
  | symbol (mark : Symbol)
deriving DecidableEq

/-- How messages name what is allowed. -/
def Expectation.shown : Expectation → String
  | .declaration => "`type` or `namespace`"
  | .namespaceName => "namespace name"
  | .typeName => "type name"
  | .fieldName => "field name"
  | .fieldEnd => "`,` or `\x7d` after field"
  | .fieldType => "a type"
  | .nameAfterDot => "a name after `.`"
  | .literal => "a literal value"
  | .validatorName => "a validator name"
  | .symbol mark => mark.shown

/-- Why a file is not a schema. -/
inductive SyntaxFault where
  | lexical (fault : LexicalFault)
  | expected (what : Expectation) (found : Option Token)
  | misplacedNamespace (name : String)
  | builtInTypeName (name : String)
  | unclosedAtEnd (typeName : String)
  | unclosedAtDeclaration (typeName : String)
  | repeatedValidator (validator : Validator)
  | unknownValidator (name : String)
deriving DecidableEq

/-- The message of a fault. -/
def SyntaxFault.message : SyntaxFault → String
  | .lexical fault => fault.message
  | .expected what found => s!"expected {what.shown}, found {shownOrEnd found}"
  | .misplacedNamespace name =>
    s!"`namespace {name}` must appear once, before any type declaration"
  | .builtInTypeName name => s!"`{name}` is a built-in type and cannot be redeclared"
  | .unclosedAtEnd typeName =>
    s!"expected `\x7d` to close type `{typeName}`, found {endShown}"
  | .unclosedAtDeclaration typeName =>
    s!"expected `\x7d` to close type `{typeName}` before the next declaration"
  | .repeatedValidator validator => s!"validator `{validator.shown}` is given twice"
  | .unknownValidator name =>
    s!"unknown validator `@{name}`, expected one of {Validator.listed Validator.all}"

/-- A fault at a place in a named file. -/
structure SyntaxError where
  span : Span
  fault : SyntaxFault
deriving DecidableEq

/-- The line that reports an error. -/
def SyntaxError.shown (error : SyntaxError) : String :=
  error.span.shown ++ ": " ++ error.fault.message

end SchemaBindings.Schema
