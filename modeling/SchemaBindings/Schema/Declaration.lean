import SchemaBindings.Schema.Literal
import SchemaBindings.Text.Position

/-!
# Declarations of a schema file

What one schema file says, before references are looked up: type declarations with their fields, in
the order in which they are written. A namespace is its dotted path; the root namespace is the empty
path.
-/

namespace SchemaBindings.Schema

open SchemaBindings.Text (Position)

/-- A place in a named file. -/
structure Span where
  file : String
  position : Position
deriving DecidableEq

/-- A place as messages show it. -/
def Span.shown (span : Span) : String :=
  s!"{span.file}:{span.position.line}:{span.position.column}"

/-- The built-in types. -/
inductive Primitive where
  | int
  | float
  | bool
  | string
  | any
deriving DecidableEq

/-- The word for a built-in type. -/
def Primitive.word : Primitive → String
  | .int => "int"
  | .float => "float"
  | .bool => "bool"
  | .string => "string"
  | .any => "any"

/-- Every built-in type. -/
def Primitive.all : List Primitive :=
  [.int, .float, .bool, .string, .any]

/-- The built-in type of a word. -/
def Primitive.ofWord? (word : String) : Option Primitive :=
  Primitive.all.find? fun primitive => primitive.word = word

/-- A type as it is written: a name, possibly qualified by a namespace, or a list of another
type. -/
inductive TypeRef where
  | named (qualifier : List String) (name : String)
  | list (element : TypeRef)
deriving DecidableEq

/-- Segments joined by dots. -/
def dotted (segments : List String) : String :=
  String.intercalate "." segments

/-- A type as messages show it. -/
def TypeRef.shown : TypeRef → String
  | .named qualifier name => dotted (qualifier ++ [name])
  | .list element => "[" ++ element.shown ++ "]"

/-- The qualifier and the name in a path of one segment and more. -/
def splitPath (first : String) : List String → List String × String
  | [] => ([], first)
  | next :: rest =>
    let (qualifier, name) := splitPath next rest
    (first :: qualifier, name)

/-- The type that a path names. -/
def TypeRef.ofPath (first : String) (rest : List String) : TypeRef :=
  .named (splitPath first rest).1 (splitPath first rest).2

/-- A check on the values of a field. -/
inductive Validator where
  | number
  | string
  | url
  | port
deriving DecidableEq

/-- The word for a validator. -/
def Validator.word : Validator → String
  | .number => "number"
  | .string => "string"
  | .url => "url"
  | .port => "port"

/-- Every validator. -/
def Validator.all : List Validator :=
  [.number, .string, .url, .port]

/-- The validator of a word. -/
def Validator.ofWord? (word : String) : Option Validator :=
  Validator.all.find? fun validator => validator.word = word

/-- A validator as it is written. -/
def Validator.shown (validator : Validator) : String :=
  "@" ++ validator.word

/-- Validators as they are listed in messages and comments. -/
def Validator.listed (validators : List Validator) : String :=
  String.intercalate ", " (validators.map Validator.shown)

/-- A declared field. Its validators are in the order in which they are written. -/
structure Field where
  name : String
  type : TypeRef
  optional : Bool
  default? : Option Literal
  validators : List Validator
  doc? : Option String
  span : Span
deriving DecidableEq

/-- A declared type. -/
structure TypeDecl where
  name : String
  namespacePath : String
  fields : List Field
  doc? : Option String
  span : Span
deriving DecidableEq

/-- The declarations of one file. -/
structure SchemaFile where
  path : String
  namespacePath : String
  declarations : List TypeDecl
deriving DecidableEq

end SchemaBindings.Schema
