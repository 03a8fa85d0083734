import SchemaBindings.Schema.Declaration
import SchemaBindings.Text.Distinct

/-!
# The type graph

The types of all schema files together, with every reference looked up. Types are in the order of
namespace and name, and the fields of a type in the order of their names, so nothing here depends on
the order of files or of declarations.
-/

namespace SchemaBindings.Graph

open SchemaBindings.Schema (Literal Primitive Span Validator)
open SchemaBindings.Text (distinct nameSet)

/-- What a type is known by: its namespace and its name. -/
structure TypeId where
  namespacePath : String
  name : String
deriving DecidableEq

/-- A type as messages name it. -/
def TypeId.shown (id : TypeId) : String :=
  if id.namespacePath = "" then id.name else id.namespacePath ++ "." ++ id.name

/-- The order of types. -/
def TypeId.upTo (a b : TypeId) : Bool :=
  a.namespacePath < b.namespacePath || (a.namespacePath == b.namespacePath && a.name ≤ b.name)

/-- What a field is known by: its type and its name. -/
structure FieldId where
  owner : TypeId
  name : String
deriving DecidableEq

/-- A field as messages name it. -/
def FieldId.shown (id : FieldId) : String :=
  id.owner.shown ++ "." ++ id.name

/-- The type of a field, with its reference looked up. -/
inductive FieldType where
  | primitive (kind : Primitive)
  | named (id : TypeId)
  | list (element : FieldType)
deriving DecidableEq

/-- A field's type as messages show it. -/
def FieldType.shown : FieldType → String
  | .primitive kind => kind.word
  | .named id => id.shown
  | .list element => "[" ++ element.shown ++ "]"

/-- The declared type that a field's type refers to, directly or as the element of lists. -/
def FieldType.target? : FieldType → Option TypeId
  | .primitive _ => none
  | .named id => some id
  | .list element => element.target?

/-- A field. It is recursive if the type it refers to can reach the type it belongs to, so that
languages which lay out values in place need an indirection. -/
structure Field where
  id : FieldId
  type : FieldType
  optional : Bool
  default? : Option Literal
  validators : List Validator
  doc? : Option String
  recursive : Bool
  span : Span
deriving DecidableEq

/-- The name of a field in the schema. -/
def Field.name (field : Field) : String :=
  field.id.name

/-- Whether a field holds a declared type itself and not a list. -/
def Field.isNamed (field : Field) : Bool :=
  match field.type with
  | .named _ => true
  | _ => false

/-- A type with its fields. -/
structure TypeNode where
  id : TypeId
  fields : List Field
  doc? : Option String
  span : Span
deriving DecidableEq

end SchemaBindings.Graph

namespace SchemaBindings

/-- All types. -/
structure TypeGraph where
  types : List Graph.TypeNode
deriving DecidableEq

namespace TypeGraph

open SchemaBindings.Graph (TypeId TypeNode)
open SchemaBindings.Text (distinct nameSet)

/-- The type with an identity. -/
def find? (graph : TypeGraph) (id : TypeId) : Option TypeNode :=
  graph.types.find? fun type => type.id = id

/-- The namespaces that hold types, in order. -/
def namespaces (graph : TypeGraph) : List String :=
  distinct (graph.types.map fun type => type.id.namespacePath)

/-- The types of a namespace, in order. -/
def typesIn (graph : TypeGraph) (namespacePath : String) : List TypeNode :=
  graph.types.filter fun type => type.id.namespacePath = namespacePath

/-- The other namespaces that the types of a namespace refer to, in order. -/
def foreignNamespaces (graph : TypeGraph) (namespacePath : String) : List String :=
  let targets := (graph.typesIn namespacePath).flatMap fun type =>
    type.fields.filterMap fun field => field.type.target?
  nameSet ((targets.map fun target => target.namespacePath).filter (· ≠ namespacePath))

end TypeGraph

end SchemaBindings
