import SchemaBindings.Bindings.Unsupported
import SchemaBindings.Graph.Basic
import SchemaBindings.Naming.ModuleStem

/-!
# Names in a target

Names that differ in the schema may be written alike in a target. A name table holds the written
names of all types and fields, and exists only if the names of each scope are distinct: the fields
of each type, and the types of each namespace or of the whole graph.
-/

namespace SchemaBindings.Bindings

open SchemaBindings.Graph (Field FieldId TypeId TypeNode)
open SchemaBindings.Naming (moduleStem)

/-- A name in the schema and the name written for it. -/
structure Naming where
  source : String
  emitted : String
deriving DecidableEq

/-- The first name that is written like an earlier one of the list or of `seen`. -/
def firstCollision? (seen : List Naming) : List Naming → Option Collision
  | [] => none
  | naming :: rest =>
    match seen.find? fun earlier => earlier.emitted = naming.emitted with
    | some first => some ⟨first.source, naming.source, naming.emitted⟩
    | none => firstCollision? (seen ++ [naming]) rest

/-- The complaint about a scope in which two names are written alike. -/
def collisionIn? (language : Language) (scope : String) (names : List Naming) :
    Option Unsupported :=
  (firstCollision? [] names).map fun collision =>
    ⟨language, scope ++ "." ++ collision.emitted, .sameName collision⟩

/-- Succeeds if the names of a scope are written differently. -/
def ensureDistinct (language : Language) (scope : String) (names : List Naming) :
    Except Unsupported Unit :=
  match collisionIn? language scope names with
  | some unsupported => .error unsupported
  | none => .ok ()

/-- How messages call the root namespace. -/
def rootShown : String := "<root>"

/-- A namespace as messages name it. -/
def namespaceShown (namespacePath : String) : String :=
  if namespacePath = "" then rootShown else namespacePath

/-- Fails if two namespaces have the same module stem. -/
def ensureStemsDistinct (language : Language) (graph : TypeGraph) : Except Unsupported Unit :=
  ensureDistinct language "<modules>"
    (graph.namespaces.map fun path => ⟨namespaceShown path, moduleStem path⟩)

/-- Which types must be named differently. -/
inductive TypeScope where
  | perNamespace
  | global
deriving DecidableEq

/-- The names of all types and fields in a target. -/
structure NameTable where
  types : List (TypeId × String)
  fields : List (FieldId × String)

/-- The name of a type. -/
def NameTable.type (names : NameTable) (id : TypeId) : String :=
  (names.types.lookup id).getD id.name

/-- The name of a field. -/
def NameTable.field (names : NameTable) (id : FieldId) : String :=
  (names.fields.lookup id).getD id.name

/-- The types that share a scope, with the namespace that names it. -/
def TypeScope.groups (scope : TypeScope) (graph : TypeGraph) : List (String × List TypeNode) :=
  match scope with
  | .perNamespace => graph.namespaces.map fun path => (path, graph.typesIn path)
  | .global => [("", graph.types)]

/-- Names every type and field, unless names of a scope are written alike. -/
def NameTable.build (graph : TypeGraph) (language : Language) (scope : TypeScope)
    (typeName : TypeNode → String) (fieldName : Field → String) : Except Unsupported NameTable :=
  let members := graph.types.map fun type =>
    collisionIn? language type.id.shown
      (type.fields.map fun field => ⟨field.name, fieldName field⟩)
  let groups := (scope.groups graph).map fun group =>
    collisionIn? language (namespaceShown group.1)
      (group.2.map fun type => ⟨type.id.shown, typeName type⟩)
  match (members ++ groups).findSome? id with
  | some unsupported => .error unsupported
  | none =>
    .ok ⟨graph.types.map fun type => (type.id, typeName type),
      graph.types.flatMap fun type => type.fields.map fun field => (field.id, fieldName field)⟩

/-- A name with an underscore behind it if it is reserved. -/
def escape (reserved : List String) (name : String) : String :=
  if name ∈ reserved then name ++ "_" else name

end SchemaBindings.Bindings
