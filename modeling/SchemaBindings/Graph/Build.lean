import SchemaBindings.Graph.ClosedWalk
import SchemaBindings.Graph.Resolution

/-!
# Building the type graph

A value that contains itself cannot exist, so there must be no cycle of references that are neither
optional nor lists. Fields that lie on any cycle of references are marked as recursive. All errors
of all files are reported together.
-/

namespace SchemaBindings.Graph

open SchemaBindings.Schema (SchemaFile)

/-- The position of a type in the order of types. -/
def positionOf? (types : List TypeNode) (id : TypeId) : Option Nat :=
  types.findIdx? fun type => type.id = id

/-- Adjacency lists over the positions of types, with an edge for every target that `edge` sees in a
field. -/
def adjacencyBy (edge : Field → Option TypeId) (types : List TypeNode) : Adjacency :=
  types.map fun type =>
    let targets := (type.fields.filterMap edge).filterMap (positionOf? types)
    (Text.distinct targets).mergeSort fun a b => a ≤ b

/-- The type whose value is a part of the field's value. -/
def directTarget? (field : Field) : Option TypeId :=
  match field.type with
  | .named id => if field.optional then none else some id
  | _ => none

/-- The error for a class of types that contain each other, if it is one. -/
def containmentError? (types : List TypeNode) (adjacency : Adjacency) (members : List Nat) :
    Option GraphError :=
  match members with
  | [] => none
  | start :: others =>
    if others.isEmpty ∧ start ∉ successors adjacency start then none
    else
      let cycle := (closedWalk adjacency members start).filterMap fun v => types[v]?
      match types[start]? with
      | none => none
      | some type =>
        let next? := cycle[1]?.map TypeNode.id
        let field? := type.fields.find? fun field => next?.isSome ∧ directTarget? field = next?
        some (.containsItself type.id (cycle.map TypeNode.id)
          ((field?.map Field.span).getD type.span))

/-- The errors for types that contain themselves, in the order of the first type of each cycle. -/
def containmentErrors (types : List TypeNode) : List GraphError :=
  let adjacency := adjacencyBy directTarget? types
  (components adjacency).filterMap (containmentError? types adjacency)

/-- The number of the component that a type is in. -/
def componentOf? (types : List TypeNode) (components : List (List Nat)) (id : TypeId) :
    Option Nat :=
  (positionOf? types id).bind fun v => components.findIdx? fun members => v ∈ members

/-- Marks the fields whose target is in the component of the type they belong to. -/
def markRecursive (types : List TypeNode) : List TypeNode :=
  let components := components (adjacencyBy (fun field => field.type.target?) types)
  types.map fun type =>
    let own? := componentOf? types components type.id
    { type with fields := type.fields.map fun field =>
        { field with recursive := field.type.target?.any fun target =>
            componentOf? types components target = own? && own?.isSome } }

/-- Builds the type graph of schema files, or reports everything that is wrong with them. -/
def build (files : List SchemaFile) : Except (List GraphError) TypeGraph :=
  let declarations := firstDeclarations files
  let known := declarations.map declaredId
  let types := declarations.map (resolveDeclaration known)
  let errors := duplicates [] (declarationsOf files) ++
    declarations.flatMap (declarationErrors known) ++ containmentErrors types
  if errors.isEmpty then .ok ⟨markRecursive types⟩ else .error errors

end SchemaBindings.Graph
