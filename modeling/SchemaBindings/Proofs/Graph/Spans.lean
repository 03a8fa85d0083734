import SchemaBindings.Graph.Build
import SchemaBindings.Proofs.Schema.Spans

/-!
# Type graphs up to places

Places are carried into the graph for messages only. Looking up references, ordering fields and
marking recursion do not see them, so each of these steps can be done before or after places are
forgotten.
-/

namespace SchemaBindings.Graph

open SchemaBindings.Schema (Span TypeDecl)

/-- A field without its place. -/
def Field.withoutSpan (field : Field) : Field :=
  { field with span := .nowhere }

/-- A type without its place and without those of its fields. -/
def TypeNode.withoutSpans (type : TypeNode) : TypeNode :=
  { type with fields := type.fields.map Field.withoutSpan, span := .nowhere }

/-- Forgetting places keeps the identity of a type. -/
@[simp] theorem TypeNode.withoutSpans_id (type : TypeNode) : type.withoutSpans.id = type.id := rfl

/-- The fields of a type without places. -/
@[simp] theorem TypeNode.withoutSpans_fields (type : TypeNode) :
    type.withoutSpans.fields = type.fields.map Field.withoutSpan := rfl

/-- Forgetting places keeps the identity of a field. -/
@[simp] theorem Field.withoutSpan_id (field : Field) : field.withoutSpan.id = field.id := rfl

/-- Forgetting places keeps the type of a field. -/
@[simp] theorem Field.withoutSpan_type (field : Field) : field.withoutSpan.type = field.type := rfl

/-! ## Resolving -/

/-- A field is resolved alike with and without its place. -/
theorem resolveField_withoutSpan (known : List TypeId) (owner : TypeId) (field : Schema.Field) :
    (resolveField known owner field.withoutSpan).toOption =
      (resolveField known owner field).toOption.map Field.withoutSpan := by
  unfold resolveField
  simp only [Schema.Field.withoutSpan]
  cases resolve known owner.namespacePath field.type with
  | error reference => rfl
  | ok type => rfl

/-! ## Marking recursion -/

/-- Types are at the same positions with and without places. -/
theorem positionOf?_withoutSpans (types : List TypeNode) :
    positionOf? (types.map TypeNode.withoutSpans) = positionOf? types := by
  funext id
  rw [positionOf?, List.findIdx?_map]
  rfl

/-- Edges that do not depend on places are the same with and without them. -/
theorem adjacencyBy_withoutSpans (edge : Field → Option TypeId)
    (hedge : ∀ field, edge field.withoutSpan = edge field) (types : List TypeNode) :
    adjacencyBy edge (types.map TypeNode.withoutSpans) = adjacencyBy edge types := by
  simp [adjacencyBy, positionOf?_withoutSpans types, List.filterMap_map, Function.comp_def, hedge]

/-- Types are in the same components with and without places. -/
theorem componentOf?_withoutSpans (types : List TypeNode) :
    componentOf? (types.map TypeNode.withoutSpans) = componentOf? types := by
  funext components id
  rw [componentOf?, positionOf?_withoutSpans, componentOf?]

/-- Recursion is marked alike with and without places. -/
theorem markRecursive_withoutSpans (types : List TypeNode) :
    markRecursive (types.map TypeNode.withoutSpans) =
      (markRecursive types).map TypeNode.withoutSpans := by
  have hadjacency := adjacencyBy_withoutSpans (fun field => field.type.target?) (fun _ => rfl) types
  simp only [markRecursive, hadjacency, componentOf?_withoutSpans types, List.map_map]
  refine List.map_congr_left fun type _ => ?_
  simp only [Function.comp_apply, TypeNode.withoutSpans, List.map_map]
  rfl

end SchemaBindings.Graph

namespace SchemaBindings.TypeGraph

open SchemaBindings.Graph (TypeId TypeNode)

/-- A graph without places. -/
def withoutSpans (graph : TypeGraph) : TypeGraph :=
  ⟨graph.types.map TypeNode.withoutSpans⟩

/-- The types of a graph without places. -/
@[simp] theorem withoutSpans_types (graph : TypeGraph) :
    graph.withoutSpans.types = graph.types.map TypeNode.withoutSpans := rfl

/-- A type is found with and without places. -/
theorem find?_withoutSpans (graph : TypeGraph) (id : TypeId) :
    graph.withoutSpans.find? id = (graph.find? id).map TypeNode.withoutSpans := by
  rw [find?, withoutSpans_types, List.find?_map]
  rfl

/-- The namespaces are the same with and without places. -/
@[simp] theorem namespaces_withoutSpans (graph : TypeGraph) :
    graph.withoutSpans.namespaces = graph.namespaces := by
  simp [namespaces, Function.comp_def]

/-- A namespace holds the same types with and without places. -/
@[simp] theorem typesIn_withoutSpans (graph : TypeGraph) (namespacePath : String) :
    graph.withoutSpans.typesIn namespacePath =
      (graph.typesIn namespacePath).map TypeNode.withoutSpans := by
  rw [typesIn, withoutSpans_types, List.filter_map]
  rfl

/-- A namespace refers to the same others with and without places. -/
@[simp] theorem foreignNamespaces_withoutSpans (graph : TypeGraph) (namespacePath : String) :
    graph.withoutSpans.foreignNamespaces namespacePath = graph.foreignNamespaces namespacePath := by
  simp [foreignNamespaces, List.flatMap_map, List.filterMap_map, Function.comp_def]

end SchemaBindings.TypeGraph
