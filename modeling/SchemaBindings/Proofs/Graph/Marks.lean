import SchemaBindings.Proofs.Graph.Translation

/-!
# What the mark of a recursive field means

A field's type mentions a declared type if it is that type or, to any depth, a list of it. Whether
the field is optional plays no part. In a graph that building returns, a field is marked exactly if
it mentions a type from which following the fields of types leads back to the field's owner.
-/

namespace SchemaBindings.Graph

open Relation (ReflTransGen)
open SchemaBindings.Schema (SchemaFile)

/-- Whether a field's type is a declared type, or lists of it to any depth. -/
inductive FieldType.Mentions : FieldType → TypeId → Prop
  | named (id : TypeId) : Mentions (.named id) id
  | list {element : FieldType} {id : TypeId} (helement : Mentions element id) :
      Mentions (.list element) id

/-- The target of a field's type is what it mentions. -/
theorem FieldType.target?_eq_some_iff (type : FieldType) (id : TypeId) :
    type.target? = some id ↔ type.Mentions id := by
  constructor
  · intro h
    induction type with
    | primitive kind => simp [FieldType.target?] at h
    | named other =>
      obtain rfl : other = id := by simpa [FieldType.target?] using h
      exact .named other
    | list element ih => exact .list (ih h)
  · intro h
    induction h with
    | named id => rfl
    | list _ ih => exact ih

/-- Whether a field of a type of the graph leads to another type: it mentions it. -/
def FieldLeads (graph : TypeGraph) (a b : TypeId) : Prop :=
  ∃ type ∈ graph.types, type.id = a ∧ ∃ field ∈ type.fields, field.type.Mentions b

/-- In a linked graph, types refer to each other exactly as their fields mention types. -/
theorem refersTo_eq_fieldLeads {graph : TypeGraph} (h : graph.Linked) :
    graph.RefersTo = FieldLeads graph := by
  funext a b
  refine propext ⟨?_, ?_⟩
  · intro hrefers
    obtain ⟨⟨type, htype, hid, field, hfield, htarget⟩, -⟩ := hrefers
    exact ⟨type, htype, hid, field, hfield, (FieldType.target?_eq_some_iff _ b).mp htarget⟩
  · intro hleads
    obtain ⟨type, htype, hid, field, hfield, hmentions⟩ := hleads
    have htarget := (FieldType.target?_eq_some_iff _ b).mpr hmentions
    exact ⟨⟨type, htype, hid, field, hfield, htarget⟩,
      h.target_mem type htype field hfield b htarget⟩

/-- A field of a graph that building returns is marked exactly if it mentions a type of the graph
from which fields lead back to its owner. -/
theorem recursive_iff_of_build (files : List SchemaFile) (graph : TypeGraph)
    (h : build files = .ok graph) :
    ∀ type ∈ graph.types, ∀ field ∈ type.fields, (field.recursive = true ↔
      ∃ target ∈ graph.types, field.type.Mentions target.id ∧
        ReflTransGen (FieldLeads graph) target.id type.id) := by
  intro type htype field hfield
  have hlinked := linked_of_build h
  rw [hlinked.recursive_iff type htype field hfield, refersTo_eq_fieldLeads hlinked]
  constructor
  · intro hback
    obtain ⟨id, htarget, hback⟩ := hback
    obtain ⟨target, hmem, rfl⟩ :=
      List.mem_map.mp (hlinked.target_mem type htype field hfield id htarget)
    exact ⟨target, hmem, (FieldType.target?_eq_some_iff _ _).mp htarget, hback⟩
  · intro hback
    obtain ⟨target, -, hmentions, hback⟩ := hback
    exact ⟨target.id, (FieldType.target?_eq_some_iff _ _).mpr hmentions, hback⟩

/-- A type with an optional way back to itself through another namespace, one with lists of itself,
and a leaf that both refer to. -/
def loopingSchemas : List SchemaFile :=
  [⟨"a.schema", "a", [
      ⟨"Node", "a", [⟨"next", .named ["b"] "Edge", true, none, [], none, .nowhere⟩,
        ⟨"leaf", .named [] "Leaf", false, none, [], none, .nowhere⟩], none, .nowhere⟩,
      ⟨"Leaf", "a", [], none, .nowhere⟩]⟩,
    ⟨"b.schema", "b", [
      ⟨"Edge", "b", [⟨"to", .named ["a"] "Node", false, none, [], none, .nowhere⟩], none, .nowhere⟩,
      ⟨"Tree", "b",
        [⟨"children", .list (.list (.named [] "Tree")), false, none, [], none, .nowhere⟩,
        ⟨"root", .named ["a"] "Node", true, none, [], none, .nowhere⟩], none, .nowhere⟩]⟩]

/-- The fields of the loop and the lists are marked, and references that do not lead back are not.
-/
theorem recursive_loopingSchemas : ∃ graph, build loopingSchemas = .ok graph ∧
    graph.types.map
      (fun type => (type.id.shown, type.fields.map fun field => (field.name, field.recursive))) =
      [("a.Leaf", []), ("a.Node", [("leaf", false), ("next", true)]), ("b.Edge", [("to", true)]),
        ("b.Tree", [("children", true), ("root", false)])] ∧
    ∀ type ∈ graph.types, ∀ field ∈ type.fields, (field.recursive = true ↔
      ∃ target ∈ graph.types, field.type.Mentions target.id ∧
        ReflTransGen (FieldLeads graph) target.id type.id) := by
  have hbuild : (build loopingSchemas).toOption.map (fun graph => graph.types.map fun type =>
      (type.id.shown, type.fields.map fun field => (field.name, field.recursive))) =
        some [("a.Leaf", []), ("a.Node", [("leaf", false), ("next", true)]),
          ("b.Edge", [("to", true)]), ("b.Tree", [("children", true), ("root", false)])] := by cbv
  cases hgraph : build loopingSchemas with
  | error errors => simp [hgraph, Except.toOption] at hbuild
  | ok graph =>
    rw [hgraph] at hbuild
    exact ⟨graph, rfl, Option.some.inj hbuild, recursive_iff_of_build loopingSchemas graph hgraph⟩

end SchemaBindings.Graph
