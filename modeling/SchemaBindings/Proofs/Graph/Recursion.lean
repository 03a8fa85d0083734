import Mathlib.Logic.Relation
import SchemaBindings.Proofs.Graph.Order

/-!
# Which fields are recursive

In a graph that building returns, every field refers to a type of the graph, and a field is marked
as recursive exactly if the type that it refers to can reach its owner again, through references of
any kind. So references of unmarked fields never form a cycle.
-/

namespace SchemaBindings

open Relation (ReflTransGen)
open SchemaBindings.Graph

namespace TypeGraph

/-- Whether a type of the graph refers to another in a field, directly or as the element of
lists. -/
def RefersTo (graph : TypeGraph) : TypeId → TypeId → Prop :=
  Refers (fun field => field.type.target?) graph.types

/-- What later steps rely on in a type graph: types have distinct identities and fields distinct
names, fields refer to types of the graph, and the marks of recursive fields are right. -/
structure Linked (graph : TypeGraph) : Prop where
  distinct : (graph.types.map TypeNode.id).Nodup
  fields_distinct : ∀ type ∈ graph.types, (type.fields.map Field.name).Nodup
  target_mem : ∀ type ∈ graph.types, ∀ field ∈ type.fields, ∀ target,
    field.type.target? = some target →
    target ∈ graph.types.map TypeNode.id
  recursive_iff : ∀ type ∈ graph.types, ∀ field ∈ type.fields, (field.recursive = true ↔
    ∃ target, field.type.target? = some target ∧ ReflTransGen graph.RefersTo target type.id)

end TypeGraph

namespace Graph

/-! ## Marking -/

/-- A field with its mark of recursion set. -/
def Field.marked (field : Field) (recursive : Bool) : Field :=
  { field with recursive }

/-- Whether the target of a field is in the component of the field's owner. -/
def returnsTo (types : List TypeNode) (owner : TypeId) (field : Field) : Bool :=
  let components := components (adjacencyBy (fun field => field.type.target?) types)
  field.type.target?.any fun target =>
    componentOf? types components target = componentOf? types components owner &&
      (componentOf? types components owner).isSome

/-- Marking sets the mark of every field and changes nothing else. -/
theorem markRecursive_eq (types : List TypeNode) :
    markRecursive types = types.map fun type =>
      { type with fields :=
        type.fields.map fun field => field.marked (returnsTo types type.id field) } :=
  rfl

/-- Marking keeps the identities of types. -/
theorem map_id_markRecursive (types : List TypeNode) :
    (markRecursive types).map TypeNode.id = types.map TypeNode.id := by
  rw [markRecursive_eq, List.map_map]
  rfl

/-- Marking keeps which types refer to each other. -/
theorem refers_markRecursive_iff (types : List TypeNode) (a b : TypeId) :
    Refers (fun field => field.type.target?) (markRecursive types) a b ↔
      Refers (fun field => field.type.target?) types a b := by
  rw [Refers, Refers, map_id_markRecursive, markRecursive_eq]
  simp only [List.mem_map, exists_exists_and_eq_and, Field.marked]

/-- Where identities are distinct, the identity at the position of a type is its own. -/
theorem idAt_positionAt {types : List TypeNode} {id : TypeId} (h : id ∈ types.map TypeNode.id) :
    idAt types (positionAt types id) = id := by
  obtain ⟨i, hi⟩ := exists_positionOf? h
  obtain ⟨type, htype, hid⟩ := getElem?_of_positionOf? hi
  rw [positionAt, hi, Option.getD_some, idAt, htype, Option.map_some, Option.getD_some, hid]

/-- Positions reach each other exactly as the types there do. -/
theorem reflTransGen_positionAt_iff (edge : Field → Option TypeId) {types : List TypeNode}
    (hdistinct : (types.map TypeNode.id).Nodup) {a b : TypeId} (ha : a ∈ types.map TypeNode.id)
    (hb : b ∈ types.map TypeNode.id) :
    ReflTransGen (Edge (adjacencyBy edge types)) (positionAt types a) (positionAt types b) ↔
      ReflTransGen (Refers edge types) a b := by
  constructor
  · intro h
    have hids : ReflTransGen (Refers edge types) (idAt types (positionAt types a))
        (idAt types (positionAt types b)) := h.lift (idAt types) fun _ _ hedge => hedge.refers
    rwa [idAt_positionAt ha, idAt_positionAt hb] at hids
  · intro h
    exact h.lift (positionAt types) fun _ _ hrefers => hrefers.edge hdistinct

/-- Every type is in a component, and types are in the same one exactly if they reach each other. -/
theorem componentOf?_eq_iff (edge : Field → Option TypeId) {types : List TypeNode}
    (hdistinct : (types.map TypeNode.id).Nodup) {a b : TypeId} (ha : a ∈ types.map TypeNode.id)
    (hb : b ∈ types.map TypeNode.id) :
    (componentOf? types (components (adjacencyBy edge types)) b).isSome ∧
      (componentOf? types (components (adjacencyBy edge types)) a =
          componentOf? types (components (adjacencyBy edge types)) b ↔
        ReflTransGen (Refers edge types) a b ∧ ReflTransGen (Refers edge types) b a) := by
  have hclosed := closed_adjacencyBy edge types
  have hcomponent : ∀ id ∈ types.map TypeNode.id, ∃ i,
      ∃ hi : i < (components (adjacencyBy edge types)).length,
        componentOf? types (components (adjacencyBy edge types)) id = some i ∧
        positionAt types id ∈ (components (adjacencyBy edge types))[i] := by
    intro id hid
    obtain ⟨v, hv⟩ := exists_positionOf? hid
    obtain ⟨_, hat, -⟩ := getElem?_of_positionOf? hv
    have hlt : v < (adjacencyBy edge types).length := by
      rw [adjacencyBy, List.length_map]
      exact (List.getElem?_eq_some_iff.mp hat).1
    obtain ⟨members, hmembers, hmem⟩ := exists_component hclosed hlt
    have hany : (components (adjacencyBy edge types)).any (fun members => v ∈ members) = true :=
      List.any_eq_true.mpr ⟨members, hmembers, decide_eq_true hmem⟩
    obtain ⟨i, hi⟩ := Option.isSome_iff_exists.mp (List.findIdx?_isSome.trans hany)
    obtain ⟨hlength, hfound, -⟩ := List.findIdx?_eq_some_iff_getElem.mp hi
    refine ⟨i, hlength, ?_, ?_⟩
    · rw [componentOf?, hv, Option.bind_some, hi]
    · rw [positionAt, hv, Option.getD_some]
      exact of_decide_eq_true hfound
  obtain ⟨i, hi, hia, hmema⟩ := hcomponent a ha
  obtain ⟨j, hj, hjb, hmemb⟩ := hcomponent b hb
  rw [hia, hjb, Option.some.injEq]
  refine ⟨rfl, ?_⟩
  rw [← reflTransGen_positionAt_iff edge hdistinct ha hb, ← reflTransGen_positionAt_iff
    edge hdistinct hb ha]
  have hclass :=
    ((component_class hclosed (List.getElem_mem hi)).2.2 _ hmema).2 (positionAt types b)
  refine Iff.trans ⟨?_, ?_⟩ hclass
  · rintro rfl
    exact hmemb
  · intro hmem
    exact index_eq_of_mem_components hclosed hi hj hmem hmemb

/-- Where all fields refer to types of the list, a field's target is in the component of its owner
exactly if the target reaches the owner through references. -/
theorem returnsTo_iff {types : List TypeNode} (hdistinct : (types.map TypeNode.id).Nodup)
    {type : TypeNode} (htype : type ∈ types) {field : Field} (hfield : field ∈ type.fields)
    (htargets : ∀ target, field.type.target? = some target → target ∈ types.map TypeNode.id) :
    returnsTo types type.id field = true ↔
      ∃ target, field.type.target? = some target ∧
        ReflTransGen (Refers (fun field => field.type.target?) types) target type.id := by
  cases htarget : field.type.target? with
  | none => simp [returnsTo, htarget]
  | some target =>
    have hmem := htargets target htarget
    have hrefers : Refers (fun field => field.type.target?) types type.id target :=
      ⟨⟨type, htype, rfl, field, hfield, htarget⟩, hmem⟩
    obtain ⟨hsome, hsame⟩ := componentOf?_eq_iff (fun field => field.type.target?) hdistinct hmem
      (List.mem_map_of_mem htype)
    simp only [returnsTo, htarget, Option.any_some, hsome, Bool.and_true, decide_eq_true_eq,
      hsame, Option.some.injEq, exists_eq_left']
    exact ⟨And.left, fun hback => ⟨hback, .single hrefers⟩⟩

/-! ## Built graphs -/

/-- Fields that declarations resolve to refer to declared types. -/
theorem target_mem_resolvedTypes {files : List Schema.SchemaFile} {type : TypeNode}
    (htype : type ∈ resolvedTypes files) {field : Field} (hfield : field ∈ type.fields)
    {target : TypeId} (htarget : field.type.target? = some target) :
    target ∈ (resolvedTypes files).map TypeNode.id := by
  obtain ⟨declaration, -, rfl⟩ := List.mem_map.mp htype
  obtain ⟨source, -, hresolve⟩ := (mem_resolveDeclaration_fields_iff _ declaration field).mp hfield
  have hids : (resolvedTypes files).map TypeNode.id = knownIds files := by
    rw [resolvedTypes, List.map_map]
    rfl
  unfold resolveField at hresolve
  split at hresolve
  · contradiction
  · next type htype =>
    obtain rfl := Except.ok.inj hresolve
    rw [hids]
    exact (means_of_resolve_eq _ _ _ _ htype).declared htarget

/-- The fields that a declaration resolves to have distinct names. -/
theorem fields_nodup_resolveDeclaration (known : List TypeId) (declaration : Schema.TypeDecl) :
    ((resolveDeclaration known declaration).fields.map Field.name).Nodup := by
  have hfirst := firstBy_nodup Schema.Field.name declaration.fields
  rw [resolveDeclaration, ((List.mergeSort_perm _ _).map Field.name).nodup_iff]
  exact hfirst.sublist (names_filterMap_resolveField_sublist _ _ _)

/-- A graph that building returns is linked. -/
theorem linked_of_build {files : List Schema.SchemaFile} {graph : TypeGraph}
    (h : build files = .ok graph) : graph.Linked := by
  obtain ⟨-, rfl⟩ := (build_eq_ok_iff_wellFormed files graph).mp h
  have hdistinct := resolvedTypes_nodup files
  have hrefers : TypeGraph.RefersTo ⟨markRecursive (resolvedTypes files)⟩ =
      Refers (fun field => field.type.target?) (resolvedTypes files) :=
    funext₂ fun a b => propext (refers_markRecursive_iff (resolvedTypes files) a b)
  refine ⟨by rwa [map_id_markRecursive], ?_, ?_, ?_⟩
  · intro type htype
    rw [markRecursive_eq] at htype
    obtain ⟨source, hsource, rfl⟩ := List.mem_map.mp htype
    obtain ⟨declaration, -, rfl⟩ := List.mem_map.mp hsource
    rw [List.map_map]
    exact fields_nodup_resolveDeclaration _ declaration
  · intro type htype field hfield target htarget
    rw [map_id_markRecursive]
    rw [markRecursive_eq] at htype
    obtain ⟨source, hsource, rfl⟩ := List.mem_map.mp htype
    obtain ⟨resolved, hresolved, rfl⟩ := List.mem_map.mp hfield
    exact target_mem_resolvedTypes hsource hresolved htarget
  · intro type htype field hfield
    rw [markRecursive_eq] at htype
    obtain ⟨source, hsource, rfl⟩ := List.mem_map.mp htype
    obtain ⟨resolved, hresolved, rfl⟩ := List.mem_map.mp hfield
    rw [hrefers]
    exact returnsTo_iff hdistinct hsource hresolved fun target htarget =>
      target_mem_resolvedTypes hsource hresolved htarget

end Graph

end SchemaBindings
