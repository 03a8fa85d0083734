import SchemaBindings.Proofs.Graph.Translation
import SchemaBindings.Proofs.Schema.Identifiers

/-!
# The fields of a built graph

A graph that building returns knows every field by the type that it belongs to and by its name. What
is declared about the field has been checked against the type that its reference means.
-/

namespace SchemaBindings.Graph

open SchemaBindings.Schema (IsIdentifier IsNamespace SchemaFile)

/-- Whether a field belongs to a type, and its default value and its validators suit the type that
it refers to. -/
structure Field.Suits (owner : TypeId) (field : Field) : Prop where
  owner_eq : field.id.owner = owner
  default_fits : ∀ value, field.default? = some value → Fits field.type value
  validators_fit : ∀ validator ∈ field.validators, Checks validator field.type

/-- A reference means one type only. -/
theorem Means.unique {known : List TypeId} {namespacePath : String} {reference : Schema.TypeRef}
    {type other : FieldType} (h : Means (· ∈ known) namespacePath reference type)
    (hother : Means (· ∈ known) namespacePath reference other) :
    type = other :=
  Except.ok.inj (h.resolve_eq.symm.trans hother.resolve_eq)

variable {files : List SchemaFile} {graph : TypeGraph}

/-- Every field of a built graph says what some declared field says. -/
theorem exists_declared_field_of_build (h : build files = .ok graph) {type : TypeNode}
    (htype : type ∈ graph.types) {field : Field} (hfield : field ∈ type.fields) :
    ∃ declaration ∈ declarationsOf files, type.id = declaredId declaration ∧
      ∃ source ∈ declaration.fields, field.Translates (Declared files) type.id source := by
  obtain ⟨declaration, hdeclaration, hsame⟩ := exists_declaration_of_build h htype
  obtain ⟨sources, hperm, htranslates⟩ := hsame.fields
  obtain ⟨source, hsource, hfieldsame⟩ := exists_of_forall₂ htranslates hfield
  exact ⟨declaration, hdeclaration, hsame.id_eq, source, hperm.mem_iff.mp hsource, hfieldsame⟩

/-- What the fields of a built graph say suits their types. -/
theorem suits_of_build (h : build files = .ok graph) {type : TypeNode} (htype : type ∈ graph.types)
    {field : Field} (hfield : field ∈ type.fields) : field.Suits type.id := by
  obtain ⟨declaration, hdeclaration, hid, source, hsource, hsame⟩ :=
    exists_declared_field_of_build h htype hfield
  obtain ⟨meant, hsound⟩ :=
    ((build_eq_ok_iff_wellFormed files graph).mp h).1.fields_sound declaration
    hdeclaration source hsource
  have hmeans := hsame.means
  rw [hid, ← mem_knownIds_eq] at hmeans
  have hmeant := hsound.means
  rw [← mem_knownIds_eq] at hmeant
  obtain rfl := hmeans.unique hmeant
  refine ⟨by rw [hsame.id_eq], fun value hvalue => ?_, fun validator hvalidator => ?_⟩
  · exact hsound.default_fits value (hsame.default_eq.symm.trans hvalue)
  · exact hsound.validators_fit validator (hsame.validators_eq ▸ hvalidator)

/-- No two fields of a built graph are known by the same identity. Fields of different types differ
in the type. -/
theorem fieldIds_nodup_of_build (h : build files = .ok graph) :
    ((graph.types.flatMap TypeNode.fields).map Field.id).Nodup := by
  have hlinked := linked_of_build h
  rw [List.map_flatMap, List.nodup_flatMap]
  constructor
  · intro type htype
    refine List.Nodup.of_map FieldId.name ?_
    rw [List.map_map]
    exact hlinked.fields_distinct type htype
  · have htypes : graph.types.Pairwise fun type other => type.id ≠ other.id :=
      List.pairwise_map.mp hlinked.distinct
    refine htypes.imp_of_mem fun {type other} htype hother hne => ?_
    intro id hid hsame
    obtain ⟨field, hfield, rfl⟩ := List.mem_map.mp hid
    obtain ⟨twin, htwin, heq⟩ := List.mem_map.mp hsame
    apply hne
    rw [← (suits_of_build h htype hfield).owner_eq, ← (suits_of_build h hother htwin).owner_eq, heq]

/-- Whether the names of a graph are spelled as in schemas: with identifiers. -/
structure NamesSpelled (graph : TypeGraph) : Prop where
  namespacePath : ∀ type ∈ graph.types, IsNamespace type.id.namespacePath
  type : ∀ type ∈ graph.types, IsIdentifier type.id.name
  field : ∀ type ∈ graph.types, ∀ field ∈ type.fields, IsIdentifier field.name

/-- The names of a built graph are spelled as in schemas if those of the declarations are, as
parsing leaves them. -/
theorem namesSpelled_of_build (h : build files = .ok graph)
    (hspelled : ∀ declaration ∈ declarationsOf files, ∃ file, declaration.Spelled file) :
    NamesSpelled graph := by
  refine ⟨fun type htype => ?_, fun type htype => ?_, fun type htype field hfield => ?_⟩
  · obtain ⟨declaration, hdeclaration, hsame⟩ := exists_declaration_of_build h htype
    obtain ⟨file, hspelled⟩ := hspelled declaration hdeclaration
    rw [hsame.id_eq]
    exact hspelled.namespacePath
  · obtain ⟨declaration, hdeclaration, hsame⟩ := exists_declaration_of_build h htype
    obtain ⟨file, hspelled⟩ := hspelled declaration hdeclaration
    rw [hsame.id_eq]
    exact hspelled.name
  · obtain ⟨declaration, hdeclaration, -, source, hsource, hsame⟩ :=
      exists_declared_field_of_build h htype hfield
    obtain ⟨file, hspelled⟩ := hspelled declaration hdeclaration
    rw [Field.name, hsame.id_eq]
    exact (hspelled.fields source hsource).name

end SchemaBindings.Graph
