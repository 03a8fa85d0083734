import Mathlib.Data.List.Forall2
import SchemaBindings.Proofs.Graph.Recursion

/-!
# Graphs say what schema files declare

A graph that building returns has one type for each declaration, with its fields in the order of
their names, and every field says what its declared one says, with the reference replaced by what it
means. So nothing is lost, added or said twice on the way through the first definitions, the look-up
of references, sorting and marking.
-/

namespace SchemaBindings.Graph

open SchemaBindings.Schema (SchemaFile TypeDecl)

/-- Whether a field says what a declared field of a type says. -/
structure Field.Translates (declared : TypeId → Prop) (owner : TypeId) (source : Schema.Field)
    (field : Field) : Prop where
  id_eq : field.id = ⟨owner, source.name⟩
  means : Means declared owner.namespacePath source.type field.type
  optional_eq : field.optional = source.optional
  default_eq : field.default? = source.default?
  validators_eq : field.validators = source.validators
  doc_eq : field.doc? = source.doc?
  span_eq : field.span = source.span

/-- Whether a type says what a declaration says, with the fields in the order of their names. -/
structure TypeNode.Translates (declared : TypeId → Prop) (declaration : TypeDecl)
    (type : TypeNode) : Prop where
  id_eq : type.id = declaredId declaration
  doc_eq : type.doc? = declaration.doc?
  span_eq : type.span = declaration.span
  fields_sorted : type.fields.Pairwise fun field other => field.name < other.name
  fields : ∃ sources : List Schema.Field, sources.Perm declaration.fields ∧
    List.Forall₂ (Field.Translates declared type.id) sources type.fields

/-- Whether a graph says what schema files declare: one type for each declaration, and no field
refers to anything else. -/
structure Translation (files : List SchemaFile) (graph : TypeGraph) : Prop where
  ids_nodup : (graph.types.map TypeNode.id).Nodup
  types : ∃ declarations : List TypeDecl, declarations.Perm (declarationsOf files) ∧
    List.Forall₂ (TypeNode.Translates (Declared files)) declarations graph.types
  target_mem : ∀ type ∈ graph.types, ∀ field ∈ type.fields, ∀ target,
    field.type.target? = some target →
    target ∈ graph.types.map TypeNode.id

/-! ## Fields -/

/-- What a declared field is resolved to says the same. -/
theorem translates_of_resolveField {known : List TypeId} {owner : TypeId} {source : Schema.Field}
    {field : Field} (h : resolveField known owner source = .ok field) :
    field.Translates (· ∈ known) owner source := by
  unfold resolveField at h
  split at h
  · contradiction
  · next type hresolve =>
    obtain rfl := Except.ok.inj h
    exact ⟨rfl, means_of_resolve_eq known owner.namespacePath source.type type hresolve,
      rfl, rfl, rfl, rfl, rfl⟩

/-- A sound field is resolved. -/
theorem exists_resolveField {known : List TypeId} (owner : TypeId) {source : Schema.Field}
    {type : FieldType} (h : Sound (· ∈ known) owner.namespacePath source type) :
    ∃ field, resolveField known owner source = .ok field := by
  rw [resolveField, h.means.resolve_eq]
  exact ⟨_, rfl⟩

/-- Marking changes nothing that a field says. -/
theorem Field.Translates.marked {declared : TypeId → Prop} {owner : TypeId} {source : Schema.Field}
    {field : Field} (h : field.Translates declared owner source) (recursive : Bool) :
    (field.marked recursive).Translates declared owner source :=
  ⟨h.id_eq, h.means, h.optional_eq, h.default_eq, h.validators_eq, h.doc_eq, h.span_eq⟩

/-- Where each element of a list has an image, nothing is left out of the images. -/
theorem forall₂_filterMap {α β : Type} {f : α → Option β} {r : α → β → Prop} {elements : List α}
    (h : ∀ a ∈ elements, ∃ b, f a = some b ∧ r a b) :
    List.Forall₂ r elements (elements.filterMap f) := by
  induction elements with
  | nil => exact .nil
  | cons a rest ih =>
    rw [List.forall_mem_cons] at h
    obtain ⟨⟨b, hb, hrelated⟩, hrest⟩ := h
    rw [List.filterMap_cons_some hb]
    exact .cons hrelated (ih hrest)

/-- Where two lists are related, each element of the second is related to one of the first. -/
theorem exists_of_forall₂ {α β : Type} {r : α → β → Prop} {elements : List α} {images : List β}
    (h : List.Forall₂ r elements images) {b : β} (hb : b ∈ images) : ∃ a ∈ elements, r a b := by
  induction h with
  | nil => exact absurd hb List.not_mem_nil
  | @cons a image rest others hrelated _ ih =>
    rcases List.mem_cons.mp hb with rfl | hb
    · exact ⟨a, List.mem_cons_self, hrelated⟩
    · obtain ⟨other, hother, hrelated⟩ := ih hb
      exact ⟨other, List.mem_cons_of_mem a hother, hrelated⟩

/-! ## Declarations -/

/-- The fields that a declaration resolves to are in the strict order of their names. -/
theorem fields_sorted_resolveDeclaration (known : List TypeId) (declaration : TypeDecl) :
    (resolveDeclaration known declaration).fields.Pairwise
      fun field other => field.name < other.name := by
  have hsorted : (resolveDeclaration known declaration).fields.Pairwise fun field other =>
      decide (field.name ≤ other.name) = true :=
    List.pairwise_mergeSort (fun a b c => name_le_trans a.name b.name c.name)
      (fun a b => name_le_total a.name b.name) _
  have hdistinct := List.pairwise_map.mp (fields_nodup_resolveDeclaration known declaration)
  refine (hsorted.and hdistinct).imp fun {field other} h => ?_
  by_contra hnot
  exact h.2 (String.le_antisymm (of_decide_eq_true h.1) (String.not_lt.mp hnot))

/-- Where field names are distinct and fields sound, a declaration is resolved to a type that says
the same. -/
theorem translates_resolveDeclaration {known : List TypeId} {declaration : TypeDecl}
    (hdistinct : (declaration.fields.map Schema.Field.name).Nodup)
    (hsound : ∀ field ∈ declaration.fields,
      ∃ type, Sound (· ∈ known) declaration.namespacePath field type) :
    (resolveDeclaration known declaration).Translates (· ∈ known) declaration := by
  refine ⟨rfl, rfl, rfl, fields_sorted_resolveDeclaration known declaration, ?_⟩
  have hall : List.Forall₂ (Field.Translates (· ∈ known) (declaredId declaration))
      declaration.fields
      (declaration.fields.filterMap
        fun field => (resolveField known (declaredId declaration) field).toOption) := by
    refine forall₂_filterMap fun source hsource => ?_
    obtain ⟨type, htype⟩ := hsound source hsource
    obtain ⟨field, hfield⟩ := exists_resolveField (declaredId declaration) htype
    exact ⟨field, by rw [hfield, Except.toOption], translates_of_resolveField hfield⟩
  have hsorted : Relation.Comp
      (List.Forall₂ (Field.Translates (· ∈ known) (declaredId declaration))) List.Perm
      declaration.fields (resolveDeclaration known declaration).fields := by
    refine ⟨_, hall, ?_⟩
    rw [resolveDeclaration, firstFields, firstBy_eq_self _ _ hdistinct]
    exact (List.mergeSort_perm _ _).symm
  rw [List.forall₂_comp_perm_eq_perm_comp_forall₂] at hsorted
  obtain ⟨sources, hperm, htranslates⟩ := hsorted
  exact ⟨sources, hperm.symm, htranslates⟩

/-- Marking changes nothing that a type says. -/
theorem TypeNode.Translates.marked {declared : TypeId → Prop} {declaration : TypeDecl}
    {type : TypeNode} (h : type.Translates declared declaration) (recursive : Field → Bool) :
    TypeNode.Translates declared declaration
      { type with fields := type.fields.map fun field => field.marked (recursive field) } := by
  refine ⟨h.id_eq, h.doc_eq, h.span_eq, List.pairwise_map.mpr h.fields_sorted, ?_⟩
  obtain ⟨sources, hperm, htranslates⟩ := h.fields
  refine ⟨sources, hperm, List.forall₂_map_right_iff.mpr
    (htranslates.imp fun source field hfield => ?_)⟩
  exact hfield.marked (recursive field)

/-! ## Schema files -/

/-- The types of a graph that building returns say one by one what is declared first under their
names. -/
theorem translates_of_build {files : List SchemaFile} {graph : TypeGraph}
    (h : build files = .ok graph) :
    List.Forall₂ (TypeNode.Translates (Declared files)) (firstDeclarations files) graph.types := by
  obtain ⟨hwell, rfl⟩ := (build_eq_ok_iff_wellFormed files graph).mp h
  rw [markRecursive_eq, resolvedTypes, List.map_map, List.forall₂_map_right_iff, List.forall₂_same]
  intro declaration hdeclaration
  have hmem := mem_of_mem_firstDeclarations hdeclaration
  rw [← mem_knownIds_eq]
  refine (translates_resolveDeclaration (hwell.fields_distinct declaration hmem) ?_).marked _
  rw [mem_knownIds_eq]
  exact hwell.fields_sound declaration hmem

/-- Every type of a built graph says what some declaration of the files says. -/
theorem exists_declaration_of_build {files : List SchemaFile} {graph : TypeGraph}
    (h : build files = .ok graph) {type : TypeNode} (htype : type ∈ graph.types) :
    ∃ declaration ∈ declarationsOf files, type.Translates (Declared files) declaration := by
  obtain ⟨declaration, hdeclaration, hsame⟩ := exists_of_forall₂ (translates_of_build h) htype
  exact ⟨declaration, mem_of_mem_firstDeclarations hdeclaration, hsame⟩

/-- A graph that building returns says what the schema files declare. -/
theorem translation_of_build (files : List SchemaFile) (graph : TypeGraph)
    (h : build files = .ok graph) :
    Translation files graph := by
  have hlinked := linked_of_build h
  have hwell := ((build_eq_ok_iff_wellFormed files graph).mp h).1
  exact ⟨hlinked.distinct,
    ⟨firstDeclarations files, firstDeclarations_perm hwell.types_distinct, translates_of_build h⟩,
    hlinked.target_mem⟩

/-- A root type, and one of the same name in a namespace. Others refer to them by that name
alone. -/
def sampleSchemas : List SchemaFile :=
  [⟨"b.schema", "b", [
      ⟨"Line", "b",
        [⟨"to", .list (.list (.named [] "Point")), false, none, [], some "The way", .nowhere⟩,
        ⟨"mark", .named [] "Mark", true, none, [], none, .nowhere⟩,
        ⟨"port", .named [] "int", false, some (.integer 80), [.port, .number], none, .nowhere⟩],
        none, .nowhere⟩,
      ⟨"Point", "b", [], none, .nowhere⟩]⟩,
    ⟨"a.schema", "", [⟨"Point", "", [], none, .nowhere⟩,
      ⟨"Mark", "", [⟨"at", .named [] "Point", false, none, [], none, .nowhere⟩],
        some "A mark", .nowhere⟩]⟩]

/-- In a namespace a name means the type there before a root type. -/
theorem translation_sampleSchemas :
    ∃ graph, build sampleSchemas = .ok graph ∧ Translation sampleSchemas graph ∧
    graph.types.map
      (fun type => (type.id.shown, type.fields.map fun field => (field.name, field.type.shown))) =
      [("Mark", [("at", "Point")]), ("Point", []),
        ("b.Line", [("mark", "Mark"), ("port", "int"), ("to", "[[b.Point]]")]),
        ("b.Point", [])] := by
  have hbuild : (build sampleSchemas).toOption.map (fun graph => graph.types.map fun type =>
      (type.id.shown, type.fields.map fun field => (field.name, field.type.shown))) =
        some [("Mark", [("at", "Point")]), ("Point", []),
          ("b.Line", [("mark", "Mark"), ("port", "int"), ("to", "[[b.Point]]")]),
          ("b.Point", [])] := by cbv
  cases hgraph : build sampleSchemas with
  | error errors => simp [hgraph, Except.toOption] at hbuild
  | ok graph =>
    rw [hgraph] at hbuild
    exact ⟨graph, rfl, translation_of_build sampleSchemas graph hgraph, Option.some.inj hbuild⟩

end SchemaBindings.Graph
