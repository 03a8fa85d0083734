import SchemaBindings.Bindings.Emit
import SchemaBindings.Proofs.Graph.Spans

/-!
# Bindings do not show places

A type graph without its places has the same bindings in every language: each emitter looks at
names, types, optionality, defaults, validators and doc comments of fields, and names types and
namespaces by their identities. Graphs that agree up to places therefore have the same bindings.
-/

namespace SchemaBindings.Bindings

open SchemaBindings.Graph (Field TypeNode)

/-! ## Names -/

/-- The groups of types that share a scope are the same without places. -/
theorem groups_withoutSpans (scope : TypeScope) (graph : TypeGraph) :
    scope.groups graph.withoutSpans =
      (scope.groups graph).map fun group => (group.1, group.2.map TypeNode.withoutSpans) := by
  cases scope with
  | perNamespace => simp [TypeScope.groups, Function.comp_def]
  | global => simp [TypeScope.groups]

/-- Names that do not depend on places are given alike to a graph without places. -/
theorem nameTable_withoutSpans (graph : TypeGraph) (language : Language) (scope : TypeScope)
    {typeName : TypeNode → String} {fieldName : Field → String}
    (htype : ∀ type, typeName type.withoutSpans = typeName type)
    (hfield : ∀ field, fieldName field.withoutSpan = fieldName field) :
    NameTable.build graph.withoutSpans language scope typeName fieldName =
      NameTable.build graph language scope typeName fieldName := by
  have hname : ∀ field : Field, field.withoutSpan.name = field.name := fun _ => rfl
  unfold NameTable.build
  simp only [groups_withoutSpans, TypeGraph.withoutSpans_types, List.map_map, List.flatMap_map,
    Function.comp_def, TypeNode.withoutSpans_id, TypeNode.withoutSpans_fields,
    Field.withoutSpan_id, hname, htype, hfield]

/-- Module stems are distinct with and without places. -/
theorem ensureStemsDistinct_withoutSpans (language : Language) (graph : TypeGraph) :
    ensureStemsDistinct language graph.withoutSpans = ensureStemsDistinct language graph := by
  rw [ensureStemsDistinct, TypeGraph.namespaces_withoutSpans, ensureStemsDistinct]

/-! ## C -/

namespace CHeader

/-- The members of fields are the same without places. -/
theorem membersOf_withoutSpans (names : NameTable) (fields : List Field) :
    membersOf names (fields.map Field.withoutSpan) = membersOf names fields := by
  induction fields with
  | nil => rfl
  | cons field rest ih =>
    have hmembers : fieldMembers names field.withoutSpan = fieldMembers names field := rfl
    rw [List.map_cons, membersOf, membersOf, hmembers, ih]

/-- The struct of a type is the same without places. -/
theorem structOf_withoutSpans (names : NameTable) (type : TypeNode) :
    structOf names type.withoutSpans = structOf names type := by
  unfold structOf
  rw [TypeNode.withoutSpans_fields, membersOf_withoutSpans]
  rfl

/-- The structs of types are the same without places. -/
theorem structsOf_withoutSpans (names : NameTable) (types : List TypeNode) :
    structsOf names (types.map TypeNode.withoutSpans) = structsOf names types := by
  induction types with
  | nil => rfl
  | cons type rest ih => rw [List.map_cons, structsOf, structsOf, structOf_withoutSpans, ih]

/-- A type embeds the same types without places. -/
theorem embedded_withoutSpans (graph : TypeGraph) (type : TypeNode) :
    embedded graph.withoutSpans type.withoutSpans =
      (embedded graph type).map TypeNode.withoutSpans := by
  unfold embedded
  rw [TypeNode.withoutSpans_fields, List.filterMap_map, List.map_filterMap]
  refine congrArg (fun f => List.filterMap f type.fields) (funext fun field => ?_)
  obtain ⟨id, target, optional, default?, validators, doc?, recursive, span⟩ := field
  cases recursive with
  | true => rfl
  | false =>
    cases target with
    | named id => exact TypeGraph.find?_withoutSpans graph id
    | primitive kind => rfl
    | list element => rfl

/-- Types are placed in the same order without places. -/
theorem placeTypes_withoutSpans (graph : TypeGraph) (fuel : Nat) (types : List TypeNode)
    (seen : List Graph.TypeId) (placed : List TypeNode) :
    placeTypes graph.withoutSpans fuel (types.map TypeNode.withoutSpans) seen
        (placed.map TypeNode.withoutSpans) =
      ((placeTypes graph fuel types seen placed).1,
        (placeTypes graph fuel types seen placed).2.map TypeNode.withoutSpans) := by
  induction fuel generalizing types seen placed with
  | zero => simp [placeTypes]
  | succ fuel ih =>
    cases types with
    | nil => simp [placeTypes]
    | cons type rest =>
      rw [List.map_cons, placeTypes, placeTypes, TypeNode.withoutSpans_id]
      split
      · exact ih rest seen placed
      · rw [embedded_withoutSpans, ih]
        dsimp only
        rw [← List.map_singleton, ← List.map_append, ih]

/-- The order of structs is the same without places. -/
theorem placedTypes_withoutSpans (graph : TypeGraph) :
    placedTypes graph.withoutSpans = (placedTypes graph).map TypeNode.withoutSpans := by
  have hsteps : placingSteps graph.withoutSpans = placingSteps graph := by
    simp [placingSteps, Function.comp_def]
  have hplaced := placeTypes_withoutSpans graph (placingSteps graph) graph.types [] []
  rw [List.map_nil] at hplaced
  rw [placedTypes, hsteps, TypeGraph.withoutSpans_types, hplaced]
  rfl

/-- The C bindings are the same without places. -/
theorem emit_withoutSpans (options : NamingOptions) (graph : TypeGraph) :
    emit options graph.withoutSpans = emit options graph := by
  have hnames : namesOf options graph.withoutSpans = namesOf options graph :=
    nameTable_withoutSpans graph .c .global (fun _ => rfl) (fun _ => rfl)
  unfold emit build
  simp only [ensureStemsDistinct_withoutSpans, hnames, placedTypes_withoutSpans,
    structsOf_withoutSpans, TypeGraph.withoutSpans_types, List.map_map, Function.comp_def,
    TypeNode.withoutSpans_id]

end CHeader

/-! ## Python -/

namespace PythonPackage

/-- The class of a type is the same without places. -/
theorem classOf_withoutSpans (names : NameTable) (type : TypeNode) :
    classOf names type.withoutSpans = classOf names type := by
  unfold classOf
  rw [TypeNode.withoutSpans_fields, List.any_map, List.map_map]
  rfl

/-- The module of a namespace is the same without places. -/
theorem moduleOf_withoutSpans (names : NameTable) (graph : TypeGraph) (namespacePath : String) :
    moduleOf names graph.withoutSpans namespacePath = moduleOf names graph namespacePath := by
  simp [moduleOf, Function.comp_def, classOf_withoutSpans]

/-- The package is the same without places. -/
theorem build_withoutSpans (options : NamingOptions) (graph : TypeGraph) :
    build options graph.withoutSpans = build options graph := by
  have hnames : namesOf options graph.withoutSpans = namesOf options graph :=
    nameTable_withoutSpans graph .python .perNamespace (fun _ => rfl) (fun _ => rfl)
  have hmodules : ∀ names, moduleOf names graph.withoutSpans = moduleOf names graph :=
    fun names => funext fun path => moduleOf_withoutSpans names graph path
  unfold build
  simp only [ensureStemsDistinct_withoutSpans, hnames, hmodules, TypeGraph.namespaces_withoutSpans,
    TypeGraph.withoutSpans_types, List.map_map, Function.comp_def, TypeNode.withoutSpans_id]

/-- The Python bindings are the same without places. -/
theorem emit_withoutSpans (options : NamingOptions) (graph : TypeGraph) :
    emit options graph.withoutSpans = emit options graph := by
  rw [emit, build_withoutSpans, emit]

end PythonPackage

/-! ## Rust -/

namespace RustModules

/-- The struct of a type is the same without places. -/
theorem structOf_withoutSpans (names : NameTable) (type : TypeNode) :
    structOf names type.withoutSpans = structOf names type := by
  unfold structOf
  rw [TypeNode.withoutSpans_fields, List.map_map]
  rfl

/-- The module of a namespace is the same without places. -/
theorem moduleOf_withoutSpans (names : NameTable) (graph : TypeGraph) (namespacePath : String) :
    moduleOf names graph.withoutSpans namespacePath = moduleOf names graph namespacePath := by
  simp [moduleOf, Function.comp_def, structOf_withoutSpans]

/-- Default functions collide alike without places. -/
theorem defaultCollision?_withoutSpans (names : NameTable) (graph : TypeGraph) :
    defaultCollision? names graph.withoutSpans = defaultCollision? names graph := by
  simp [defaultCollision?, List.findSome?_map, Function.comp_def, structOf_withoutSpans]

/-- The modules are the same without places. -/
theorem build_withoutSpans (options : NamingOptions) (graph : TypeGraph) :
    build options graph.withoutSpans = build options graph := by
  have hnames : namesOf options graph.withoutSpans = namesOf options graph :=
    nameTable_withoutSpans graph .rust .perNamespace (fun _ => rfl) (fun _ => rfl)
  have hmodules : ∀ names, moduleOf names graph.withoutSpans = moduleOf names graph :=
    fun names => funext fun path => moduleOf_withoutSpans names graph path
  unfold build
  simp only [ensureStemsDistinct_withoutSpans, hnames, hmodules, defaultCollision?_withoutSpans,
    TypeGraph.namespaces_withoutSpans]

/-- The Rust bindings are the same without places. -/
theorem emit_withoutSpans (options : NamingOptions) (graph : TypeGraph) :
    emit options graph.withoutSpans = emit options graph := by
  rw [emit, build_withoutSpans, emit]

end RustModules

/-! ## TypeScript -/

namespace TypeScriptModules

/-- The interface of a type is the same without places. -/
theorem interfaceOf_withoutSpans (names : NameTable) (type : TypeNode) :
    interfaceOf names type.withoutSpans = interfaceOf names type := by
  unfold interfaceOf
  rw [TypeNode.withoutSpans_fields, List.map_map]
  rfl

/-- The module of a namespace is the same without places. -/
theorem moduleOf_withoutSpans (names : NameTable) (graph : TypeGraph) (namespacePath : String) :
    moduleOf names graph.withoutSpans namespacePath = moduleOf names graph namespacePath := by
  simp [moduleOf, Function.comp_def, interfaceOf_withoutSpans]

/-- The TypeScript bindings are the same without places. -/
theorem emit_withoutSpans (options : NamingOptions) (graph : TypeGraph) :
    emit options graph.withoutSpans = emit options graph := by
  have hnames : namesOf options graph.withoutSpans = namesOf options graph :=
    nameTable_withoutSpans graph .typescript .perNamespace (fun _ => rfl) (fun _ => rfl)
  have hmodules : ∀ names, moduleOf names graph.withoutSpans = moduleOf names graph :=
    fun names => funext fun path => moduleOf_withoutSpans names graph path
  unfold emit build
  simp only [ensureStemsDistinct_withoutSpans, hnames, hmodules, TypeGraph.namespaces_withoutSpans]

end TypeScriptModules

/-! ## All languages -/

/-- The bindings for a language are the same without places. -/
theorem emit_withoutSpans (language : Language) (options : NamingOptions) (graph : TypeGraph) :
    emit language options graph.withoutSpans = emit language options graph := by
  cases language with
  | c => exact CHeader.emit_withoutSpans options graph
  | python => exact PythonPackage.emit_withoutSpans options graph
  | rust => exact RustModules.emit_withoutSpans options graph
  | typescript => exact TypeScriptModules.emit_withoutSpans options graph

/-- Graphs that agree up to places have the same bindings. -/
theorem emit_eq_of_withoutSpans {graph other : TypeGraph}
    (h : graph.withoutSpans = other.withoutSpans) (language : Language) (options : NamingOptions) :
    emit language options graph = emit language options other := by
  rw [← emit_withoutSpans, h, emit_withoutSpans]

end SchemaBindings.Bindings
