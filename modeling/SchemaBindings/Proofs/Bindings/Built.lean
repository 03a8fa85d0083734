import SchemaBindings.Bindings.CHeader
import SchemaBindings.Bindings.PythonPackage
import SchemaBindings.Bindings.RustModules
import SchemaBindings.Bindings.TypeScriptModules
import SchemaBindings.Proofs.Bindings.Names
import SchemaBindings.Proofs.Text.Distinct

/-!
# What bindings are built of

Whatever the language, bindings are built only if all namespaces have stems of their own, and only
if the names of all types and fields make a table. What is built is then made of the graph and of
that table alone.
-/

namespace SchemaBindings.Bindings

open SchemaBindings.Graph (Field TypeNode)
open SchemaBindings.Naming (moduleStem)

/-- A result that is there was given. -/
theorem eq_ok_of_toOption {ε α : Type} {result : Except ε α} {a : α}
    (h : result.toOption = some a) :
    result = .ok a := by
  cases result with
  | error e => simp [Except.toOption] at h
  | ok b => exact congrArg _ (Option.some.inj h)

/-- The namespace of a type is one of those of the graph. -/
theorem namespacePath_mem {graph : TypeGraph} {type : TypeNode} (h : type ∈ graph.types) :
    type.id.namespacePath ∈ graph.namespaces :=
  (Text.mem_distinct_iff _ _).mpr (List.mem_map_of_mem h)

/-- The types of a namespace are those of the graph that are in it. -/
theorem mem_typesIn_iff {graph : TypeGraph} {namespacePath : String} {type : TypeNode} :
    type ∈ graph.typesIn namespacePath ↔ type ∈ graph.types ∧
    type.id.namespacePath = namespacePath := by
  rw [TypeGraph.typesIn, List.mem_filter, decide_eq_true_eq]

/-- A name table gives a field of the graph a name that was computed for some field. -/
theorem exists_nameTable_field_eq {graph : TypeGraph} {language : Language} {scope : TypeScope}
    {typeName : TypeNode → String} {fieldName : Field → String} {names : NameTable}
    (hbuild : NameTable.build graph language scope typeName fieldName = .ok names) {type : TypeNode}
    (htype : type ∈ graph.types) {field : Field} (hfield : field ∈ type.fields) :
    ∃ other, names.field field.id = fieldName other := by
  obtain ⟨-, -, rfl⟩ := (nameTable_build_eq_ok_iff _ _ _ _ _ _).mp hbuild
  have hmem : (field.id, fieldName field) ∈ graph.types.flatMap fun type =>
      type.fields.map fun field => (field.id, fieldName field) :=
    List.mem_flatMap.mpr ⟨type, htype, List.mem_map_of_mem hfield⟩
  rw [NameTable.field]
  cases hlookup :
    (graph.types.flatMap
      fun type => type.fields.map fun field => (field.id, fieldName field)).lookup field.id with
  | none => simpa using List.lookup_eq_none_iff.mp hlookup _ hmem
  | some name =>
    obtain ⟨before, behind, hsplit, -⟩ := List.lookup_eq_some_iff.mp hlookup
    have hfound : (field.id, name) ∈ graph.types.flatMap fun type =>
        type.fields.map fun field => (field.id, fieldName field) := by simp [hsplit]
    obtain ⟨owner, -, hpair⟩ := List.mem_flatMap.mp hfound
    obtain ⟨other, -, heq⟩ := List.mem_map.mp hpair
    exact ⟨other, (Prod.mk.inj heq).2.symm⟩

/-- A header is built of the structs of the placed types. -/
theorem CHeader.build_eq_ok {options : NamingOptions} {graph : TypeGraph} {header : CHeader.Header}
    (h : CHeader.build options graph = .ok header) :
    (graph.namespaces.map moduleStem).Nodup ∧
      ∃ names structs, CHeader.namesOf options graph = .ok names ∧
      CHeader.structsOf names (CHeader.placedTypes graph) = .ok structs ∧
        header = ⟨graph.types.map fun type => names.type type.id, structs⟩ := by
  unfold CHeader.build at h
  split at h
  · contradiction
  next done hstems =>
  split at h
  · contradiction
  next names hnames =>
  split at h
  · contradiction
  next structs hstructs =>
  exact ⟨(ensureStemsDistinct_eq_ok_iff _ _ _).mp hstems, names, structs, hnames, hstructs,
    (Except.ok.inj h).symm⟩

/-- A package is built of the modules of all namespaces. -/
theorem PythonPackage.build_eq_ok {options : NamingOptions} {graph : TypeGraph}
    {package : PythonPackage.Package} (h : PythonPackage.build options graph = .ok package) :
    (graph.namespaces.map moduleStem).Nodup ∧
      ∃ names, PythonPackage.namesOf options graph = .ok names ∧
      package = ⟨graph.namespaces.map (PythonPackage.moduleOf names graph),
        graph.types.map
          fun type => (PythonPackage.stemOf type.id.namespacePath, names.type type.id)⟩ := by
  unfold PythonPackage.build at h
  split at h
  · contradiction
  next done hstems =>
  split at h
  · contradiction
  next names hnames =>
  exact ⟨(ensureStemsDistinct_eq_ok_iff _ _ _).mp hstems, names, hnames, (Except.ok.inj h).symm⟩

/-- Modules of structs are built for all namespaces. -/
theorem RustModules.build_eq_ok {options : NamingOptions} {graph : TypeGraph}
    {modules : List RustModules.Module} (h : RustModules.build options graph = .ok modules) :
    (graph.namespaces.map moduleStem).Nodup ∧
      ∃ names, RustModules.namesOf options graph = .ok names ∧
      modules = graph.namespaces.map (RustModules.moduleOf names graph) := by
  unfold RustModules.build at h
  split at h
  · contradiction
  next done hstems =>
  split at h
  · contradiction
  next names hnames =>
  split at h
  · contradiction
  exact ⟨(ensureStemsDistinct_eq_ok_iff _ _ _).mp hstems, names, hnames, (Except.ok.inj h).symm⟩

/-- Modules of interfaces are built for all namespaces. -/
theorem TypeScriptModules.build_eq_ok {options : NamingOptions} {graph : TypeGraph}
    {modules : List TypeScriptModules.Module}
    (h : TypeScriptModules.build options graph = .ok modules) :
    (graph.namespaces.map moduleStem).Nodup ∧
      ∃ names, TypeScriptModules.namesOf options graph = .ok names ∧
      modules = graph.namespaces.map (TypeScriptModules.moduleOf names graph) := by
  unfold TypeScriptModules.build at h
  split at h
  · contradiction
  next done hstems =>
  split at h
  · contradiction
  next names hnames =>
  exact ⟨(ensureStemsDistinct_eq_ok_iff _ _ _).mp hstems, names, hnames, (Except.ok.inj h).symm⟩

end SchemaBindings.Bindings
