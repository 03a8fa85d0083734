import SchemaBindings.Bindings.Emit
import SchemaBindings.Graph.Build
import SchemaBindings.Proofs.Bindings.PythonPackage
import SchemaBindings.Proofs.Bindings.RustModules

/-!
# One module file for every namespace

Rust and Python bindings hold a module file for each namespace and an index file. Module stems are
checked to be distinct before reserved words among them are escaped, and the index file is not
checked at all. So a namespace loses its file exactly if its stem is that of the index file, or if
it is a reserved word and another stem is that word with an underscore behind it. Where this does
not happen, every namespace has a file, which declares exactly its own types.
-/

namespace SchemaBindings.Bindings

open SchemaBindings.Graph (TypeId TypeNode)

/-- The layout of a language whose bindings are modules with an index that declares them. -/
def moduleLayout? : Language → Option ModuleLayout
  | .rust => some RustModules.layout
  | .python => some PythonPackage.layout
  | _ => none

/-- In bindings of a built graph, every namespace has a file of its own, which declares exactly its
types, if and only if no namespace has the stem of the index file and no two have a reserved word
and that word with an underscore as their stems. -/
theorem holds_emit_iff_separate (files : List Schema.SchemaFile) (graph : TypeGraph)
    (language : Language) (layout : ModuleLayout) (options : NamingOptions)
    (emitted : List EmittedFile) (hlayout : moduleLayout? language = some layout)
    (hbuild : Graph.build files = .ok graph)
    (hspelled : ∀ namespacePath ∈ graph.namespaces, Spelled namespacePath)
    (hemit : emit language options graph = .ok emitted) :
    layout.Holds options graph emitted ↔ layout.Separate graph := by
  have hlinked := Graph.linked_of_build hbuild
  cases language with
  | rust =>
    obtain rfl := Option.some.inj hlayout
    exact RustModules.holds_emit_iff hlinked hspelled hemit
  | python =>
    obtain rfl := Option.some.inj hlayout
    exact PythonPackage.holds_emit_iff hlinked hspelled hemit
  | c => simp [moduleLayout?] at hlayout
  | typescript => simp [moduleLayout?] at hlayout

/-- A schema file that declares one type with one field. -/
def schemaFileOf (namespacePath name : String) : Schema.SchemaFile :=
  ⟨name, namespacePath,
    [⟨name, namespacePath, [⟨"x", .named [] "int", false, none, [], none, .nowhere⟩], none,
    .nowhere⟩]⟩

/-- All names are written as they are in the schema. -/
def keptNaming : NamingOptions := ⟨some .preserve, some .preserve⟩

/-- A reserved word as a namespace beside another namespace: both have their modules. -/
theorem holds_reserved_beside_other :
    ∃ graph emitted, Graph.build [schemaFileOf "self" "A", schemaFileOf "crates" "B"] = .ok graph ∧
      emit .rust keptNaming graph = .ok emitted ∧
      RustModules.layout.Holds keptNaming graph emitted := by
  have hmade : ((Graph.build [schemaFileOf "self" "A", schemaFileOf "crates" "B"]).toOption.bind
        fun graph =>
      (emit .rust keptNaming graph).toOption.map fun _ => graph.namespaces) =
        some ["crates", "self"] := by cbv
  cases hbuild : Graph.build [schemaFileOf "self" "A", schemaFileOf "crates" "B"] with
  | error errors => simp [hbuild, Except.toOption] at hmade
  | ok graph =>
    cases hemit : emit .rust keptNaming graph with
    | error unsupported => simp [hbuild, hemit, Except.toOption] at hmade
    | ok emitted =>
      have hnamespaces : graph.namespaces = ["crates", "self"] := by
        simpa [hbuild, hemit, Except.toOption] using hmade
      have hspelled : ∀ namespacePath ∈ graph.namespaces, Spelled namespacePath := by
        rw [hnamespaces]
        decide
      have hseparate : RustModules.layout.Separate graph := by
        rw [ModuleLayout.Separate, hnamespaces]
        decide
      exact ⟨graph, emitted, rfl, hemit,
        (holds_emit_iff_separate _ graph .rust RustModules.layout keptNaming emitted
        rfl hbuild hspelled hemit).mpr hseparate⟩

/-- A reserved word and the same word with an underscore, as namespaces of a Python package: two
namespaces leave one module beside the index. -/
theorem emit_loses_namespace :
    ((Graph.build [schemaFileOf "class" "A", schemaFileOf "class_" "B"]).toOption.bind fun graph =>
      (emit .python keptNaming graph).toOption.map fun emitted =>
        (graph.namespaces, emitted.map EmittedFile.path)) =
      some (["class", "class_"], ["class_.py", "__init__.py"]) := by
  cbv

end SchemaBindings.Bindings
