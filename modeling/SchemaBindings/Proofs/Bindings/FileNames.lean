import SchemaBindings.Bindings.Emit
import SchemaBindings.Proofs.Bindings.ModuleScope
import SchemaBindings.Proofs.Bindings.Outputs
import SchemaBindings.Proofs.Bindings.RustModules
import SchemaBindings.Proofs.Bindings.Workbench
import SchemaBindings.Proofs.Graph.Translation
import SchemaBindings.Proofs.Project.Diagnostics

/-!
# The names of emitted files

Stems of modules are made of identifiers. So in every language the files of a graph have names that
lead nowhere but into the output directory, and no hidden directory is named like one of them.
-/

namespace SchemaBindings.Bindings

open SchemaBindings.FileTree
open SchemaBindings.Naming (moduleStem)
open SchemaBindings.Schema (IsIdentifier IsNamespace isNamePart)

/-! ## Texts that are file names -/

/-- A text of letters, digits, underscores and dots names a file, unless it is made of dots. -/
theorem fileName_of_spelled {text : String} (hspelled : Spelled text)
    (hpart : text.toList.any isNamePart = true) :
    FileName text := by
  have hout {c : Char} (hno : isNamePart c = false) (hdot : c ≠ '.') : c ∉ text.toList := fun hc =>
    (hspelled c hc).elim (fun h => by simp [h] at hno) hdot
  have hdots {other : String} (hother : other.toList.any isNamePart = false) : text ≠ other := by
    rintro rfl
    simp [hpart] at hother
  refine ⟨⟨hdots (by decide), hdots (by decide), hdots (by decide), hout (by decide) (by decide)⟩,
    hout (by decide) (by decide), fun number hhidden => @hout '-' (by decide) (by decide) ?_⟩
  rw [hhidden, toList_hiddenName]
  simp

/-- Two texts of letters, digits, underscores and dots make up such a text. -/
theorem Spelled.append {text more : String} (h : Spelled text) (hmore : Spelled more) :
    Spelled (text ++ more) := by
  intro c hc
  rw [String.toList_append] at hc
  exact (List.mem_append.mp hc).elim (h c) (hmore c)

/-- A stem of letters, digits and underscores makes a file name with an extension. -/
theorem fileName_stem {stem : String} {extension : String}
    (hstem : ∀ c ∈ stem.toList, isNamePart c = true) (hextension : Spelled extension)
    (hpart : extension.toList.any isNamePart = true) : FileName (stem ++ extension) :=
  fileName_of_spelled (Spelled.append (fun c hc => .inl (hstem c hc)) hextension)
    (by simp [-List.any_eq_true, hpart])

/-! ## Emitted files -/

variable {options : NamingOptions} {graph : TypeGraph} {emitted : List EmittedFile}

/-- The files of Rust modules have file names. -/
theorem RustModules.fileName_of_emit
    (hspelled : ∀ namespacePath ∈ graph.namespaces, Spelled namespacePath)
    (h : RustModules.emit options graph = .ok emitted) : ∀ file ∈ emitted, FileName file.path := by
  unfold RustModules.emit at h
  split at h
  · contradiction
  next modules hmodules =>
  obtain ⟨-, names, -, rfl⟩ := RustModules.build_eq_ok hmodules
  obtain rfl := Except.ok.inj h
  intro file hfile
  rcases List.mem_append.mp (mem_of_mem_collectFiles hfile) with hmodule | hindex
  · rw [List.map_map] at hmodule
    obtain ⟨namespacePath, hmem, rfl⟩ := List.mem_map.mp hmodule
    change FileName (RustModules.moduleOf names graph namespacePath).path
    rw [RustModules.path_moduleOf names graph (hspelled namespacePath hmem)]
    exact fileName_stem
      (isNamePart_of_mem_escape fun c hc => (hspelled namespacePath hmem).isNamePart_of_mem hc)
      (by decide) (by decide)
  · obtain rfl := List.mem_singleton.mp hindex
    exact @fileName_of_spelled RustModules.indexPath (by decide) (by decide)

/-- The files of bindings have file names if the namespaces are spelled as in schemas. -/
theorem fileName_of_emit {language : Language}
    (hspelled : ∀ namespacePath ∈ graph.namespaces, Spelled namespacePath)
    (h : emit language options graph = .ok emitted) : ∀ file ∈ emitted, FileName file.path := by
  have hstem {namespacePath : String} (hmem : namespacePath ∈ graph.namespaces) {c : Char} :
      c ∈ (moduleStem namespacePath).toList → isNamePart c = true :=
      (hspelled namespacePath hmem).isNamePart_of_mem
  cases language with
  | c =>
    change CHeader.emit options graph = .ok emitted at h
    unfold CHeader.emit at h
    split at h
    · contradiction
    · obtain rfl := Except.ok.inj h
      simpa [EmittedFile.ofLines] using @fileName_of_spelled CHeader.path (by decide) (by decide)
  | python =>
    obtain ⟨-, names, index, -, hindex, hfiles, -⟩ := PythonPackage.files_of_emit h
    intro file hfile
    rcases hfiles file hfile with rfl | ⟨namespacePath, hmem, rfl⟩
    · rw [hindex]
      exact fileName_of_spelled (by decide) (by decide)
    · exact fileName_stem (isNamePart_of_mem_escape fun c hc => hstem hmem hc)
        (by decide) (by decide)
  | rust => exact RustModules.fileName_of_emit hspelled h
  | typescript =>
    obtain ⟨-, names, -, rfl, -⟩ := TypeScriptModules.files_of_emit h
    intro file hfile
    obtain ⟨namespacePath, hmem, rfl⟩ := List.mem_map.mp hfile
    exact fileName_stem (fun c hc => hstem hmem hc) (by decide) (by decide)

/-- The files that are written have file names if the emitted ones do. -/
theorem fileName_of_mem_outputFiles (h : ∀ file ∈ emitted, FileName file.path) :
    ∀ file ∈ outputFiles emitted, FileName file.path.text := by
  intro file hfile
  obtain ⟨source, hsource, hpath⟩ := exists_path_eq_of_mem_outputFiles hfile
  rw [hpath]
  exact h source hsource

/-- Files that are written have different paths as texts. -/
theorem outputFiles_text_nodup (emitted : List EmittedFile) :
    ((outputFiles emitted).map fun file => file.path.text).Nodup := by
  refine List.Nodup.of_map (fun text => (Path.mk text).components) ?_
  rw [List.map_map]
  exact outputFiles_nodup emitted

/-! ## Graphs of sources -/

/-- The path of a namespace is spelled with letters, digits, underscores and dots. -/
theorem spelled_of_isNamespace {namespacePath : String} (h : IsNamespace namespacePath) :
    Spelled namespacePath := by
  obtain ⟨segments, hsegments, rfl⟩ := h
  intro c hc
  rw [Schema.dotted, String.toList_intercalate] at hc
  rcases Text.mem_flatten_intersperse hc with hdot | ⟨letters, hletters, hmem⟩
  · exact .inr (by simpa using hdot)
  · obtain ⟨segment, hsegment, rfl⟩ := List.mem_map.mp hletters
    obtain ⟨first, rest, hword, hfirst, hrest⟩ := hsegments segment hsegment
    rw [hword, List.mem_cons] at hmem
    rcases hmem with rfl | hmem
    · exact .inl ((Schema.isNamePart_iff c).mpr (.inl hfirst))
    · exact .inl (hrest c hmem)

/-- The namespaces of a graph of sources are spelled as in schemas. -/
theorem spelled_of_graphOfSources {sources : List (String × String)}
    (h : Project.graphOfSources sources = .ok graph) :
    ∀ namespacePath ∈ graph.namespaces, Spelled namespacePath := by
  obtain ⟨files, hbuild, hfiles⟩ := Project.files_of_graphOfSources h
  intro namespacePath hmem
  obtain ⟨type, htype, rfl⟩ := List.mem_map.mp ((Text.mem_distinct_iff _ _).mp hmem)
  obtain ⟨declaration, hdeclaration, hsame⟩ := Graph.exists_declaration_of_build hbuild htype
  obtain ⟨file, hfile, hdeclared⟩ := List.mem_flatMap.mp hdeclaration
  obtain ⟨source, -, hparse⟩ := Graph.exists_of_forall₂ hfiles hfile
  rw [hsame.id_eq]
  exact spelled_of_isNamespace
    ((Schema.spelled_of_parse hparse).2 declaration hdeclared).namespacePath

end SchemaBindings.Bindings
