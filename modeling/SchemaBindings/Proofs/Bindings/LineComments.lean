import SchemaBindings.Proofs.Bindings.BlockComments
import SchemaBindings.Proofs.Bindings.Built
import SchemaBindings.Proofs.Schema.DocComments

/-!
# Line comments

A doc comment of a schema ends at a line feed only, and so does a line of it, so a carriage return
may stand inside of one. In Python and in Rust, where every line of a doc comment is a line comment
of its own, such a line comes out broken: what stands behind the carriage return is a line of the
program. These are all that break, since doc comments of sources end in nothing that would be taken
off them on the way, and what is added to their lines holds no line ending.
-/

namespace SchemaBindings.Bindings

open SchemaBindings.Graph (Field TypeNode)
open SchemaBindings.Schema (Trimmed Validator linesOf)
open SchemaBindings.Text (SingleLine lines trim trimEnd)

/-! ## Doc lines -/

/-- Between line feeds, a trimmed doc comment has nothing at its ends to trim. -/
theorem trimEnd_of_trimmed {doc : String} (h : Trimmed (some doc)) {part : List Char}
    (hpart : part ∈ doc.toList.splitOn '\n') : trimEnd part = part := by
  have htrim : trim part = part := by
    simpa using h (String.ofList part) (List.mem_map_of_mem hpart)
  rwa [trim, Schema.trimStart_of_trim htrim] at htrim

/-- A carriage return in a trimmed doc comment is in one of its lines. -/
theorem exists_line_of_return {doc : String} (h : Trimmed (some doc))
    (hreturn : '\r' ∈ doc.toList) :
    ∃ line ∈ lines doc.toList, trimEnd line = line ∧ '\r' ∈ line := by
  have hfree : ∀ part ∈ doc.toList.splitOn '\n', '\n' ∉ part := fun part hpart =>
    Text.not_mem_of_mem_splitOn hpart
  have hends : ∀ part ∈ doc.toList.splitOn '\n', part.getLast? ≠
      some '\r' := fun part hpart hlast =>
    absurd (Text.isBlank_getLast_of_trimEnd (trimEnd_of_trimmed h hpart) hlast) (by decide)
  have hjoined : List.intercalate ['\n'] (doc.toList.splitOn '\n') = doc.toList :=
    List.intercalate_splitOn '\n'
  rw [← hjoined] at hreturn
  rcases Text.mem_flatten_intersperse hreturn with hfeed | ⟨part, hpart, hmem⟩
  · exact absurd hfeed (by decide)
  · have hline := Text.mem_lines_intercalate hfree hends hpart (List.ne_nil_of_mem hmem)
    rw [hjoined] at hline
    exact ⟨part, hline, trimEnd_of_trimmed h hpart, hmem⟩

/-- The doc lines of a trimmed doc comment hold a carriage return exactly if it does. -/
theorem return_notMem_docLines_iff {doc? : Option String} (h : Trimmed doc?) :
    (∀ line ∈ docLines doc? none, '\r' ∉ line.toList) ↔ ∀ doc ∈ doc?, '\r' ∉ doc.toList := by
  cases doc? with
  | none => simp [docLines]
  | some doc =>
    have hdocLines : docLines (some doc) none =
        (lines doc.toList).map fun line => String.ofList (trimEnd line) :=
      List.append_nil _
    simp only [hdocLines, List.forall_mem_map, String.toList_ofList,
      Option.mem_some_iff, forall_eq']
    constructor
    · intro hlines hreturn
      obtain ⟨line, hline, hkept, hmem⟩ := exists_line_of_return h hreturn
      exact hlines line hline (hkept.symm ▸ hmem)
    · exact fun hreturn line hline hmem =>
        hreturn (Text.mem_of_mem_lines hline (Text.mem_of_mem_trimEnd hmem)).1

/-- The line that lists validators holds no line ending. -/
theorem notMem_listed {c : Char} (hc : c = '\n' ∨ c = '\r') (validators : List Validator) :
    c ∉ (Validator.listed validators).toList := by
  intro hmem
  rw [Validator.listed, String.toList_intercalate] at hmem
  rcases Text.mem_flatten_intersperse hmem with hcomma | ⟨shown, hshown, hmem⟩
  · rcases hc with rfl | rfl <;> exact absurd hcomma (by decide)
  · rw [List.map_map] at hshown
    obtain ⟨validator, -, rfl⟩ := List.mem_map.mp hshown
    rcases hc with rfl | rfl <;> cases validator <;> exact absurd hmem (by decide)

/-- The doc lines of a field hold a line ending exactly if those of its doc comment do. -/
theorem notMem_fieldDoc_iff {c : Char} (hc : c = '\n' ∨ c = '\r') (field : Field) :
    (∀ line ∈ fieldDoc field false, c ∉ line.toList) ↔
      ∀ line ∈ docLines field.doc? none, c ∉ line.toList := by
  have hvalidated : ∀ line ∈ (if field.validators.isEmpty then [] else
      ["Validated: " ++ Validator.listed field.validators]), c ∉ line.toList := by
    have hword : c ∉ "Validated: ".toList := by rcases hc with rfl | rfl <;> decide
    split
    · simp
    · rw [List.forall_mem_singleton, String.toList_append, List.mem_append, not_or]
      exact ⟨hword, notMem_listed hc field.validators⟩
  rw [fieldDoc, List.forall_mem_append, and_iff_left hvalidated]
  rfl

/-! ## Comments -/

/-- The lines of a module that are comments for doc comments. -/
def PythonPackage.Module.commentLines (module : PythonPackage.Module) : List String :=
  module.classes.flatMap fun model => model.attributes.flatMap fun member =>
    member.comment.map fun line => "    # " ++ line

/-- The lines of a module that are comments for doc comments. -/
def RustModules.Module.commentLines (module : RustModules.Module) : List String :=
  module.structs.flatMap fun struct =>
    RustModules.docComment "" struct.doc ++
      struct.fields.flatMap fun field => RustModules.docComment "    " field.doc

/-- The comments of a Python module are among its lines, in their order. -/
theorem PythonPackage.commentLines_sublist (module : PythonPackage.Module) :
    module.commentLines.Sublist module.lines := by
  have hclass : ∀ model : PythonPackage.Class,
      (model.attributes.flatMap
        fun member => member.comment.map fun line => "    # " ++ line).Sublist model.lines := by
    intro model
    have hattributes :
        (model.attributes.flatMap
          fun member => member.comment.map fun line => "    # " ++ line).Sublist
        (model.attributes.flatMap PythonPackage.Attribute.lines) :=
      .flatMap_right _ fun member _ => List.sublist_append_left _ _
    exact (hattributes.trans (List.sublist_append_right _ _)).trans (List.sublist_append_left _ _)
  refine (List.Sublist.flatMap_right _ fun model _ => ?_).trans (List.sublist_append_right _ _)
  exact ((hclass model).cons _).cons _

/-- The comments of a Rust module are among its lines, in their order. -/
theorem RustModules.commentLines_sublist (module : RustModules.Module) :
    module.commentLines.Sublist module.lines := by
  have hfields : ∀ struct : RustModules.Struct, (struct.fields.flatMap fun field =>
      RustModules.docComment "    " field.doc).Sublist
        (struct.fields.flatMap (RustModules.StructField.lines struct.name)) := fun struct =>
    .flatMap_right _ fun field _ => by
      rw [RustModules.StructField.lines, List.append_assoc]
      exact List.sublist_append_left _ _
  refine (List.Sublist.flatMap_right _ fun struct _ => ?_).trans (List.sublist_append_right _ _)
  refine List.Sublist.cons _ (List.Sublist.append (List.Sublist.refl _) (List.Sublist.cons _ ?_))
  split
  · next hempty => simp [List.isEmpty_iff.mp hempty]
  · rw [List.append_assoc, List.append_assoc]
    exact ((hfields struct).trans (List.sublist_append_left _ _)).trans
      (List.sublist_append_right _ _)

/-- A character that doc comment markers do not have is in doc comment lines exactly if it is in the
doc lines. -/
theorem RustModules.notMem_docComment_iff {c : Char} (hslash : c ≠ '/') (hspace : c ≠ ' ')
    {indent : String} (hindent : c ∉ indent.toList) (doc : List String) :
    (∀ line ∈ RustModules.docComment indent doc, c ∉ line.toList) ↔
      ∀ line ∈ doc, c ∉ line.toList := by
  rw [RustModules.docComment, List.forall_mem_map]
  refine forall₂_congr fun line _ => ?_
  split
  · next hempty => simp [hempty, hslash, hindent]
  · simp [hslash, hspace, hindent]

/-- What every type of a graph has, the types of all its namespaces have. -/
theorem forall_typesIn_iff {graph : TypeGraph} {p : TypeNode → Prop} :
    (∀ namespacePath ∈ graph.namespaces, ∀ type ∈ graph.typesIn namespacePath, p type) ↔
      ∀ type ∈ graph.types, p type :=
  ⟨fun h type htype => h _ (namespacePath_mem htype) type (mem_typesIn_iff.mpr ⟨htype, rfl⟩),
    fun h _ _ type htype => h type (mem_typesIn_iff.mp htype).1⟩

/-- A character that comment markers do not have is in the comments of a package exactly if it is in
the doc lines of a field. -/
theorem PythonPackage.notMem_comments_iff {c : Char} (hc : c = '\n' ∨ c = '\r')
    {options : NamingOptions} {graph : TypeGraph} {package : PythonPackage.Package}
    (h : PythonPackage.build options graph = .ok package) :
    (∀ line ∈ package.modules.flatMap PythonPackage.Module.commentLines, c ∉ line.toList) ↔
      ∀ type ∈ graph.types, ∀ field ∈ type.fields, ∀ line ∈ docLines field.doc? none, c ∉
        line.toList := by
  obtain ⟨-, names, -, rfl⟩ := PythonPackage.build_eq_ok h
  have hmarker : c ∉ "    # ".toList := by rcases hc with rfl | rfl <;> decide
  have hline : ∀ line : String, c ∉ ("    # " ++ line).toList ↔ c ∉ line.toList := fun line => by
    rw [String.toList_append, List.mem_append, not_or, and_iff_right hmarker]
  simp only [List.forall_mem_flatMap, List.forall_mem_map, PythonPackage.Module.commentLines,
    PythonPackage.moduleOf, PythonPackage.classOf, PythonPackage.attributeOf, hline]
  exact forall_typesIn_iff

/-- A character that comment markers do not have is in the comments of modules exactly if it is in
the doc lines of a type or a field. -/
theorem RustModules.notMem_comments_iff {c : Char} (hc : c = '\n' ∨ c = '\r')
    {options : NamingOptions} {graph : TypeGraph} {modules : List RustModules.Module}
    (h : RustModules.build options graph = .ok modules) :
    (∀ line ∈ modules.flatMap RustModules.Module.commentLines, c ∉ line.toList) ↔
      ∀ type ∈ graph.types, (∀ line ∈ docLines type.doc? none, c ∉ line.toList) ∧
        ∀ field ∈ type.fields, ∀ line ∈ docLines field.doc? none, c ∉ line.toList := by
  obtain ⟨-, names, -, rfl⟩ := RustModules.build_eq_ok h
  have hslash : c ≠ '/' := by rcases hc with rfl | rfl <;> decide
  have hspace : c ≠ ' ' := by rcases hc with rfl | rfl <;> decide
  have htype : c ∉ "".toList := List.not_mem_nil
  have hfield : c ∉ "    ".toList := by rcases hc with rfl | rfl <;> decide
  simp only [List.forall_mem_flatMap, List.forall_mem_append, List.forall_mem_map,
    RustModules.Module.commentLines, RustModules.moduleOf, RustModules.structOf,
    RustModules.structField, RustModules.notMem_docComment_iff hslash hspace htype,
    RustModules.notMem_docComment_iff hslash hspace hfield, notMem_fieldDoc_iff hc]
  exact forall_typesIn_iff

/-! ## Graphs of sources -/

/-- The doc comments of a graph of sources are trimmed. -/
theorem trimmed_of_graphOfSources {sources : List (String × String)} {graph : TypeGraph}
    (h : Project.graphOfSources sources = .ok graph) :
    ∀ type ∈ graph.types, Trimmed type.doc? ∧ ∀ field ∈ type.fields, Trimmed field.doc? := by
  obtain ⟨files, hbuild, hfiles⟩ := Project.files_of_graphOfSources h
  intro type htype
  obtain ⟨declaration, hdeclaration, hsame⟩ := Graph.exists_declaration_of_build hbuild htype
  obtain ⟨file, hfile, hdeclared⟩ := List.mem_flatMap.mp hdeclaration
  obtain ⟨source, -, hparse⟩ := Graph.exists_of_forall₂ hfiles hfile
  obtain ⟨hdoc, hfields⟩ := Schema.trimmed_of_parse hparse declaration hdeclared
  obtain ⟨fields, hperm, htranslates⟩ := hsame.fields
  refine ⟨hsame.doc_eq ▸ hdoc, fun field hfield => ?_⟩
  obtain ⟨declared, hmem, hsame⟩ := Graph.exists_of_forall₂ htranslates hfield
  exact hsame.doc_eq ▸ hfields declared (hperm.mem_iff.mp hmem)

/-- How comments come out: all of them are lines of the output, none holds a line feed, and one
holds a carriage return exactly if one of the doc comments does that are written. -/
structure CommentsHold (comments output : List String) (docs : List (Option String)) : Prop where
  written : comments.Sublist output
  singleLine : ∀ line ∈ comments, SingleLine line
  unbroken_iff : (∀ line ∈ comments, '\r' ∉ line.toList) ↔
    ∀ doc? ∈ docs, ∀ doc ∈ doc?, '\r' ∉ doc.toList

/-- The doc comments that come out as line comments in Python: those of fields. -/
def fieldDocs (graph : TypeGraph) : List (Option String) :=
  graph.types.flatMap fun type => type.fields.map Field.doc?

/-- The doc comments that come out as line comments in Rust: those of types and of fields. -/
def allDocs (graph : TypeGraph) : List (Option String) :=
  graph.types.flatMap fun type => type.doc? :: type.fields.map Field.doc?

/-- Whatever the doc comments of accepted sources hold, no line comment made of them holds a line
feed, and one holds a carriage return exactly if a doc comment does. -/
theorem commentsHold_of_graphOfSources {sources : List (String × String)} {graph : TypeGraph}
    (h : Project.graphOfSources sources = .ok graph) (options : NamingOptions) :
    (∀ package, PythonPackage.build options graph = .ok package →
      CommentsHold (package.modules.flatMap PythonPackage.Module.commentLines)
        (package.modules.flatMap PythonPackage.Module.lines) (fieldDocs graph)) ∧
    ∀ modules, RustModules.build options graph = .ok modules →
      CommentsHold (modules.flatMap RustModules.Module.commentLines)
        (modules.flatMap RustModules.Module.lines) (allDocs graph) := by
  have htrimmed := trimmed_of_graphOfSources h
  constructor
  · intro package hpackage
    refine ⟨.flatMap_right _ fun module _ => PythonPackage.commentLines_sublist module, ?_, ?_⟩
    · exact (PythonPackage.notMem_comments_iff (.inl rfl) hpackage).mpr
        fun type _ field _ line hline =>
        singleLine_docLines hline
    · rw [PythonPackage.notMem_comments_iff (.inr rfl) hpackage, fieldDocs]
      simp only [List.forall_mem_flatMap, List.forall_mem_map]
      exact forall₂_congr fun type htype => forall₂_congr fun field hfield =>
        return_notMem_docLines_iff ((htrimmed type htype).2 field hfield)
  · intro modules hmodules
    refine ⟨.flatMap_right _ fun module _ => RustModules.commentLines_sublist module, ?_, ?_⟩
    · exact (RustModules.notMem_comments_iff (.inl rfl) hmodules).mpr fun type _ =>
        ⟨fun line hline => singleLine_docLines hline,
          fun field _ line hline => singleLine_docLines hline⟩
    · rw [RustModules.notMem_comments_iff (.inr rfl) hmodules, allDocs]
      simp only [List.forall_mem_flatMap, List.forall_mem_cons, List.forall_mem_map]
      exact forall₂_congr fun type htype =>
        and_congr (return_notMem_docLines_iff (htrimmed type htype).1) <|
          forall₂_congr fun field hfield =>
            return_notMem_docLines_iff ((htrimmed type htype).2 field hfield)

/-! ## A broken comment -/

/-- A schema with a carriage return in the doc comment of its field. -/
def brokenDocText : String := "type A \x7b\n  /// a\rb\n  x: int\n\x7d\n"

/-- The type that it declares. -/
def brokenDocType : Schema.TypeDecl :=
  ⟨"A", "", [⟨"x", .named [] "int", false, none, [], some "a\rb", ⟨"a.ath", ⟨3, 3⟩⟩⟩],
    none, ⟨"a.ath", ⟨1, 1⟩⟩⟩

/-- The graph of the schema with a carriage return in a doc comment. -/
def brokenDocGraph : TypeGraph :=
  ⟨[⟨⟨"", "A"⟩,
    [⟨⟨⟨"", "A"⟩, "x"⟩, .primitive .int, false, none, [], some "a\rb", false, ⟨"a.ath", ⟨3, 3⟩⟩⟩],
    none, ⟨"a.ath", ⟨1, 1⟩⟩⟩]⟩

/-- The schema with a carriage return in a doc comment is accepted. -/
theorem graphOfSources_brokenDoc :
    Project.graphOfSources [("a.ath", brokenDocText)] = .ok brokenDocGraph := by
  have htokens : (Schema.lex brokenDocText.toList).tokens =
      [⟨⟨1, 1⟩, .name "type"⟩, ⟨⟨1, 6⟩, .name "A"⟩, ⟨⟨1, 8⟩, .symbol .leftBrace⟩,
        ⟨⟨2, 3⟩, .doc "a\rb"⟩, ⟨⟨3, 3⟩, .name "x"⟩, ⟨⟨3, 4⟩, .symbol .colon⟩,
      ⟨⟨3, 6⟩, .name "int"⟩, ⟨⟨4, 1⟩, .symbol .rightBrace⟩] := by cbv
  have hdoc : Schema.Grammar.Docs [⟨⟨2, 3⟩, .doc "a\rb"⟩] ["a\rb"] := .cons _ _ .nil
  have htype : Schema.Grammar.Reference [⟨⟨3, 6⟩, .name "int"⟩] (.named [] "int") :=
    .named (.mk _ _ .nil)
  have hfield : Schema.Grammar.Field "a.ath" [⟨⟨2, 3⟩, .doc "a\rb"⟩, ⟨⟨3, 3⟩, .name "x"⟩,
        ⟨⟨3, 4⟩, .symbol .colon⟩,
      ⟨⟨3, 6⟩, .name "int"⟩] ⟨"x", .named [] "int", false, none, [], some "a\rb",
      ⟨"a.ath", ⟨3, 3⟩⟩⟩ := by
    simpa [Schema.joinDocs] using
      @Schema.Grammar.Field.mk "a.ath" ⟨3, 3⟩ ⟨3, 4⟩ "x" _ _ _ _ _ _ _ _ _ _ hdoc htype
      .absent .absent .nil .nil
  have hdeclaration : Schema.Grammar.Declaration "a.ath" "" (Schema.lex brokenDocText.toList).tokens
      brokenDocType := by
    rw [htokens]
    exact .mk ⟨1, 1⟩ ⟨1, 6⟩ ⟨1, 8⟩ ⟨4, 1⟩ "A" .nil (fun kind => by cases kind <;> decide)
      (.fields (.last hfield))
  have hparse : Schema.parse "a.ath" brokenDocText = .ok ⟨"a.ath", "", [brokenDocType]⟩ := by
    refine Schema.parse_of_derived (by cbv) ?_
    simpa using @Schema.Grammar.File.mk "a.ath" [] _ [] [] none _ .absent
      (.cons hdeclaration .nil) .nil
  have hbuild : Graph.build [⟨"a.ath", "", [brokenDocType]⟩] = .ok brokenDocGraph := by cbv
  exact Project.graphOfSources_singleton hparse hbuild

/-- In both languages, the comment of its field is the only one. -/
theorem build_brokenDoc :
    (∃ package, PythonPackage.build .none brokenDocGraph = .ok package ∧
      package.modules.flatMap PythonPackage.Module.commentLines = ["    # a\rb"]) ∧
    ∃ modules, RustModules.build .none brokenDocGraph = .ok modules ∧
      modules.flatMap RustModules.Module.commentLines = ["    /// a\rb"] := by
  have hpython : ((PythonPackage.build .none brokenDocGraph).toOption.map fun package =>
      package.modules.flatMap PythonPackage.Module.commentLines) =
        some ["    # a\rb"] := by decide +kernel
  have hrust : ((RustModules.build .none brokenDocGraph).toOption.map fun modules =>
      modules.flatMap RustModules.Module.commentLines) = some ["    /// a\rb"] := by decide +kernel
  obtain ⟨package, hpackage, hcomments⟩ := Option.map_eq_some_iff.mp hpython
  obtain ⟨modules, hmodules, hlines⟩ := Option.map_eq_some_iff.mp hrust
  exact ⟨⟨package, eq_ok_of_toOption hpackage, hcomments⟩, modules,
    eq_ok_of_toOption hmodules, hlines⟩

/-- What holds of the comments of accepted sources holds of those made of a doc comment with a
carriage return, in both languages. -/
theorem commentsHold_brokenDoc :
    ∃ graph, Project.graphOfSources [("a.ath", brokenDocText)] = .ok graph ∧
    (∃ package, PythonPackage.build .none graph = .ok package ∧
      CommentsHold (package.modules.flatMap PythonPackage.Module.commentLines)
        (package.modules.flatMap PythonPackage.Module.lines) (fieldDocs graph)) ∧
    ∃ modules, RustModules.build .none graph = .ok modules ∧
      CommentsHold (modules.flatMap RustModules.Module.commentLines)
        (modules.flatMap RustModules.Module.lines) (allDocs graph) := by
  obtain ⟨hpython, hrust⟩ := commentsHold_of_graphOfSources graphOfSources_brokenDoc .none
  obtain ⟨⟨package, hpackage, -⟩, modules, hmodules, -⟩ := build_brokenDoc
  exact ⟨_, graphOfSources_brokenDoc, ⟨package, hpackage, hpython package hpackage⟩,
    modules, hmodules, hrust modules hmodules⟩

/-- The comment made of a doc comment with a carriage return holds it, in Python and in Rust. -/
theorem exists_broken_comment :
    ∃ graph, Project.graphOfSources [("a.ath", brokenDocText)] = .ok graph ∧
    (∃ package, PythonPackage.build .none graph = .ok package ∧
      ∃ line ∈ package.modules.flatMap PythonPackage.Module.commentLines, '\r' ∈ line.toList) ∧
    ∃ modules, RustModules.build .none graph = .ok modules ∧
      ∃ line ∈ modules.flatMap RustModules.Module.commentLines, '\r' ∈ line.toList := by
  obtain ⟨⟨package, hpackage, hcomments⟩, modules, hmodules, hlines⟩ := build_brokenDoc
  refine ⟨brokenDocGraph, graphOfSources_brokenDoc,
    ⟨package, hpackage, "    # a\rb", ?_, by decide⟩, modules, hmodules,
    "    /// a\rb", ?_, by decide⟩
  · rw [hcomments, List.mem_singleton]
  · rw [hlines, List.mem_singleton]

end SchemaBindings.Bindings
