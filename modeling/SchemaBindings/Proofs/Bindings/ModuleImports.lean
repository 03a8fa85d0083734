import SchemaBindings.Proofs.Bindings.FileNames
import SchemaBindings.Proofs.Bindings.PythonNames

/-!
# What modules import

A Python or TypeScript module imports exactly what its statements use. Of the names of libraries it
imports those that are written in them. Of the other modules it imports those of the namespaces that
it refers to, and for each of them a reference to one of its types is written; the only fields of
which the type is not written are checked to be URLs, and those hold texts.
-/

namespace SchemaBindings.Bindings

open SchemaBindings.Bindings.Code (Joins HasPaths Opens Statement scans_of_hasPaths)
open SchemaBindings.Graph (Checks Field FieldType TypeId TypeNode)
open SchemaBindings.Naming (IsWord isWord_apply isWord_of_isIdentifier moduleStem)
open SchemaBindings.Schema (IsIdentifier IsNamespace isNamePart isNamePart_iff isNameStart
  isDigit_of_isNameStart startsWithDigit)
open SchemaBindings.Text

/-! ## Spelled names -/

/-- Escaping keeps a word a word. -/
theorem isWord_escape {name : String} (h : IsWord name) (reserved : List String) :
    IsWord (escape reserved name) := by
  refine ⟨?_, isNamePart_of_mem_escape h.2⟩
  unfold escape
  split
  · simp
  · exact h.1

/-- The stem of a namespace is an identifier. -/
theorem isIdentifier_moduleStem {namespacePath : String} (h : IsNamespace namespacePath) :
    IsIdentifier (moduleStem namespacePath) := by
  have hparts : ∀ c ∈ (moduleStem namespacePath).toList, isNamePart c = true :=
    fun c hc => (spelled_of_isNamespace h).isNamePart_of_mem hc
  obtain ⟨segments, hsegments, rfl⟩ := h
  cases segments with
  | nil => decide
  | cons segment rest =>
    obtain ⟨first, more, hsegment, hfirst, -⟩ := hsegments segment List.mem_cons_self
    have hdotted : ∃ behind, (Schema.dotted (segment :: rest)).toList = first :: behind := by
      rw [Schema.dotted, String.toList_intercalate, List.map_cons, hsegment]
      cases rest with
      | nil => exact ⟨more, by simp⟩
      | cons next rest =>
        exact ⟨_, by rw [List.map_cons, List.intercalate_cons_cons, List.cons_append,
          List.cons_append]⟩
    obtain ⟨behind, hbehind⟩ := hdotted
    have hne : Schema.dotted (segment :: rest) ≠ "" := by
      intro hempty
      simp [hempty] at hbehind
    have hdot : first ≠ '.' := by
      rintro rfl
      exact absurd hfirst (by decide)
    have hstem : (moduleStem (Schema.dotted (segment :: rest))).toList =
        first :: behind.map fun c => if c = '.' then '_' else c := by
      rw [moduleStem, if_neg hne, String.toList_ofList, hbehind, List.map_cons, if_neg hdot]
    rw [hstem, List.forall_mem_cons] at hparts
    exact ⟨first, _, hstem, hfirst, hparts.2⟩

/-- What other modules call the module of a namespace is a word and does not start with a digit. -/
theorem isWord_escapedStem {namespacePath : String} (h : IsNamespace namespacePath)
    (reserved : List String) :
    IsWord (escape reserved (moduleStem namespacePath)) ∧
      startsWithDigit (escape reserved (moduleStem namespacePath)).toList = false := by
  have hidentifier := isIdentifier_moduleStem h
  refine ⟨isWord_escape (isWord_of_isIdentifier hidentifier) reserved, ?_⟩
  obtain ⟨first, rest, hstem, hfirst, -⟩ := hidentifier
  have hstart : ∃ behind, (escape reserved (moduleStem namespacePath)).toList =
      first :: behind := by
    unfold escape
    split
    · exact ⟨rest ++ "_".toList, by rw [String.toList_append, hstem, List.cons_append]⟩
    · exact ⟨rest, hstem⟩
  obtain ⟨behind, hbehind⟩ := hstart
  rw [hbehind]
  exact isDigit_of_isNameStart hfirst

/-! ## References to other modules -/

/-- Whether the references in some statements of a module are those to other namespaces: to each of
these, and to no other, a reference is written, with the name of one of its types. -/
structure ModuleScope.Referenced (scope : ModuleScope) (graph : TypeGraph) (namespacePath : String)
    (statements : List Statement) : Prop where
  used : ∀ foreign ∈ graph.foreignNamespaces namespacePath, ∃ statement ∈ statements,
    ∃ type ∈ graph.typesIn foreign, statement.reference? =
      some (scope.qualifier foreign, scope.typeName type)
  imported : ∀ statement ∈ statements, ∀ reference, statement.reference? = some reference →
    ∃ foreign ∈ graph.foreignNamespaces namespacePath, ∃ type ∈ graph.typesIn foreign,
      reference = (scope.qualifier foreign, scope.typeName type)

/-- The references in some statements of a module are those to other namespaces if references are
written exactly for the targets of fields that are of other namespaces. -/
theorem ModuleScope.referenced_of_targets {scope : ModuleScope} {graph : TypeGraph}
    (hlinked : graph.Linked) {name : TypeId → String}
    (hname : ∀ type ∈ graph.types, name type.id = scope.typeName type) {namespacePath : String}
    {statements : List Statement}
    (h : ∀ reference, (∃ statement ∈ statements, statement.reference? = some reference) ↔
      ∃ type ∈ graph.typesIn namespacePath, ∃ field ∈ type.fields,
        scope.targetReference? namespacePath name field.type = some reference) :
    scope.Referenced graph namespacePath statements := by
  constructor
  · intro foreign hforeign
    obtain ⟨hne, type, htype, field, hfield, target, htarget, rfl⟩ :=
      mem_foreignNamespaces_iff.mp hforeign
    obtain ⟨other, hother, rfl⟩ := List.mem_map.mp
      (hlinked.target_mem type (mem_typesIn_iff.mp htype).1 field hfield target htarget)
    have hreference : scope.targetReference? namespacePath name field.type =
        some (scope.qualifier other.id.namespacePath, scope.typeName other) := by
      rw [targetReference?, htarget, Option.filter_some, if_pos (by simpa using hne),
        Option.map_some, hname other hother]
    obtain ⟨statement, hstatement, hwritten⟩ := (h _).mpr ⟨type, htype, field, hfield, hreference⟩
    exact ⟨statement, hstatement, other, mem_typesIn_iff.mpr ⟨hother, rfl⟩, hwritten⟩
  · intro statement hstatement reference hreference
    obtain ⟨type, htype, field, hfield, htarget⟩ :=
      (h reference).mp ⟨statement, hstatement, hreference⟩
    obtain ⟨other, hother, -, hforeign, heq⟩ :=
      writtenFor_of_target hlinked htype hfield hname (fun _ => id) reference htarget
    exact ⟨_, hforeign, other, mem_typesIn_iff.mpr ⟨hother, rfl⟩, heq⟩

/-- Where names are spelled as in schemas, no qualifier of a reference to a target starts with a
digit. -/
theorem ModuleScope.startsWithDigit_of_target {scope : ModuleScope} {graph : TypeGraph}
    (hlinked : graph.Linked) (hspelled : Graph.NamesSpelled graph) {type : TypeNode}
    (htype : type ∈ graph.types) {field : Field} (hfield : field ∈ type.fields)
    {namespacePath : String} {name : TypeId → String} {reference : String × String}
    (h : scope.targetReference? namespacePath name field.type = some reference) :
    startsWithDigit reference.1.toList = false := by
  obtain ⟨id, hid, rfl⟩ := Option.map_eq_some_iff.mp h
  obtain ⟨htarget, -⟩ := Option.filter_eq_some_iff.mp hid
  obtain ⟨target, hmem, rfl⟩ :=
    List.mem_map.mp (hlinked.target_mem type htype field hfield id htarget)
  exact (isWord_escapedStem (hspelled.namespacePath target hmem) _).2

/-! ## Python modules -/

namespace PythonPackage

/-- Whether a module imports exactly what its statements use: the names of libraries that are
written in them, besides the base class, and the modules of the namespaces that they refer to. No
other line starts like an import. -/
structure Module.ImportsUsed (options : NamingOptions) (graph : TypeGraph) (namespacePath : String)
    (module : Module) : Prop where
  written : (module.statements.map Statement.line).Sublist module.lines
  lines_eq : linesStarting "from " module.lines = ["from __future__ import annotations"] ++
    (if module.typingImports.isEmpty then []
      else ["from typing import " ++ commaList (module.typingImports.map TypingName.text)]) ++
    ["from pydantic import " ++ commaList (module.pydanticImports.map PydanticName.text)] ++
    (graph.foreignNamespaces namespacePath).map fun foreign => "from . import " ++ stemOf foreign
  typing_nodup : module.typingImports.Nodup
  typing_iff : ∀ name, name ∈ module.typingImports ↔
    ∃ statement ∈ module.statements, name.text ∈ statement.words
  pydantic_nodup : module.pydanticImports.Nodup
  pydantic_iff : ∀ name, name ∈ module.pydanticImports ↔
    name = .baseModel ∨ ∃ statement ∈ module.statements, name.text ∈ statement.words
  referenced : (scope options).Referenced graph namespacePath module.statements

/-- The lines of a class are empty or start with a blank, apart from the first one. -/
theorem firstChar?_of_mem_classLines {model : Class} {line : String} (h : line ∈ model.lines) :
    firstChar? line ∈ [none, some ' ', some 'c'] := by
  have hblank (h : firstChar? line = none ∨ firstChar? line = some ' ') : firstChar? line ∈
      [none, some ' ', some 'c'] := by
    rcases h with h | h <;> simp [h]
  simp only [Class.lines, List.cons_append, List.mem_cons, List.mem_append, or_assoc] at h
  rcases h with rfl | h | h | h | h
  · simp only [String.append_assoc]
    rw [firstChar?_append (c := 'c') rfl]
    decide
  · split at h
    · exact absurd h List.not_mem_nil
    · rcases List.mem_append.mp h with h | h
      · exact hblank (firstChar?_of_mem_docstring h)
      · split at h
        · exact absurd h List.not_mem_nil
        · obtain rfl := List.mem_singleton.mp h
          decide
  · split at h
    · rcases List.mem_pair.mp h with rfl | rfl <;> decide
    · exact absurd h List.not_mem_nil
  · obtain ⟨member, -, hmember⟩ := List.mem_flatMap.mp h
    exact hblank (.inr (firstChar?_of_mem_attributeLines hmember))
  · split at h
    · obtain rfl := List.mem_singleton.mp h
      decide
    · exact absurd h List.not_mem_nil

/-- The lines of a module that start like an import. -/
theorem linesStarting_from (module : Module) :
    linesStarting "from " module.lines = ["from __future__ import annotations"] ++
    (if module.typingImports.isEmpty then []
      else ["from typing import " ++ commaList (module.typingImports.map TypingName.text)]) ++
    ["from pydantic import " ++ commaList (module.pydanticImports.map PydanticName.text)] ++
    module.siblings.map fun stem => "from . import " ++ stem := by
  have hhead : linesStarting "from " ["# " ++ banner, "",
        "from __future__ import annotations", ""] =
      ["from __future__ import annotations"] := by decide
  have hempty : linesStarting "from " [""] = [] := by decide
  have hall {text : String} (h : "from ".toList <+: text.toList) (rests : List String) :
      linesStarting "from " (rests.map fun rest => text ++ rest) =
        rests.map fun rest => text ++ rest :=
    linesStarting_eq_self fun line hline => by
      obtain ⟨rest, -, rfl⟩ := List.mem_map.mp hline
      exact prefix_toList_append h rest
  have hline {text : String} (h : "from ".toList <+: text.toList) (rest : String) :
      linesStarting "from " [text ++ rest] = [text ++ rest] := hall h [rest]
  have htyping : linesStarting "from " (if module.typingImports.isEmpty then []
      else ["from typing import " ++ commaList (module.typingImports.map TypingName.text), ""]) =
      if module.typingImports.isEmpty then []
      else ["from typing import " ++ commaList (module.typingImports.map TypingName.text)] := by
    split
    · rfl
    · rw [linesStarting_cons, hline (by decide), hempty, List.append_nil]
  have hsiblings : linesStarting "from " (if module.siblings.isEmpty then []
      else "" :: module.siblings.map fun stem => "from . import " ++ stem) =
      module.siblings.map fun stem => "from . import " ++ stem := by
    split
    · next hnone =>
      rw [List.isEmpty_iff.mp hnone]
      rfl
    · rw [linesStarting_cons, hempty, hall (by decide), List.nil_append]
  have hclasses :
      linesStarting "from " (module.classes.flatMap fun model => "" :: "" :: model.lines) = [] := by
    refine linesStarting_eq_nil (c := 'f') rfl fun line hline => ?_
    obtain ⟨model, -, hmem⟩ := List.mem_flatMap.mp hline
    rcases List.mem_cons.mp hmem with rfl | hmem
    · decide
    rcases List.mem_cons.mp hmem with rfl | hmem
    · decide
    intro hfirst
    have hother := firstChar?_of_mem_classLines hmem
    rw [hfirst] at hother
    exact absurd hother (by decide)
  rw [Module.lines, linesStarting_append, linesStarting_append, linesStarting_append,
    linesStarting_append, hhead, htyping, hline (by decide), hsiblings, hclasses, List.append_nil]

/-- The words of a hint for a type that are made of names of the schema are the name of the target
and what its module is called. -/
theorem mem_given_typeHint {names : NameTable} {namespacePath : String} {type : FieldType}
    {word : String} (h : word ∈ (typeHint names namespacePath type).given) :
    ∃ id, type.target? = some id ∧ (word = names.type id ∨ word = stemOf id.namespacePath) := by
  induction type with
  | primitive kind => cases kind <;> exact absurd h List.not_mem_nil
  | named id =>
    refine ⟨id, rfl, ?_⟩
    by_cases hsame : id.namespacePath = namespacePath
    · rw [typeHint, if_pos hsame] at h
      exact .inl (List.mem_singleton.mp h)
    · rw [typeHint, if_neg hsame] at h
      exact (List.mem_pair.mp h).symm
  | list element ih => exact ih h

/-- The words of the hint for a field that are made of names of the schema are the name of the
target and what its module is called. -/
theorem mem_given_fieldHint {names : NameTable} {namespacePath : String} {field : Field}
    {word : String} (h : word ∈ (fieldHint names namespacePath field).given) :
    ∃ id, field.type.target? = some id ∧
      (word = names.type id ∨ word = stemOf id.namespacePath) := by
  have htype : word ∈ (typeHint names namespacePath field.type).given := by
    unfold fieldHint at h
    dsimp only at h
    split at h <;> split at h <;> split at h <;> first | exact h | exact absurd h List.not_mem_nil
  exact mem_given_typeHint htype

/-- In a built graph, the reference that is written for a field is that to its target, if it is of
another namespace. -/
theorem reference?_fieldHint_of_suits {field : Field} {owner : TypeId} (h : field.Suits owner)
    (options : NamingOptions) (names : NameTable) (namespacePath : String) :
    (fieldHint names namespacePath field).reference? =
      (scope options).targetReference? namespacePath names.type field.type := by
  rw [reference?_fieldHint, reference?_typeHint options]
  split
  · next hurl =>
    have hchecks := h.validators_fit _ hurl
    generalize field.type = type at hchecks
    cases hchecks
    rfl
  · rfl

/-- The statements of the module of a namespace are those of its fields, besides configurations. -/
theorem cases_of_mem_statements {names : NameTable} {graph : TypeGraph} {namespacePath : String}
    {statement : Statement} (h : statement ∈ (moduleOf names graph namespacePath).statements) :
    statement = configStatement ∨ ∃ type ∈ graph.typesIn namespacePath, ∃ field ∈ type.fields,
      statement = (attributeOf names type.id.namespacePath field).statement := by
  obtain ⟨model, hmodel, hmem⟩ := List.mem_flatMap.mp h
  obtain ⟨type, htype, rfl⟩ := List.mem_map.mp hmodel
  rcases List.mem_append.mp hmem with hmem | hmem
  · obtain ⟨-, hconfig⟩ := List.mem_ite_nil_right.mp hmem
    exact .inl (List.mem_singleton.mp hconfig)
  · obtain ⟨member, hmember, rfl⟩ := List.mem_map.mp hmem
    obtain ⟨field, hfield, rfl⟩ := List.mem_map.mp hmember
    exact .inr ⟨type, htype, field, hfield, rfl⟩

/-- The references in the statements of a module are those to targets of other namespaces. -/
theorem exists_reference_iff {files : List Schema.SchemaFile} {graph : TypeGraph}
    (hbuild : Graph.build files = .ok graph) (options : NamingOptions) (names : NameTable)
    (namespacePath : String) (reference : String × String) :
    (∃ statement ∈ (moduleOf names graph namespacePath).statements, statement.reference? =
      some reference) ↔
      ∃ type ∈ graph.typesIn namespacePath, ∃ field ∈ type.fields,
        (scope options).targetReference? namespacePath names.type field.type = some reference := by
  have hwritten {type : TypeNode} (htype : type ∈ graph.typesIn namespacePath) {field : Field}
      (hfield : field ∈ type.fields) :
      (attributeOf names type.id.namespacePath field).statement.reference? =
        (scope options).targetReference? namespacePath names.type field.type := by
    obtain ⟨hmem, rfl⟩ := mem_typesIn_iff.mp htype
    exact reference?_fieldHint_of_suits (Graph.suits_of_build hbuild hmem hfield) options names _
  constructor
  · intro h
    obtain ⟨statement, hstatement, hreference⟩ := h
    obtain rfl | ⟨type, htype, field, hfield, rfl⟩ := cases_of_mem_statements hstatement
    · contradiction
    · exact ⟨type, htype, field, hfield, (hwritten htype hfield).symm.trans hreference⟩
  · intro h
    obtain ⟨type, htype, field, hfield, htarget⟩ := h
    have hmember : (attributeOf names type.id.namespacePath field).statement ∈
        (classOf names type).statements :=
      List.mem_append_right _ (List.mem_map_of_mem (List.mem_map_of_mem hfield))
    exact ⟨_, List.mem_flatMap_of_mem (List.mem_map_of_mem htype) hmember,
      (hwritten htype hfield).trans htarget⟩

section Built

variable {files : List Schema.SchemaFile} {graph : TypeGraph}
  (hbuild : Graph.build files = .ok graph) {options : NamingOptions} {names : NameTable}
  (hnames : namesOf options graph = .ok names)

include hbuild hnames

/-- What holds of all classes, modules and attributes holds of the words of each attribute that are
made of names of the schema. -/
theorem forall_given_attributeOf {P : String → Prop}
    (hclass : ∀ type ∈ graph.types, P (className options type))
    (hstem : ∀ type ∈ graph.types, P (stemOf type.id.namespacePath))
    (hattribute : ∀ type ∈ graph.types, ∀ field ∈ type.fields, P (attributeName options field))
    {type : TypeNode} (htype : type ∈ graph.types) {field : Field} (hfield : field ∈ type.fields)
    (namespacePath : String) :
    P (attributeOf names namespacePath field).name ∧
      ∀ word ∈ (attributeOf names namespacePath field).hint.given, P word := by
  have hlinked := Graph.linked_of_build hbuild
  constructor
  · have hname : (attributeOf names namespacePath field).name = attributeName options field :=
      nameTable_field_eq (Graph.fieldIds_nodup_of_build hbuild) hnames htype hfield
    rw [hname]
    exact hattribute type htype field hfield
  · intro word hword
    obtain ⟨id, htarget, hword⟩ := mem_given_fieldHint hword
    obtain ⟨target, hmem, rfl⟩ :=
      List.mem_map.mp (hlinked.target_mem type htype field hfield id htarget)
    rcases hword with rfl | rfl
    · rw [nameTable_type_eq hlinked.distinct hnames hmem]
      exact hclass target hmem
    · exact hstem target hmem

/-- No attribute is written like a name of a library. -/
theorem unreserved_attributeOf {type : TypeNode} (htype : type ∈ graph.types) {field : Field}
    (hfield : field ∈ type.fields) (namespacePath : String) :
    (attributeOf names namespacePath field).Unreserved := by
  have hescape (name : String) : escape reserved name ∉ reserved :=
    escape_not_mem layout.suffixed_not_reserved name
  obtain ⟨hname, hgiven⟩ := forall_given_attributeOf hbuild hnames (P := (· ∉ reserved))
    (fun _ _ => hescape _)
    (fun _ _ => hescape _) (fun _ _ _ _ => hescape _) htype hfield namespacePath
  exact ⟨hname, hgiven⟩

/-- If the names of the graph are spelled as in schemas, the words of an attribute are words. -/
theorem spelled_attributeOf (hspelled : Graph.NamesSpelled graph) {type : TypeNode}
    (htype : type ∈ graph.types) {field : Field} (hfield : field ∈ type.fields)
    (namespacePath : String) :
    (attributeOf names namespacePath field).Spelled := by
  obtain ⟨hname, hgiven⟩ := forall_given_attributeOf hbuild hnames (P := IsWord)
    (fun type htype => isWord_escape (isWord_apply _ (hspelled.type type htype)) _)
    (fun type htype => (isWord_escapedStem (hspelled.namespacePath type htype) _).1)
    (fun type htype field hfield => isWord_escape
      (isWord_apply _ (hspelled.field type htype field hfield)) _)
    htype hfield namespacePath
  refine ⟨hname, hgiven, fun reference hreference => ?_⟩
  have hwritten :=
    reference?_fieldHint_of_suits (Graph.suits_of_build hbuild htype hfield)
      options names namespacePath
  exact ModuleScope.startsWithDigit_of_target (Graph.linked_of_build hbuild) hspelled htype hfield
    (hwritten.symm.trans hreference)

/-- The module of a namespace imports what its statements use. -/
theorem importsUsed_moduleOf (namespacePath : String) :
    (moduleOf names graph namespacePath).ImportsUsed options graph namespacePath := by
  have hlinked := Graph.linked_of_build hbuild
  have hunreserved : ∀ model ∈ (moduleOf names graph namespacePath).classes,
      ∀ member ∈ model.attributes, member.Unreserved := by
    intro model hmodel member hmember
    obtain ⟨type, htype, rfl⟩ := List.mem_map.mp hmodel
    obtain ⟨field, hfield, rfl⟩ := List.mem_map.mp hmember
    exact unreserved_attributeOf hbuild hnames (mem_typesIn_iff.mp htype).1 hfield _
  refine ⟨statements_sublist_lines _, ?_, .filter _ (by decide), mem_typingImports_iff hunreserved,
    .filter _ (by decide), mem_pydanticImports_iff hunreserved, ?_⟩
  · rw [linesStarting_from, moduleOf, List.map_map]
    rfl
  · exact ModuleScope.referenced_of_targets hlinked
      (fun type htype => nameTable_type_eq hlinked.distinct hnames htype)
      (exists_reference_iff hbuild options names namespacePath)

/-- If the names of the graph are spelled as in schemas, scanning the statements of a module finds
what they are written with. -/
theorem scans_moduleOf (hspelled : Graph.NamesSpelled graph) (namespacePath : String) :
    ∀ statement ∈ (moduleOf names graph namespacePath).statements, statement.Scans := by
  intro statement hstatement
  obtain rfl | ⟨type, htype, field, hfield, rfl⟩ := cases_of_mem_statements hstatement
  · exact scans_configStatement
  · exact Attribute.scans
      (spelled_attributeOf hbuild hnames hspelled (mem_typesIn_iff.mp htype).1 hfield _)

end Built

end PythonPackage

/-! ## TypeScript modules -/

namespace TypeScriptModules

/-- The names in a type. An interface is one word, or a word behind the alias of its module. -/
def TsType.paths : TsType → List (List String)
  | .number => [["number"]]
  | .boolean => [["boolean"]]
  | .string => [["string"]]
  | .unknown => [["unknown"]]
  | .interface none name => [[name]]
  | .interface (some outer) name => [[outer, name]]
  | .array element => element.paths

/-- The words in a type that are made of names of the schema. -/
def TsType.given : TsType → List String
  | .interface none name => [name]
  | .interface (some outer) name => [outer, name]
  | .array element => element.given
  | _ => []

/-- If these are words, a type has its names. -/
theorem TsType.hasPaths {type : TsType} (h : ∀ word ∈ type.given, IsWord word) :
    HasPaths type.text.toList type.paths := by
  induction type with
  | number => exact .word (show IsWord "number" by decide)
  | boolean => exact .word (show IsWord "boolean" by decide)
  | string => exact .word (show IsWord "string" by decide)
  | unknown => exact .word (show IsWord "unknown" by decide)
  | interface alias? name =>
    cases alias? with
    | none => exact .word (h name List.mem_cons_self)
    | some outer =>
      change HasPaths (outer ++ "." ++ name).toList [[outer, name]]
      rw [String.toList_append, String.toList_append, List.append_assoc]
      exact .qualified (h outer List.mem_cons_self)
        (h name (List.mem_cons_of_mem _ List.mem_cons_self))
  | array element ih =>
    change HasPaths (element.text ++ "[]").toList element.paths
    rw [String.toList_append, ← List.append_nil element.paths]
    exact (ih h).closed (by decide)

/-- If no alias starts with a digit, the references in a type are the one to an interface of another
module, if it has one. -/
theorem TsType.filterMap_paths {type : TsType}
    (h : ∀ reference, type.reference? = some reference →
      startsWithDigit reference.1.toList = false) :
    type.paths.filterMap Code.reference? = type.reference?.toList := by
  induction type with
  | number => rfl
  | boolean => rfl
  | string => rfl
  | unknown => rfl
  | interface alias? name =>
    cases alias? with
    | none => rfl
    | some outer => simp [paths, Code.reference?, reference?, h (outer, name) rfl]
  | array element ih => exact ih h

/-- The line that declares a member. -/
def Member.line (member : Member) : String :=
  "  " ++ member.name ++ (if member.optional then "?" else "") ++ ": " ++ member.type.text ++ ";"

/-- The statement that declares a member. -/
def Member.statement (member : Member) : Statement :=
  ⟨member.line, [member.name] :: member.type.paths, member.type.reference?⟩

/-- The statements of a module. -/
def Module.statements (module : Module) : List Statement :=
  module.interfaces.flatMap fun interface => interface.members.map Member.statement

/-- Whether the words of a member that are made of names of the schema are words, and no alias
starts with a digit. -/
structure Member.Spelled (member : Member) : Prop where
  name : IsWord member.name
  given : ∀ word ∈ member.type.given, IsWord word
  module : ∀ reference, member.type.reference? = some reference →
    startsWithDigit reference.1.toList = false

/-- If names are spelled as in schemas, scanning the statement of a member finds what it is written
with. -/
theorem Member.scans {member : Member} (h : member.Spelled) : member.statement.Scans := by
  refine scans_of_hasPaths ?_ (TsType.filterMap_paths h.module)
  have htype := (TsType.hasPaths h.given).closed (show Joins ";" [] by decide)
  have hindent : Opens "  " [] := by decide
  change HasPaths member.line.toList ([] ++ ([[member.name]] ++ ([] ++ member.type.paths)))
  unfold line
  cases member.optional with
  | false =>
    have hpaths :=
      HasPaths.opened hindent ((HasPaths.word h.name).joined (show Joins ": " [] by decide) htype)
    simpa only [Bool.false_eq_true, if_false, String.append_empty, String.toList_append,
      List.append_assoc, List.append_nil] using hpaths
  | true =>
    have hpaths :=
      HasPaths.opened hindent ((HasPaths.word h.name).joined (show Joins "?: " [] by decide) htype)
    have hmark : "?: ".toList = "?".toList ++ ": ".toList := by decide
    rw [hmark] at hpaths
    simpa only [if_true, String.toList_append, List.append_assoc, List.append_nil] using hpaths

/-- Whether a module imports exactly the modules of the namespaces that its statements refer to,
each under its alias. No other line starts like an import. -/
structure Module.ImportsUsed (options : NamingOptions) (graph : TypeGraph) (namespacePath : String)
    (module : Module) : Prop where
  written : (module.statements.map Statement.line).Sublist module.lines
  lines_eq : linesStarting "import " module.lines =
    (graph.foreignNamespaces namespacePath).map fun foreign =>
      "import type * as " ++ aliasOf foreign ++ " from \"./" ++ moduleStem foreign ++ "\";"
  referenced : (scope options).Referenced graph namespacePath module.statements

/-- The statements of a module stand among its lines, in their order. -/
theorem statements_sublist_lines (module : Module) :
    (module.statements.map Statement.line).Sublist module.lines := by
  have hmember (member : Member) : [member.line].Sublist member.lines :=
    List.sublist_append_right _ _
  have hinterface (interface : Interface) : (interface.members.map Member.line).Sublist
      interface.lines := by
    rw [Interface.lines, List.map_eq_flatMap]
    refine .trans ?_ (List.sublist_append_left _ _)
    refine .trans (.cons _ ?_) (List.sublist_append_right _ _)
    exact .flatMap_right _ fun member _ => hmember member
  have hall (interfaces : List Interface) :
      (interfaces.flatMap fun interface => interface.members.map Member.line).Sublist
      (List.flatten (List.intersperse [""] (interfaces.map Interface.lines))) := by
    induction interfaces with
    | nil => exact .refl _
    | cons interface rest ih =>
      cases rest with
      | nil => simpa using hinterface interface
      | cons next rest =>
        rw [List.map_cons, List.map_cons, List.intersperse_cons_cons, List.flatten_cons,
          List.flatten_cons, List.flatMap_cons]
        exact (hinterface interface).append (.trans ih (List.sublist_append_right _ _))
  rw [Module.statements, List.map_flatMap, Module.lines]
  simp only [List.map_map]
  exact (hall module.interfaces).trans (List.sublist_append_right _ _)

/-- No line of an interface starts like an import. -/
theorem firstChar?_of_mem_interfaceLines {interface : Interface} {line : String}
    (h : line ∈ interface.lines) :
    firstChar? line ∈ [some '/', some ' ', some 'e', some '\x7d'] := by
  have hcomment {line : String} (h : firstChar? line = some '/' ∨ firstChar? line = some ' ') :
      firstChar? line ∈ [some '/', some ' ', some 'e', some '\x7d'] := by
    rcases h with h | h <;> simp [h]
  simp only [Interface.lines, List.mem_append, List.mem_cons, List.mem_flatMap, or_assoc] at h
  rcases h with h | rfl | h | rfl | h
  · exact hcomment (CHeader.firstChar?_of_mem_blockComment (.inl rfl) h)
  · simp only [String.append_assoc]
    rw [firstChar?_append (c := 'e') rfl]
    decide
  · obtain ⟨member, -, hmember⟩ := h
    rcases List.mem_append.mp hmember with hmember | hmember
    · exact hcomment (CHeader.firstChar?_of_mem_blockComment (.inr rfl) hmember)
    · obtain rfl := List.mem_singleton.mp hmember
      simp only [String.append_assoc]
      exact hcomment (.inr (firstChar?_append rfl _))
  · decide
  · exact absurd h List.not_mem_nil

/-- The lines of a module that start like an import. -/
theorem linesStarting_import (module : Module) :
    linesStarting "import " module.lines = module.imports.map Import.line := by
  have hhead : linesStarting "import " ["// " ++ banner, ""] = [] := by decide
  have hempty : linesStarting "import " [""] = [] := by decide
  have himports : linesStarting "import " (if module.imports.isEmpty then []
        else module.imports.map Import.line ++ [""]) =
      module.imports.map Import.line := by
    split
    · next hnone =>
      rw [List.isEmpty_iff.mp hnone]
      rfl
    · have hline (item : Import) : item.line =
          "import type * as " ++ (item.name ++ (" from \"./" ++ (item.stem ++ "\";"))) := by
        change "import type * as " ++ item.name ++ " from \"./" ++ item.stem ++ "\";" = _
        simp only [String.append_assoc]
      have hall : linesStarting "import " (module.imports.map Import.line) =
          module.imports.map Import.line := by
        refine linesStarting_eq_self fun line hmem => ?_
        obtain ⟨item, -, rfl⟩ := List.mem_map.mp hmem
        rw [hline]
        exact prefix_toList_append (by decide) _
      rw [linesStarting_append, hempty, hall, List.append_nil]
  have hinterfaces : linesStarting "import "
      (List.flatten (List.intersperse [""] (module.interfaces.map Interface.lines))) = [] := by
    refine linesStarting_eq_nil (c := 'i') rfl fun line hline hfirst => ?_
    rcases mem_flatten_intersperse hline with hmem | ⟨lines, hlines, hmem⟩
    · obtain rfl := List.mem_singleton.mp hmem
      exact absurd hfirst (by decide)
    · obtain ⟨interface, -, rfl⟩ := List.mem_map.mp hlines
      have hother := firstChar?_of_mem_interfaceLines hmem
      rw [hfirst] at hother
      exact absurd hother (by decide)
  rw [Module.lines, linesStarting_append, linesStarting_append, hhead, himports,
    hinterfaces, List.nil_append, List.append_nil]

/-- The words of a type that are made of names of the schema are the name of the target and the
alias of its module. -/
theorem mem_given_typeOf {names : NameTable} {namespacePath : String} {type : FieldType}
    {word : String} (h : word ∈ (typeOf names namespacePath type).given) :
    ∃ id, type.target? = some id ∧ (word = names.type id ∨ word = aliasOf id.namespacePath) := by
  induction type with
  | primitive kind => cases kind <;> exact absurd h List.not_mem_nil
  | named id =>
    refine ⟨id, rfl, ?_⟩
    by_cases hsame : id.namespacePath = namespacePath
    · rw [typeOf, if_pos hsame] at h
      exact .inl (List.mem_singleton.mp h)
    · rw [typeOf, if_neg hsame] at h
      exact (List.mem_pair.mp h).symm
  | list element ih => exact ih h

/-- The statements of the module of a namespace are those of its fields. -/
theorem mem_statements_iff {names : NameTable} {graph : TypeGraph} {namespacePath : String}
    {statement : Statement} :
    statement ∈ (moduleOf names graph namespacePath).statements ↔
      ∃ type ∈ graph.typesIn namespacePath, ∃ field ∈ type.fields,
        statement = (memberOf names type.id.namespacePath field).statement := by
  constructor
  · intro h
    obtain ⟨interface, hinterface, hmem⟩ := List.mem_flatMap.mp h
    obtain ⟨type, htype, rfl⟩ := List.mem_map.mp hinterface
    obtain ⟨member, hmember, rfl⟩ := List.mem_map.mp hmem
    obtain ⟨field, hfield, rfl⟩ := List.mem_map.mp hmember
    exact ⟨type, htype, field, hfield, rfl⟩
  · rintro ⟨type, htype, field, hfield, rfl⟩
    exact List.mem_flatMap_of_mem (List.mem_map_of_mem htype)
      (List.mem_map_of_mem (List.mem_map_of_mem hfield))

/-- The references in the statements of a module are those to targets of other namespaces. -/
theorem exists_reference_iff (options : NamingOptions) (names : NameTable) (graph : TypeGraph)
    (namespacePath : String) (reference : String × String) :
    (∃ statement ∈ (moduleOf names graph namespacePath).statements, statement.reference? =
      some reference) ↔
      ∃ type ∈ graph.typesIn namespacePath, ∃ field ∈ type.fields,
        (scope options).targetReference? namespacePath names.type field.type = some reference := by
  have hwritten {type : TypeNode} (htype : type ∈ graph.typesIn namespacePath) (field : Field) :
      (memberOf names type.id.namespacePath field).statement.reference? =
        (scope options).targetReference? namespacePath names.type field.type := by
    obtain ⟨-, rfl⟩ := mem_typesIn_iff.mp htype
    exact reference?_typeOf options names _ field.type
  constructor
  · intro h
    obtain ⟨statement, hstatement, hreference⟩ := h
    obtain ⟨type, htype, field, hfield, rfl⟩ := mem_statements_iff.mp hstatement
    exact ⟨type, htype, field, hfield, (hwritten htype field).symm.trans hreference⟩
  · intro h
    obtain ⟨type, htype, field, hfield, htarget⟩ := h
    exact ⟨_, mem_statements_iff.mpr ⟨type, htype, field, hfield, rfl⟩,
      (hwritten htype field).trans htarget⟩

section Built

variable {files : List Schema.SchemaFile} {graph : TypeGraph}
  (hbuild : Graph.build files = .ok graph) {options : NamingOptions} {names : NameTable}
  (hnames : namesOf options graph = .ok names)

include hbuild hnames

/-- The module of a namespace imports what its statements refer to. -/
theorem importsUsed_moduleOf (namespacePath : String) :
    (moduleOf names graph namespacePath).ImportsUsed options graph namespacePath := by
  have hlinked := Graph.linked_of_build hbuild
  refine ⟨statements_sublist_lines _, ?_, ?_⟩
  · rw [linesStarting_import, moduleOf, List.map_map]
    rfl
  · exact ModuleScope.referenced_of_targets hlinked
      (fun type htype => nameTable_type_eq hlinked.distinct hnames htype)
      (exists_reference_iff options names graph namespacePath)

/-- If the names of the graph are spelled as in schemas, the words of a member are words. -/
theorem spelled_memberOf (hspelled : Graph.NamesSpelled graph) {type : TypeNode}
    (htype : type ∈ graph.types) {field : Field} (hfield : field ∈ type.fields)
    (namespacePath : String) :
    (memberOf names namespacePath field).Spelled := by
  have hlinked := Graph.linked_of_build hbuild
  have hname : (memberOf names namespacePath field).name = memberName options field :=
    nameTable_field_eq (Graph.fieldIds_nodup_of_build hbuild) hnames htype hfield
  refine ⟨?_, fun word hword => ?_, fun reference hreference => ?_⟩
  · rw [hname]
    exact isWord_apply _ (hspelled.field type htype field hfield)
  · obtain ⟨id, htarget, hword⟩ := mem_given_typeOf hword
    obtain ⟨target, hmem, rfl⟩ :=
      List.mem_map.mp (hlinked.target_mem type htype field hfield id htarget)
    rcases hword with rfl | rfl
    · rw [nameTable_type_eq hlinked.distinct hnames hmem]
      exact isWord_escape (isWord_apply _ (hspelled.type target hmem)) _
    · exact (isWord_escapedStem (hspelled.namespacePath target hmem) _).1
  · have hwritten := reference?_typeOf options names namespacePath field.type
    exact ModuleScope.startsWithDigit_of_target hlinked hspelled htype hfield
      (hwritten.symm.trans hreference)

/-- If the names of the graph are spelled as in schemas, scanning the statements of a module finds
what they are written with. -/
theorem scans_moduleOf (hspelled : Graph.NamesSpelled graph) (namespacePath : String) :
    ∀ statement ∈ (moduleOf names graph namespacePath).statements, statement.Scans := by
  intro statement hstatement
  obtain ⟨type, htype, field, hfield, rfl⟩ := mem_statements_iff.mp hstatement
  exact Member.scans (spelled_memberOf hbuild hnames hspelled (mem_typesIn_iff.mp htype).1 hfield _)

end Built

end TypeScriptModules

/-! ## Built graphs -/

/-- A type with fields of many kinds, one of them with the type of another namespace as element. -/
def sampleImports : List Schema.SchemaFile :=
  [⟨"a.schema", "app",
    [⟨"A", "app", [⟨"at", .list (.named ["geo"] "P"), true, none, [], none, .nowhere⟩,
      ⟨"extra", .named [] "any", false, none, [], none, .nowhere⟩,
      ⟨"home", .named [] "string", false, none, [.url], none, .nowhere⟩,
      ⟨"port", .named [] "int", false, some (.integer 80), [.port], none, .nowhere⟩,
      ⟨"userName", .named [] "string", false, none, [], none, .nowhere⟩], none, .nowhere⟩]⟩,
    ⟨"b.schema", "geo",
      [⟨"P", "geo", [⟨"x", .named [] "float", false, none, [], none, .nowhere⟩], none, .nowhere⟩]⟩]

/-- The graph of the type with fields of many kinds and the type of another namespace. -/
def importsGraph : TypeGraph :=
  ⟨[⟨⟨"app", "A"⟩,
    [⟨⟨⟨"app", "A"⟩, "at"⟩, .list (.named ⟨"geo", "P"⟩), true, none, [], none, false, .nowhere⟩,
      ⟨⟨⟨"app", "A"⟩, "extra"⟩, .primitive .any, false, none, [], none, false, .nowhere⟩,
      ⟨⟨⟨"app", "A"⟩, "home"⟩, .primitive .string, false, none, [.url], none, false, .nowhere⟩,
      ⟨⟨⟨"app", "A"⟩, "port"⟩, .primitive .int, false, some (.integer 80), [.port],
        none, false, .nowhere⟩,
      ⟨⟨⟨"app", "A"⟩, "userName"⟩, .primitive .string, false, none, [], none, false, .nowhere⟩],
      none, .nowhere⟩,
    ⟨⟨"geo", "P"⟩,
      [⟨⟨⟨"geo", "P"⟩, "x"⟩, .primitive .float, false, none, [], none, false, .nowhere⟩],
      none, .nowhere⟩]⟩

/-- The names in the files of these two types are spelled as in schemas. -/
theorem spelled_sampleImports :
    ∀ declaration ∈ Graph.declarationsOf sampleImports, ∃ file, declaration.Spelled file := by
  have hfield {name : String} {type : Schema.TypeRef} {optional : Bool}
      {default? : Option Schema.Literal}
      {validators : List Schema.Validator} (hname : IsIdentifier name) (htype : type.Spelled) :
      (Schema.Field.mk name type optional default? validators none .nowhere).Spelled
      Schema.Span.nowhere.file :=
    ⟨hname, htype, rfl⟩
  have hbuiltIn {name : String} (h : IsIdentifier name) : (Schema.TypeRef.named [] name).Spelled :=
    .named (by simp) h
  have hpoint : (Schema.TypeRef.named ["geo"] "P").Spelled := .named (by decide) (by decide)
  intro declaration hdeclaration
  refine ⟨Schema.Span.nowhere.file, ?_⟩
  rcases List.mem_pair.mp hdeclaration with rfl | rfl
  · refine ⟨by decide, ⟨["app"], by decide, by decide⟩, ?_, rfl⟩
    simp only [List.forall_mem_cons]
    exact ⟨hfield (by decide) (.list hpoint), hfield (by decide) (hbuiltIn (by decide)),
      hfield (by decide) (hbuiltIn (by decide)), hfield (by decide) (hbuiltIn (by decide)),
      hfield (by decide) (hbuiltIn (by decide)), by simp⟩
  · refine ⟨by decide, ⟨["geo"], by decide, by decide⟩, ?_, rfl⟩
    simp only [List.forall_mem_cons]
    exact ⟨hfield (by decide) (hbuiltIn (by decide)), by simp⟩

end SchemaBindings.Bindings
