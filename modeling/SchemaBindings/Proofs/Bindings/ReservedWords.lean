import SchemaBindings.Proofs.Bindings.CHeader
import SchemaBindings.Proofs.Bindings.Modules

/-!
# Reserved words

A name is escaped if it is reserved, but not everything that is declared is escaped. Of a C type in
a namespace only the whole name could be reserved, and that is not looked at; the name of a
TypeScript interface is escaped if it is that of a built-in type, but not if it is a keyword. So
bindings declare a reserved word exactly if a type named so occurs. Python packages and Rust modules
never do.
-/

namespace SchemaBindings.Bindings

open SchemaBindings.Graph (Field TypeNode)
open SchemaBindings.Naming (moduleStem)

/-! ## Escaping -/

/-- Where no reserved word is one of some others, with or without an underscore behind it, a name is
escaped to one of the others exactly if it is one of them. -/
theorem escape_mem_iff {reserved others : List String} (hapart : ∀ word ∈ reserved, word ∉ others)
    (hsuffixed : ∀ word ∈ reserved, word ++ "_" ∉ others) (name : String) :
    escape reserved name ∈ others ↔ name ∈ others := by
  unfold escape
  split
  · next hreserved => exact iff_of_false (hsuffixed name hreserved) (hapart name hreserved)
  · rfl

/-- Where no reserved word is another one with an underscore behind it, no name is escaped to a
reserved word. -/
theorem escape_not_mem {reserved : List String}
    (hsuffixed : ∀ word ∈ reserved, word ++ "_" ∉ reserved) (name : String) :
    escape reserved name ∉ reserved := by
  unfold escape
  split
  · next hreserved => exact hsuffixed name hreserved
  · next hfree => exact hfree

/-! ## C headers -/

namespace CHeader

/-- No reserved word is another one with an underscore behind it. -/
theorem suffixed_not_reserved : ∀ word ∈ reserved, word ++ "_" ∉ reserved := by decide

/-- The names that a struct definition declares. -/
def Struct.identifiers (struct : Struct) : List String :=
  struct.name :: if struct.members.isEmpty then ["unused_"] else struct.members.map Member.name

/-- The names that a header declares. -/
def Header.identifiers (header : Header) : List String :=
  header.forward ++ header.structs.flatMap Struct.identifiers

/-- Lists are split alike at a separator that is in neither part of one of them. -/
theorem eq_of_append_separator {α : Type} {separator : α} {a b c d : List α}
    (h : a ++ separator :: b = c ++ separator :: d) (hc : separator ∉ c) (hd : separator ∉ d) :
    a = c ∧ b = d := by
  rcases List.append_eq_append_iff.mp h with ⟨rest, rfl, hrest⟩ | ⟨rest, rfl, hrest⟩
  · cases rest with
    | nil => exact ⟨by simp, by simpa using hrest⟩
    | cons first rest =>
      obtain ⟨rfl, -⟩ := List.cons_eq_cons.mp hrest
      simp at hc
  · cases rest with
    | nil => exact ⟨by simp, by simpa [eq_comm] using hrest⟩
    | cons first rest =>
      obtain ⟨rfl, rfl⟩ := List.cons_eq_cons.mp hrest
      simp at hd

/-- A namespace whose stem has no underscore is its own stem. -/
theorem moduleStem_eq_self {namespacePath : String} (hne : namespacePath ≠ "")
    (h : '_' ∉ (moduleStem namespacePath).toList) : moduleStem namespacePath = namespacePath := by
  rw [moduleStem, if_neg hne] at h ⊢
  rw [String.toList_ofList] at h
  have hplain : ∀ c ∈ namespacePath.toList, (if c = '.' then '_' else c) = c := by
    intro c hc
    refine if_neg fun hdot => h (List.mem_map.mpr ⟨c, hc, if_pos hdot⟩)
  rw [List.map_congr_left hplain, List.map_id', String.ofList_toList]

/-- The name of a type in a namespace is reserved exactly if it is that of a type of the standard
headers. Of the reserved words, these two alone have an underscore. -/
theorem structName_mem_reserved_iff (options : NamingOptions) (type : TypeNode) :
    structName options type ∈ reserved ↔
      type.id.namespacePath ∈ ["size", "int64"] ∧ options.typeName .c type.id.name = "t" := by
  rw [structName]
  split
  · next hroot =>
    refine iff_of_false (escape_not_mem suffixed_not_reserved _) fun h => ?_
    rw [hroot] at h
    exact absurd h.1 (by decide)
  · next hne =>
    constructor
    · intro h
      have hwords : ∀ word ∈ reserved, '_' ∈ word.toList →
          ∃ namespacePath ∈ ["size", "int64"], word = namespacePath ++ "_" ++ "t" := by decide
      obtain ⟨namespacePath, hmem, hword⟩ := hwords _ h (by simp)
      have hplain : ∀ namespacePath ∈ ["size", "int64"], '_' ∉ namespacePath.toList := by decide
      have hchars := congrArg String.toList hword
      simp only [String.append_assoc, String.toList_append] at hchars
      obtain ⟨hstem, hname⟩ := eq_of_append_separator hchars (hplain _ hmem) (by decide)
      rw [← String.toList_inj.mp hstem] at hmem
      rw [moduleStem_eq_self hne (hplain _ hmem)] at hmem
      exact ⟨hmem, String.toList_inj.mp hname⟩
    · intro h
      obtain ⟨hmem, hname⟩ := h
      have hreserved : ∀ namespacePath ∈ ["size", "int64"], moduleStem namespacePath ++ "_" ++ "t" ∈
          reserved := by
        decide
      rw [hname]
      exact hreserved _ hmem

/-- The member that holds a field's value, and what belongs to it, are not reserved. -/
theorem member_not_reserved {names : NameTable} {field : Field} {members : List Member}
    (hname : names.field field.id ∉ reserved) (h : fieldMembers names field = .ok members) :
    ∀ member ∈ members, member.name ∉ reserved := by
  have hflag : ∀ name : String, "has_" ++ name ∉ reserved := by
    intro name hmem
    have hstart : ∀ word ∈ reserved, ¬ "has_".toList <+: word.toList := by decide
    exact hstart _ hmem (by rw [String.toList_append]; exact List.prefix_append _ _)
  have hlength : ∀ name : String, name ++ "_len" ∉ reserved := by
    intro name hmem
    have hend : ∀ word ∈ reserved, ¬ "_len".toList <:+ word.toList := by decide
    exact hend _ hmem (by rw [String.toList_append]; exact List.suffix_append _ _)
  obtain ⟨values, hvalues, rfl⟩ := fieldMembers_eq_ok h
  rw [List.forall_mem_append]
  constructor
  · unfold flagMember
    split
    · simpa using hflag _
    · simp
  · rcases valueMembers_eq_ok hvalues with ⟨element, base, -, -, rfl⟩ | ⟨base, -, rfl⟩
    · simpa [lengthMember] using ⟨hname, hlength _⟩
    · simpa using hname

/-- Every struct is made of a type of the graph. -/
theorem exists_structOf_eq_ok {names : NameTable} {types : List TypeNode} {structs : List Struct}
    (h : structsOf names types = .ok structs) {struct : Struct} (hstruct : struct ∈ structs) :
    ∃ type ∈ types, structOf names type = .ok struct := by
  obtain ⟨before, after, rfl⟩ := List.append_of_mem hstruct
  obtain ⟨front, type, back, rfl, hok, -⟩ := structsOf_split h
  exact ⟨type, by simp, hok⟩

/-- A header declares a reserved word exactly if the name of a type is one. -/
theorem unreserved_iff {options : NamingOptions} {graph : TypeGraph} (hlinked : graph.Linked)
    {header : Header} (h : build options graph = .ok header) :
    (∀ name ∈ header.identifiers, name ∉ reserved) ↔
      ∀ type ∈ graph.types, structName options type ∉ reserved := by
  obtain ⟨-, names, structs, hnames, hstructs, rfl⟩ := build_eq_ok h
  have hname : ∀ type ∈ graph.types, names.type type.id = structName options type :=
    fun type htype => nameTable_type_eq hlinked.distinct hnames htype
  rw [Header.identifiers, List.forall_mem_append, List.forall_mem_map]
  constructor
  · intro hall type htype
    rw [← hname type htype]
    exact hall.1 type htype
  · intro hall
    refine ⟨fun type htype => hname type htype ▸ hall type htype, fun name hmem => ?_⟩
    obtain ⟨struct, hstruct, hmem⟩ := List.mem_flatMap.mp hmem
    obtain ⟨type, hplaced, hok⟩ := exists_structOf_eq_ok hstructs hstruct
    have htype := (placedTypes_ordered hlinked).1.mem_iff.mp hplaced
    obtain ⟨hstructname, hmembers, -⟩ := structOf_eq_ok hok
    rcases List.mem_cons.mp hmem with rfl | hmem
    · rw [hstructname, hname type htype]
      exact hall type htype
    · split at hmem
      · obtain rfl := List.mem_singleton.mp hmem
        decide
      · obtain ⟨member, hmember, rfl⟩ := List.mem_map.mp hmem
        obtain ⟨field, hfield, part, hpart, hin⟩ := (membersOf_eq_ok hmembers).2 member hmember
        refine member_not_reserved ?_ hpart member hin
        obtain ⟨other, hother⟩ := exists_nameTable_field_eq hnames htype hfield
        rw [hother]
        exact escape_not_mem suffixed_not_reserved _

end CHeader

/-! ## Python packages -/

namespace PythonPackage

/-- The names that a class declares. -/
def Class.identifiers (model : Class) : List String :=
  model.name :: (if model.configured then ["model_config"] else []) ++
    model.attributes.map Attribute.name

/-- The names that a package declares. -/
def Package.identifiers (package : Package) : List String :=
  package.modules.flatMap fun module => module.stem :: module.classes.flatMap Class.identifiers

/-- A package declares no reserved word. -/
theorem unreserved {options : NamingOptions} {graph : TypeGraph} (hlinked : graph.Linked)
    {package : Package} (h : build options graph = .ok package) :
    ∀ name ∈ package.identifiers, name ∉ reserved := by
  obtain ⟨-, names, hnames, rfl⟩ := build_eq_ok h
  have hescaped : ∀ name, escape reserved name ∉ reserved :=
    escape_not_mem layout.suffixed_not_reserved
  simp only [Package.identifiers, List.forall_mem_flatMap, List.forall_mem_map, moduleOf,
    List.forall_mem_cons, Class.identifiers, List.forall_mem_append, classOf, attributeOf]
  refine fun namespacePath _ => ⟨hescaped _, fun type hmem => ?_⟩
  have htype := (mem_typesIn_iff.mp hmem).1
  refine ⟨⟨?_, fun name hconfig => ?_⟩, fun field hfield => ?_⟩
  · rw [nameTable_type_eq hlinked.distinct hnames htype]
    exact hescaped _
  · obtain ⟨-, hsingle⟩ := List.mem_ite_nil_right.mp hconfig
    obtain rfl := List.mem_singleton.mp hsingle
    decide
  · obtain ⟨other, hother⟩ := exists_nameTable_field_eq hnames htype hfield
    rw [hother]
    exact hescaped _

end PythonPackage

/-! ## Rust modules -/

namespace RustModules

/-- The names that a module declares, its own among them. -/
def Module.identifiers (module : Module) : List String :=
  module.stem :: module.structs.flatMap fun struct => struct.name ::
    struct.fields.map StructField.name

/-- The text of an identifier is neither reserved nor a keyword. A raw identifier has a number sign
in it. -/
theorem text_identFor_not_mem (name : String) :
    (identFor name).text ∉ reserved ∧ (identFor name).text ∉ keywords := by
  unfold identFor
  split
  · have hplain : ∀ word ∈ reserved ++ keywords, '#' ∉ word.toList := by decide
    rw [← not_or, ← List.mem_append, Ident.text, if_pos rfl]
    exact fun hmem => hplain _ hmem (by simp)
  · next hfree =>
    have hapart : ∀ word ∈ reserved, word ∉ keywords := by decide
    have hsuffixed : ∀ word ∈ reserved, word ++ "_" ∉ keywords := by decide
    exact ⟨escape_not_mem layout.suffixed_not_reserved name,
      (escape_mem_iff hapart hsuffixed name).not.mpr hfree⟩

/-- Modules declare no reserved words, and keywords as raw identifiers only. -/
theorem unreserved {options : NamingOptions} {graph : TypeGraph} (hlinked : graph.Linked)
    {modules : List Module} (h : build options graph = .ok modules) :
    ∀ module ∈ modules, ∀ name ∈ module.identifiers, name ∉ reserved ∧ name ∉ keywords := by
  obtain ⟨-, names, hnames, rfl⟩ := build_eq_ok h
  simp only [Module.identifiers, List.forall_mem_flatMap, List.forall_mem_map, moduleOf,
    List.forall_mem_cons, structOf, structField]
  refine fun namespacePath _ => ⟨text_identFor_not_mem _, fun type hmem => ?_⟩
  have htype := (mem_typesIn_iff.mp hmem).1
  refine ⟨?_, fun field hfield => ?_⟩
  · rw [nameTable_type_eq hlinked.distinct hnames htype]
    exact text_identFor_not_mem _
  · obtain ⟨other, hother⟩ := exists_nameTable_field_eq hnames htype hfield
    rw [hother]
    exact text_identFor_not_mem _

end RustModules

/-! ## TypeScript modules -/

namespace TypeScriptModules

/-- No reserved word is another one with an underscore behind it. -/
theorem suffixed_not_reserved : ∀ word ∈ reserved, word ++ "_" ∉ reserved := by decide

/-- Whether a module has no reserved word as an alias, and neither a reserved word nor a built-in
type as an interface. -/
structure Module.Unreserved (module : Module) : Prop where
  aliases : ∀ item ∈ module.imports, item.name ∉ reserved
  keywords : ∀ interface ∈ module.interfaces, interface.name ∉ reserved
  builtIn : ∀ interface ∈ module.interfaces, interface.name ∉ builtInTypes

/-- Modules declare a reserved word exactly if a type is named so. -/
theorem unreserved_iff {options : NamingOptions} {graph : TypeGraph} (hlinked : graph.Linked)
    {modules : List Module} (h : build options graph = .ok modules) :
    (∀ module ∈ modules, module.Unreserved) ↔
      ∀ type ∈ graph.types, options.typeName .typescript type.id.name ∉ reserved := by
  obtain ⟨-, names, hnames, rfl⟩ := build_eq_ok h
  have hname : ∀ type ∈ graph.types, names.type type.id = interfaceName options type :=
    fun type htype => nameTable_type_eq hlinked.distinct hnames htype
  have hiff : ∀ type, interfaceName options type ∈ reserved ↔
      options.typeName .typescript type.id.name ∈ reserved :=
    fun type => escape_mem_iff (by decide) (by decide) _
  rw [List.forall_mem_map]
  constructor
  · intro hall type htype
    have hkeywords := (hall _ (namespacePath_mem htype)).keywords (interfaceOf names type)
      (List.mem_map_of_mem (mem_typesIn_iff.mpr ⟨htype, rfl⟩))
    rwa [interfaceOf, hname type htype, hiff] at hkeywords
  · intro hall namespacePath _
    refine ⟨List.forall_mem_map.mpr fun foreign _ => escape_not_mem suffixed_not_reserved _,
      List.forall_mem_map.mpr fun type hmem => ?_, List.forall_mem_map.mpr fun type hmem => ?_⟩
    · have htype := (mem_typesIn_iff.mp hmem).1
      rw [interfaceOf, hname type htype, hiff]
      exact hall type htype
    · rw [interfaceOf, hname type (mem_typesIn_iff.mp hmem).1]
      exact escape_not_mem (by decide) _

end TypeScriptModules

/-! ## All languages -/

/-- Of a built graph, a C header declares a reserved word exactly if a type becomes `t` in a
namespace that makes it a type of the standard headers, and TypeScript modules exactly if a type
becomes a keyword. Python packages and Rust modules declare none. -/
theorem unreserved_bindings_iff (files : List Schema.SchemaFile) (graph : TypeGraph)
    (options : NamingOptions) (hbuild : Graph.build files = .ok graph) :
    (∀ header, CHeader.build options graph = .ok header →
      ((∀ name ∈ header.identifiers, name ∉ CHeader.reserved) ↔ ∀ type ∈ graph.types,
        type.id.namespacePath ∈ ["size", "int64"] → options.typeName .c type.id.name ≠ "t")) ∧
    (∀ package, PythonPackage.build options graph = .ok package →
      ∀ name ∈ package.identifiers, name ∉ PythonPackage.reserved) ∧
    (∀ modules, RustModules.build options graph = .ok modules → ∀ module ∈ modules,
      ∀ name ∈ module.identifiers, name ∉ RustModules.reserved ∧ name ∉ RustModules.keywords) ∧
    ∀ modules, TypeScriptModules.build options graph = .ok modules →
      ((∀ module ∈ modules, module.Unreserved) ↔ ∀ type ∈ graph.types,
        options.typeName .typescript type.id.name ∉ TypeScriptModules.reserved) := by
  have hlinked := Graph.linked_of_build hbuild
  refine ⟨fun header hheader => ?_, fun package => PythonPackage.unreserved hlinked,
    fun modules => RustModules.unreserved hlinked,
    fun modules => TypeScriptModules.unreserved_iff hlinked⟩
  rw [CHeader.unreserved_iff hlinked hheader]
  simp only [CHeader.structName_mem_reserved_iff, not_and, ne_eq]

/-- A namespace and two types with names that are reserved in some language. -/
def sampleReserved : List Schema.SchemaFile :=
  [schemaFileOf "in" "number", schemaFileOf "" "int64_t"]

/-- Where such names are looked at, they are escaped. -/
theorem unreserved_sampleReserved :
    ∃ graph header package modules interfaces, Graph.build sampleReserved = .ok graph ∧
      CHeader.build keptNaming graph = .ok header ∧
      PythonPackage.build keptNaming graph = .ok package ∧
      RustModules.build keptNaming graph = .ok modules ∧
      TypeScriptModules.build keptNaming graph = .ok interfaces ∧
      header.identifiers = ["int64_t_", "in_number", "int64_t_", "x", "in_number", "x"] ∧
      package.identifiers = ["types", "int64_t", "x", "in_", "number", "x"] ∧
      modules.flatMap RustModules.Module.identifiers = ["types", "int64_t", "x",
        "r#in", "number", "x"] ∧
      (∀ name ∈ header.identifiers, name ∉ CHeader.reserved) ∧
      (∀ name ∈ package.identifiers, name ∉ PythonPackage.reserved) ∧
      (∀ module ∈ modules, ∀ name ∈ module.identifiers, name ∉ RustModules.reserved ∧
        name ∉ RustModules.keywords) ∧
      ∀ module ∈ interfaces, module.Unreserved := by
  have hmade : (Graph.build sampleReserved).toOption.bind (fun graph =>
      (CHeader.build keptNaming graph).toOption.bind fun header =>
        (PythonPackage.build keptNaming graph).toOption.bind fun package =>
          (RustModules.build keptNaming graph).toOption.bind fun modules =>
            (TypeScriptModules.build keptNaming graph).toOption.map fun _ =>
              (graph.types.map TypeNode.id, header.identifiers, package.identifiers,
                modules.flatMap RustModules.Module.identifiers)) =
      some ([⟨"", "int64_t"⟩, ⟨"in", "number"⟩],
        ["int64_t_", "in_number", "int64_t_", "x", "in_number", "x"],
        ["types", "int64_t", "x", "in_", "number", "x"],
        ["types", "int64_t", "x", "r#in", "number", "x"]) := by cbv
  obtain ⟨graph, hgraph, hmade⟩ := Option.bind_eq_some_iff.mp hmade
  obtain ⟨header, hheader, hmade⟩ := Option.bind_eq_some_iff.mp hmade
  obtain ⟨package, hpackage, hmade⟩ := Option.bind_eq_some_iff.mp hmade
  obtain ⟨modules, hmodules, hmade⟩ := Option.bind_eq_some_iff.mp hmade
  obtain ⟨interfaces, hinterfaces, hmade⟩ := Option.map_eq_some_iff.mp hmade
  simp only [Prod.mk.injEq] at hmade
  obtain ⟨hids, hheadernames, hpackagenames, hmodulenames⟩ := hmade
  have hbuild := eq_ok_of_toOption hgraph
  obtain ⟨hc, hpython, hrust, htypescript⟩ :=
    unreserved_bindings_iff sampleReserved graph keptNaming hbuild
  have hnames : ∀ id ∈ graph.types.map TypeNode.id,
      (id.namespacePath ∈ ["size", "int64"] → keptNaming.typeName .c id.name ≠ "t") ∧
        keptNaming.typeName .typescript id.name ∉ TypeScriptModules.reserved := by
    rw [hids]
    decide
  rw [List.forall_mem_map] at hnames
  exact ⟨graph, header, package, modules, interfaces, hbuild, eq_ok_of_toOption hheader,
    eq_ok_of_toOption hpackage, eq_ok_of_toOption hmodules, eq_ok_of_toOption hinterfaces,
    hheadernames, hpackagenames, hmodulenames, (hc header (eq_ok_of_toOption hheader)).mpr
      fun type htype => (hnames type htype).1,
    hpython package (eq_ok_of_toOption hpackage), hrust modules (eq_ok_of_toOption hmodules),
    (htypescript interfaces (eq_ok_of_toOption hinterfaces)).mpr
    fun type htype => (hnames type htype).2⟩

/-- A type that becomes one of the standard headers, and an interface that is a keyword. -/
theorem bindings_declare_reserved :
    (Graph.build [schemaFileOf "size" "t", schemaFileOf "" "class"]).toOption.bind (fun graph =>
      (CHeader.build keptNaming graph).toOption.bind fun header =>
        (TypeScriptModules.build keptNaming graph).toOption.map fun modules =>
          (header.forward,
            modules.flatMap fun module => module.interfaces.map TypeScriptModules.Interface.name)) =
        some (["class", "size_t"], ["class", "t"]) ∧
      "size_t" ∈ CHeader.reserved ∧ "class" ∈ TypeScriptModules.reserved :=
  ⟨by cbv, by decide, by decide⟩

end SchemaBindings.Bindings
