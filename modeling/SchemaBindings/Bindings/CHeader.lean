import SchemaBindings.Bindings.Doc
import SchemaBindings.Bindings.Files
import SchemaBindings.Bindings.Names

/-!
# C headers

All types go into one header, each as a struct. C has neither optional values nor growing arrays: an
optional field gets a flag in front of it, a list is a pointer and a length, and a field on a cycle
of references is a pointer, which is null where the value is absent. Structs stand behind the
structs that they embed.

A header is first made as a value, whose members and their types can be reasoned about, and then
printed.
-/

namespace SchemaBindings.Bindings.CHeader

open SchemaBindings.Bindings
open SchemaBindings.Graph (Field FieldType TypeId TypeNode)
open SchemaBindings.Naming (moduleStem)
open SchemaBindings.Schema (Primitive)

/-- The words that may not be used as names. -/
def reserved : List String :=
  ["auto", "break", "case", "char", "const", "continue", "default", "do", "double", "else",
    "enum", "extern", "float", "for", "goto", "if", "inline", "int", "long", "register",
    "restrict", "return", "short", "signed", "sizeof", "static", "struct", "switch",
    "typedef", "union", "unsigned", "void", "volatile", "while", "bool", "true", "false",
    "NULL", "size_t", "int64_t"]

/-- The type of a member, without its stars. -/
inductive BaseType where
  | int64
  | uint8
  | double
  | bool
  | constCharPointer
  | size
  | struct (name : String)
deriving DecidableEq

/-- A member of a struct. The source is the schema field that it belongs to. -/
structure Member where
  source : String
  name : String
  base : BaseType
  pointer : Bool
  doc : List String
deriving DecidableEq

/-- A struct definition. -/
structure Struct where
  name : String
  doc : List String
  members : List Member
deriving DecidableEq

/-- A header: the names declared ahead, and the structs. -/
structure Header where
  forward : List String
  structs : List Struct
deriving DecidableEq

/-! ## Layout -/

/-- The name of a struct. Types of a namespace carry its stem. -/
def structName (options : NamingOptions) (type : TypeNode) : String :=
  let base := options.typeName .c type.id.name
  if type.id.namespacePath = "" then escape reserved base
  else moduleStem type.id.namespacePath ++ "_" ++ base

/-- The name of the member that holds a field's value. -/
def memberName (options : NamingOptions) (field : Field) : String :=
  escape reserved (options.fieldName .c field.name)

/-- The type of a single value, if it has one. -/
def baseType? (names : NameTable) : FieldType → Option BaseType
  | .primitive .int => some .int64
  | .primitive .float => some .double
  | .primitive .bool => some .bool
  | .primitive .string => some .constCharPointer
  | .primitive .any => none
  | .named id => some (.struct (names.type id))
  | .list _ => none

/-- Whether a field is a pointer because it lies on a cycle. -/
def byPointer (field : Field) : Bool :=
  field.recursive && field.isNamed

/-- The flag in front of an optional field. -/
def flagMember (field : Field) (name : String) : List Member :=
  if field.optional && !byPointer field then
    [⟨field.name, "has_" ++ name, .bool, false, []⟩]
  else []

/-- The length behind a list. -/
def lengthMember (field : Field) (name : String) : Member :=
  ⟨field.name, name ++ "_len", .size, false, []⟩

/-- The member that holds a field's value and what stands behind it, or why there is none. -/
def valueMembers (names : NameTable) (field : Field) (name : String) :
    Except Reason (List Member) :=
  match field.type with
  | .list (.list _) => .error .nestedList
  | .list element =>
    match baseType? names element with
    | some base =>
      .ok [⟨field.name, name, base, true, fieldDoc field true⟩, lengthMember field name]
    | none => .error .anyValue
  | type =>
    match baseType? names type with
    | some base => .ok [⟨field.name, name, base, byPointer field, fieldDoc field true⟩]
    | none => .error .anyValue

/-- The members of a field. -/
def fieldMembers (names : NameTable) (field : Field) : Except Unsupported (List Member) :=
  let name := names.field field.id
  match valueMembers names field name with
  | .ok members => .ok (flagMember field name ++ members)
  | .error reason => .error ⟨.c, field.id.shown, reason⟩

/-- The members of fields, up to the first that has none. -/
def membersOf (names : NameTable) : List Field → Except Unsupported (List Member)
  | [] => .ok []
  | field :: rest =>
    match fieldMembers names field with
    | .error unsupported => .error unsupported
    | .ok members =>
      match membersOf names rest with
      | .error unsupported => .error unsupported
      | .ok others => .ok (members ++ others)

/-- The struct of a type, if its members are named differently. -/
def structOf (names : NameTable) (type : TypeNode) : Except Unsupported Struct :=
  match membersOf names type.fields with
  | .error unsupported => .error unsupported
  | .ok members =>
    match ensureDistinct .c type.id.shown
      (members.map fun member => ⟨member.source, member.name⟩) with
    | .error unsupported => .error unsupported
    | .ok _ => .ok ⟨names.type type.id, docLines type.doc? none, members⟩

/-- The types whose structs a type embeds. -/
def embedded (graph : TypeGraph) (type : TypeNode) : List TypeNode :=
  type.fields.filterMap fun field =>
    if field.recursive then none
    else
      match field.type with
      | .named id => graph.find? id
      | _ => none

/-- Appends types to `placed`, each behind the types that it embeds, and skips those seen. -/
def placeTypes (graph : TypeGraph) :
    (fuel : Nat) → List TypeNode → (seen : List TypeId) → (placed : List TypeNode) →
      List TypeId × List TypeNode
  | 0, _, seen, placed => (seen, placed)
  | _, [], seen, placed => (seen, placed)
  | fuel + 1, type :: rest, seen, placed =>
    if type.id ∈ seen then placeTypes graph fuel rest seen placed
    else
      let (seen, placed) := placeTypes graph fuel (embedded graph type) (type.id :: seen) placed
      placeTypes graph fuel rest seen (placed ++ [type])

/-- Enough steps to place all types: one for each type and one for each field. -/
def placingSteps (graph : TypeGraph) : Nat :=
  (graph.types.flatMap TypeNode.fields).length + 2 * graph.types.length + 1

/-- The types, each behind those that it embeds. -/
def placedTypes (graph : TypeGraph) : List TypeNode :=
  (placeTypes graph (placingSteps graph) graph.types [] []).2

/-- The structs of types, up to the first that has none. -/
def structsOf (names : NameTable) : List TypeNode → Except Unsupported (List Struct)
  | [] => .ok []
  | type :: rest =>
    match structOf names type with
    | .error unsupported => .error unsupported
    | .ok struct =>
      match structsOf names rest with
      | .error unsupported => .error unsupported
      | .ok others => .ok (struct :: others)

/-- The names of a graph in C. -/
def namesOf (options : NamingOptions) (graph : TypeGraph) : Except Unsupported NameTable :=
  NameTable.build graph .c .global (structName options) (memberName options)

/-- The header of a graph. -/
def build (options : NamingOptions) (graph : TypeGraph) : Except Unsupported Header :=
  match ensureStemsDistinct .c graph with
  | .error unsupported => .error unsupported
  | .ok _ =>
    match namesOf options graph with
    | .error unsupported => .error unsupported
    | .ok names =>
      match structsOf names (placedTypes graph) with
      | .error unsupported => .error unsupported
      | .ok structs => .ok ⟨graph.types.map fun type => names.type type.id, structs⟩

/-! ## Printing -/

/-- A type in front of the name that it declares. -/
def BaseType.text : BaseType → String
  | .int64 => "int64_t "
  | .uint8 => "uint8_t "
  | .double => "double "
  | .bool => "bool "
  | .constCharPointer => "const char *"
  | .size => "size_t "
  | .struct name => name ++ " "

/-- The declaration of a member. -/
def Member.declaration (member : Member) : String :=
  member.base.text ++ (if member.pointer then "*" else "") ++ member.name ++ ";"

/-- The lines of a member. -/
def Member.lines (member : Member) : List String :=
  blockComment "    " member.doc ++ ["    " ++ member.declaration]

/-- The member of a struct that would have none. It is not used. -/
def unusedMember : Member := ⟨"", "unused_", .uint8, false, []⟩

/-- The members of a struct as they are printed. There is at least one. -/
def Struct.printed (struct : Struct) : List Member :=
  if struct.members.isEmpty then [unusedMember] else struct.members

/-- The lines of a struct. -/
def Struct.lines (struct : Struct) : List String :=
  blockComment "" struct.doc ++
    ("struct " ++ struct.name ++ " \x7b") :: struct.printed.flatMap Member.lines ++ ["\x7d;"]

/-- The lines of a header. -/
def Header.lines (header : Header) : List String :=
  ["/* " ++ banner ++ " */", "", "#pragma once", "", "#include <stdbool.h>", "#include <stddef.h>",
    "#include <stdint.h>"] ++
  (if header.structs.isEmpty then [] else [""]) ++
  (header.forward.map fun name => "typedef struct " ++ name ++ " " ++ name ++ ";") ++
  header.structs.flatMap fun struct => "" :: struct.lines

/-- The path of the header. -/
def path : String := "types.h"

/-- The files of the C bindings. -/
def emit (options : NamingOptions) (graph : TypeGraph) : Except Unsupported (List EmittedFile) :=
  match build options graph with
  | .error unsupported => .error unsupported
  | .ok header => .ok [.ofLines path header.lines]

end SchemaBindings.Bindings.CHeader
