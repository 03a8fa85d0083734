import SchemaBindings.Bindings.Doc
import SchemaBindings.Bindings.Files
import SchemaBindings.Bindings.Names

/-!
# TypeScript modules

Every namespace becomes a module of interfaces. A module imports the modules of the namespaces that
it refers to, each under an alias.

A module is first made as a value: types, members and interfaces. Then it is printed.
-/

namespace SchemaBindings.Bindings.TypeScriptModules

open SchemaBindings.Bindings
open SchemaBindings.Graph (Field FieldType TypeId TypeNode)
open SchemaBindings.Naming (moduleStem)
open SchemaBindings.Schema (Primitive)

/-- Words that may not be aliases. -/
def reserved : List String :=
  ["break", "case", "catch", "class", "const", "continue", "debugger", "default", "delete",
    "do", "else", "enum", "export", "extends", "false", "finally", "for", "function", "if",
    "import", "in", "instanceof", "new", "null", "return", "super", "switch", "this", "throw",
    "true", "try", "typeof", "var", "void", "while", "with", "let", "static", "yield", "await",
    "implements", "interface", "package", "private", "protected", "public"]

/-- Names of built-in types, which an interface may not shadow. -/
def builtInTypes : List String :=
  ["number", "string", "boolean", "unknown", "any", "never", "object", "symbol", "bigint",
    "undefined", "Array"]

/-- A type. An interface of another module is reached through that module's alias. -/
inductive TsType where
  | number
  | boolean
  | string
  | unknown
  | interface (alias? : Option String) (name : String)
  | array (element : TsType)
deriving DecidableEq

/-- A member of an interface. -/
structure Member where
  name : String
  optional : Bool
  doc : List String
  type : TsType
deriving DecidableEq

/-- An interface. -/
structure Interface where
  name : String
  doc : List String
  members : List Member
deriving DecidableEq

/-- An import of a module under an alias. -/
structure Import where
  name : String
  stem : String
deriving DecidableEq

/-- A module. -/
structure Module where
  stem : String
  imports : List Import
  interfaces : List Interface
deriving DecidableEq

/-! ## From types to interfaces -/

/-- The name of an interface. -/
def interfaceName (options : NamingOptions) (type : TypeNode) : String :=
  escape builtInTypes (options.typeName .typescript type.id.name)

/-- The name of a member. -/
def memberName (options : NamingOptions) (field : Field) : String :=
  options.fieldName .typescript field.name

/-- The alias of a namespace's module. -/
def aliasOf (namespacePath : String) : String :=
  escape reserved (moduleStem namespacePath)

/-- The type for a type of the schema, in a module of the given namespace. -/
def typeOf (names : NameTable) (namespacePath : String) : FieldType → TsType
  | .primitive .int => .number
  | .primitive .float => .number
  | .primitive .bool => .boolean
  | .primitive .string => .string
  | .primitive .any => .unknown
  | .named id =>
    .interface (if id.namespacePath = namespacePath then none else some (aliasOf id.namespacePath))
      (names.type id)
  | .list element => .array (typeOf names namespacePath element)

/-- The member of a field. -/
def memberOf (names : NameTable) (namespacePath : String) (field : Field) : Member :=
  ⟨names.field field.id, field.optional, fieldDoc field true, typeOf names namespacePath field.type⟩

/-- The interface of a type. -/
def interfaceOf (names : NameTable) (type : TypeNode) : Interface :=
  ⟨names.type type.id, docLines type.doc? none,
    type.fields.map (memberOf names type.id.namespacePath)⟩

/-- The module of a namespace. -/
def moduleOf (names : NameTable) (graph : TypeGraph) (namespacePath : String) : Module :=
  ⟨moduleStem namespacePath,
    (graph.foreignNamespaces namespacePath).map fun foreign =>
      ⟨aliasOf foreign, moduleStem foreign⟩,
    (graph.typesIn namespacePath).map (interfaceOf names)⟩

/-- The names of a graph in TypeScript. -/
def namesOf (options : NamingOptions) (graph : TypeGraph) : Except Unsupported NameTable :=
  NameTable.build graph .typescript .perNamespace (interfaceName options) (memberName options)

/-- The modules of a graph. -/
def build (options : NamingOptions) (graph : TypeGraph) : Except Unsupported (List Module) :=
  match ensureStemsDistinct .typescript graph with
  | .error unsupported => .error unsupported
  | .ok _ =>
    match namesOf options graph with
    | .error unsupported => .error unsupported
    | .ok names => .ok (graph.namespaces.map (moduleOf names graph))

/-! ## Printing -/

/-- The text of a type. -/
def TsType.text : TsType → String
  | .number => "number"
  | .boolean => "boolean"
  | .string => "string"
  | .unknown => "unknown"
  | .interface none name => name
  | .interface (some outer) name => outer ++ "." ++ name
  | .array element => element.text ++ "[]"

/-- The lines of a member. -/
def Member.lines (member : Member) : List String :=
  blockComment "  " member.doc ++
    ["  " ++ member.name ++ (if member.optional then "?" else "") ++ ": " ++
      member.type.text ++ ";"]

/-- The lines of an interface. -/
def Interface.lines (interface : Interface) : List String :=
  blockComment "" interface.doc ++
    ("export interface " ++ interface.name ++ " \x7b") :: interface.members.flatMap Member.lines ++
    ["\x7d"]

/-- The line of an import. -/
def Import.line (item : Import) : String :=
  "import type * as " ++ item.name ++ " from \"./" ++ item.stem ++ "\";"

/-- The lines of a module. -/
def Module.lines (module : Module) : List String :=
  ["// " ++ banner, ""] ++
  (if module.imports.isEmpty then [] else module.imports.map Import.line ++ [""]) ++
  List.flatten (List.intersperse [""] (module.interfaces.map Interface.lines))

/-- The path of a module. -/
def Module.path (module : Module) : String :=
  module.stem ++ ".ts"

/-- The files of the TypeScript bindings. -/
def emit (options : NamingOptions) (graph : TypeGraph) : Except Unsupported (List EmittedFile) :=
  match build options graph with
  | .error unsupported => .error unsupported
  | .ok modules => .ok (collectFiles (modules.map fun module => .ofLines module.path module.lines))

end SchemaBindings.Bindings.TypeScriptModules
