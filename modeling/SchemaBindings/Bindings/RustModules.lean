import SchemaBindings.Bindings.Doc
import SchemaBindings.Bindings.Files
import SchemaBindings.Bindings.Names

/-!
# Rust modules

Every namespace becomes a module of serde structs, and a `mod.rs` declares the modules. Fields on a
cycle of references are boxed. A default value becomes a function of the struct, which the field's
attribute names.

A module is first made as a value: types, expressions, fields and structs. Then it is printed.
-/

namespace SchemaBindings.Bindings.RustModules

open SchemaBindings.Bindings
open SchemaBindings.Graph (Field FieldType TypeId TypeNode)
open SchemaBindings.Naming (Case moduleStem)
open SchemaBindings.Number (Binary64)
open SchemaBindings.Schema (Literal Primitive booleanWord)
open SchemaBindings.Text (quoted)

/-- Keywords that may be used as raw identifiers. -/
def keywords : List String :=
  ["as", "async", "await", "break", "const", "continue", "dyn", "else", "enum", "extern",
    "false", "fn", "for", "gen", "if", "impl", "in", "let", "loop", "match", "mod", "move",
    "mut", "pub", "ref", "return", "static", "struct", "trait", "true", "try", "type",
    "unsafe", "use", "where", "while", "abstract", "become", "box", "do", "final", "macro",
    "override", "priv", "typeof", "unsized", "virtual", "yield"]

/-- Keywords that cannot be raw, and the names that the modules rely on. -/
def reserved : List String :=
  ["self", "Self", "super", "crate", "Box", "Option", "Vec", "String", "Serialize",
    "Deserialize"]

/-- An identifier: a name that may be written raw. -/
structure Ident where
  name : String
  raw : Bool
deriving DecidableEq

/-- The text of an identifier. -/
def Ident.text (ident : Ident) : String :=
  if ident.raw then "r#" ++ ident.name else ident.name

/-- The identifier for a name: a keyword is written raw, a reserved name gets an underscore. -/
def identFor (name : String) : Ident :=
  if name ∈ keywords then ⟨name, true⟩ else ⟨escape reserved name, false⟩

/-- The identifier that a text is. -/
def Ident.ofText (text : String) : Ident :=
  match text.toList with
  | 'r' :: '#' :: name => ⟨String.ofList name, true⟩
  | _ => ⟨text, false⟩

/-- A type. A struct of another module is reached through the parent module. -/
inductive RustType where
  | int64
  | float64
  | bool
  | string
  | jsonValue
  | struct (module? : Option String) (name : String)
  | vec (element : RustType)
  | box (value : RustType)
  | option (value : RustType)
deriving DecidableEq

/-- An expression. -/
inductive Expr where
  | int64 (value : Int)
  | float64 (value : Binary64)
  | plainFloat (value : Binary64)
  | boolean (value : Bool)
  | textLiteral (content : String)
  | ownedText (content : String)
  | jsonValue (value : Expr)
  | some (value : Expr)
deriving DecidableEq

/-- A function that gives a default value. -/
structure DefaultFunction where
  name : String
  type : RustType
  body : Expr
deriving DecidableEq

/-- What stands in for a field that is missing: nothing, no value, or the value of a function. -/
inductive Missing where
  | refused
  | absent
  | computed (function : DefaultFunction)
deriving DecidableEq

/-- A field of a struct. -/
structure StructField where
  source : String
  name : String
  doc : List String
  type : RustType
  missing : Missing
deriving DecidableEq

/-- A struct. -/
structure Struct where
  name : String
  doc : List String
  fields : List StructField
deriving DecidableEq

/-- A module. -/
structure Module where
  stem : String
  structs : List Struct
deriving DecidableEq

/-! ## From types to structs -/

/-- The identifier of a namespace's module. -/
def stemOf (namespacePath : String) : String :=
  (identFor (moduleStem namespacePath)).text

/-- The identifier of a struct. -/
def structName (options : NamingOptions) (type : TypeNode) : String :=
  (identFor (options.typeName .rust type.id.name)).text

/-- The identifier of a field. -/
def fieldName (options : NamingOptions) (field : Field) : String :=
  (identFor (options.fieldName .rust field.name)).text

/-- An identifier's text without the mark of a raw one. -/
def unraw (text : String) : String :=
  (Ident.ofText text).name

/-- The type for a type of the schema, in a module of the given namespace. -/
def typeOf (names : NameTable) (namespacePath : String) : FieldType → RustType
  | .primitive .int => .int64
  | .primitive .float => .float64
  | .primitive .bool => .bool
  | .primitive .string => .string
  | .primitive .any => .jsonValue
  | .named id =>
    .struct (if id.namespacePath = namespacePath then none else some (stemOf id.namespacePath))
      (names.type id)
  | .list element => .vec (typeOf names namespacePath element)

/-- The type of a field. -/
def fieldType (names : NameTable) (namespacePath : String) (field : Field) : RustType :=
  let base := typeOf names namespacePath field.type
  let boxed := if field.recursive && field.isNamed then .box base else base
  if field.optional then .option boxed else boxed

/-- The literal of a value whose type does not follow from its place. -/
def plainExpr : Literal → Expr
  | .integer value => .int64 value
  | .float value => .float64 value
  | .text content => .textLiteral content
  | .boolean value => .boolean value

/-- The expression of a default value at a type. -/
def valueExpr (type : FieldType) (literal : Literal) : Expr :=
  if type = .primitive .any then .jsonValue (plainExpr literal)
  else
    match literal with
    | .integer value =>
      if type = .primitive .float then .plainFloat (.ofInt value) else .int64 value
    | .text content => .ownedText content
    | literal => plainExpr literal

/-- The body of a field's default function. -/
def defaultExpr (field : Field) (literal : Literal) : Expr :=
  let value := valueExpr field.type literal
  if field.optional then .some value else value

/-- The name of a field's default function. -/
def defaultFunctionName (name : String) : String :=
  "default_" ++ Case.snake.apply (unraw name)

/-- The struct field of a field. -/
def structField (names : NameTable) (namespacePath : String) (field : Field) : StructField :=
  let name := names.field field.id
  let type := fieldType names namespacePath field
  let missing :=
    match field.default? with
    | some literal => .computed ⟨defaultFunctionName name, type, defaultExpr field literal⟩
    | none => if field.optional then .absent else .refused
  ⟨field.name, name, fieldDoc field false, type, missing⟩

/-- The default function of a field, if it has one. -/
def StructField.defaultFunction? (field : StructField) : Option DefaultFunction :=
  match field.missing with
  | .computed function => some function
  | _ => none

/-- The struct of a type. -/
def structOf (names : NameTable) (type : TypeNode) : Struct :=
  ⟨names.type type.id, docLines type.doc? none,
    type.fields.map (structField names type.id.namespacePath)⟩

/-- The fields of a struct with the names of their default functions. -/
def Struct.defaultNames (struct : Struct) : List Naming :=
  struct.fields.filterMap fun field =>
    field.defaultFunction?.map fun function => ⟨field.source, function.name⟩

/-- The module of a namespace. -/
def moduleOf (names : NameTable) (graph : TypeGraph) (namespacePath : String) : Module :=
  ⟨stemOf namespacePath, (graph.typesIn namespacePath).map (structOf names)⟩

/-- The names of a graph in Rust. -/
def namesOf (options : NamingOptions) (graph : TypeGraph) : Except Unsupported NameTable :=
  NameTable.build graph .rust .perNamespace (structName options) (fieldName options)

/-- The first type of a graph with two default functions of one name. -/
def defaultCollision? (names : NameTable) (graph : TypeGraph) : Option Unsupported :=
  graph.types.findSome? fun type =>
    collisionIn? .rust type.id.shown (structOf names type).defaultNames

/-- The modules of a graph. -/
def build (options : NamingOptions) (graph : TypeGraph) : Except Unsupported (List Module) :=
  match ensureStemsDistinct .rust graph with
  | .error unsupported => .error unsupported
  | .ok _ =>
    match namesOf options graph with
    | .error unsupported => .error unsupported
    | .ok names =>
      match defaultCollision? names graph with
      | some unsupported => .error unsupported
      | none => .ok (graph.namespaces.map (moduleOf names graph))

/-! ## Printing -/

/-- The text of a type. -/
def RustType.text : RustType → String
  | .int64 => "i64"
  | .float64 => "f64"
  | .bool => "bool"
  | .string => "String"
  | .jsonValue => "serde_json::Value"
  | .struct none name => name
  | .struct (some module) name => "super::" ++ module ++ "::" ++ name
  | .vec element => "Vec<" ++ element.text ++ ">"
  | .box value => "Box<" ++ value.text ++ ">"
  | .option value => "Option<" ++ value.text ++ ">"

/-- The text of an expression. -/
def Expr.text : Expr → String
  | .int64 value => toString value ++ "_i64"
  | .float64 value => value.text ++ "_f64"
  | .plainFloat value => value.text
  | .boolean value => booleanWord value
  | .textLiteral content => quoted content
  | .ownedText content => quoted content ++ ".to_string()"
  | .jsonValue value => "serde_json::Value::from(" ++ value.text ++ ")"
  | .some value => "Some(" ++ value.text ++ ")"

/-- Doc comment lines. -/
def docComment (indent : String) (doc : List String) : List String :=
  doc.map fun line => if line = "" then indent ++ "///" else indent ++ "/// " ++ line

/-- The serde attributes of a field of the struct `owner`. -/
def StructField.attributes (owner : String) (field : StructField) : List String :=
  (if unraw field.name = field.source then [] else ["rename = \"" ++ field.source ++ "\""]) ++
    match field.missing with
    | .refused => []
    | .absent => ["default, skip_serializing_if = \"Option::is_none\""]
    | .computed function => ["default = \"" ++ owner ++ "::" ++ function.name ++ "\""]

/-- The lines of a field. -/
def StructField.lines (owner : String) (field : StructField) : List String :=
  let attributes := field.attributes owner
  docComment "    " field.doc ++
    (if attributes.isEmpty then []
      else ["    #[serde(" ++ String.intercalate ", " attributes ++ ")]"]) ++
    ["    pub " ++ field.name ++ ": " ++ field.type.text ++ ","]

/-- The lines of a default function. -/
def DefaultFunction.lines (function : DefaultFunction) : List String :=
  ["    fn " ++ function.name ++ "() -> " ++ function.type.text ++ " \x7b",
    "        " ++ function.body.text, "    \x7d"]

/-- The lines of functions, with an empty line between them. -/
def functionLines (functions : List DefaultFunction) : List String :=
  List.flatten (List.intersperse [""] (functions.map DefaultFunction.lines))

/-- The lines of a struct and of its default functions. -/
def Struct.lines (struct : Struct) : List String :=
  let functions := struct.fields.filterMap StructField.defaultFunction?
  docComment "" struct.doc ++
  "#[derive(Debug, Clone, PartialEq, Serialize, Deserialize)]" ::
    if struct.fields.isEmpty then ["pub struct " ++ struct.name ++ " \x7b\x7d"]
    else
      ["pub struct " ++ struct.name ++ " \x7b"] ++
        struct.fields.flatMap (StructField.lines struct.name) ++ ["\x7d"] ++
        if functions.isEmpty then []
        else ["", "impl " ++ struct.name ++ " \x7b"] ++ functionLines functions ++ ["\x7d"]

/-- The lines of a module. -/
def Module.lines (module : Module) : List String :=
  ["// " ++ banner, "", "use serde::\x7bDeserialize, Serialize\x7d;"] ++
    module.structs.flatMap fun struct => "" :: struct.lines

/-- The lines of the file that declares the modules, in the order of their identifiers. -/
def indexLines (modules : List Module) : List String :=
  ("// " ++ banner) ::
    (if modules.isEmpty then [] else [""]) ++
    (Text.nameSet (modules.map Module.stem)).map fun stem => "pub mod " ++ stem ++ ";"

/-- The path of a module. -/
def Module.path (module : Module) : String :=
  unraw module.stem ++ ".rs"

/-- The path of the file that declares the modules. -/
def indexPath : String := "mod.rs"

/-- The files of the Rust bindings. -/
def emit (options : NamingOptions) (graph : TypeGraph) : Except Unsupported (List EmittedFile) :=
  match build options graph with
  | .error unsupported => .error unsupported
  | .ok modules =>
    .ok (collectFiles
      ((modules.map fun module => .ofLines module.path module.lines) ++
        [.ofLines indexPath (indexLines modules)]))

end SchemaBindings.Bindings.RustModules
