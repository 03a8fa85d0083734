import SchemaBindings.Bindings.Doc
import SchemaBindings.Bindings.Files
import SchemaBindings.Bindings.Names
import SchemaBindings.Text.Visible

/-!
# Python packages

Every namespace becomes a module of pydantic models, and an `__init__.py` imports the modules and
completes the models. Validators become constraints, and an attribute that is named differently from
its field gets the field's name as an alias.

A module is first made as a value: type hints, attributes and classes. What a module imports is
computed from this value. Then the module is printed.
-/

namespace SchemaBindings.Bindings.PythonPackage

open SchemaBindings.Bindings
open SchemaBindings.Graph (Field FieldType TypeId TypeNode)
open SchemaBindings.Naming (moduleStem)
open SchemaBindings.Number (Binary64)
open SchemaBindings.Schema (Literal Primitive Validator)
open SchemaBindings.Text (hexDigits isControl)

/-- Keywords, and the names that modules import. -/
def reserved : List String :=
  ["False", "None", "True", "and", "as", "assert", "async", "await", "break", "class",
    "continue", "def", "del", "elif", "else", "except", "finally", "for", "from", "global",
    "if", "import", "in", "is", "lambda", "nonlocal", "not", "or", "pass", "raise", "return",
    "try", "while", "with", "yield", "Annotated", "Any", "List", "Optional", "AnyUrl",
    "BaseModel", "ConfigDict", "Field", "annotations"]

/-- Names imported from `typing`, in the order in which they are imported. -/
inductive TypingName where
  | annotated
  | any
  | list
  | optional
deriving DecidableEq

/-- Names imported from `pydantic`, in the order in which they are imported. -/
inductive PydanticName where
  | anyUrl
  | baseModel
  | configDict
  | field
deriving DecidableEq

/-- A constraint on the values of an attribute. -/
inductive Constraint where
  | strict
  | atLeast (bound : Nat)
  | atMost (bound : Nat)
deriving DecidableEq

/-- A type hint. A model of another module is reached through that module. -/
inductive Hint where
  | int
  | float
  | bool
  | str
  | any
  | anyUrl
  | model (module? : Option String) (name : String)
  | list (element : Hint)
  | optional (value : Hint)
  | annotated (value : Hint) (constraints : List Constraint)
deriving DecidableEq

/-- A value in an initialiser. -/
inductive Value where
  | none
  | integer (value : Int)
  | wholeFloat (value : Int)
  | float (value : Binary64)
  | boolean (value : Bool)
  | string (content : String)
deriving DecidableEq

/-- What an attribute is set to: a value, or a field with an alias. -/
inductive Initialiser where
  | plain (value : Value)
  | field (default? : Option Value) (key : String)
deriving DecidableEq

/-- An attribute of a class. -/
structure Attribute where
  name : String
  comment : List String
  hint : Hint
  initialiser? : Option Initialiser
deriving DecidableEq

/-- A class. One with renamed attributes is configured to accept either name. -/
structure Class where
  name : String
  doc : List String
  configured : Bool
  attributes : List Attribute
deriving DecidableEq

/-- A module with the sibling modules that it imports. -/
structure Module where
  stem : String
  siblings : List String
  classes : List Class
deriving DecidableEq

/-- A package: its modules, and the models to complete, each with its module. -/
structure Package where
  modules : List Module
  models : List (String × String)
deriving DecidableEq

/-! ## From types to classes -/

/-- The stem of a namespace's module. -/
def stemOf (namespacePath : String) : String :=
  escape reserved (moduleStem namespacePath)

/-- The name of a class. -/
def className (options : NamingOptions) (type : TypeNode) : String :=
  escape reserved (options.typeName .python type.id.name)

/-- The name of an attribute. -/
def attributeName (options : NamingOptions) (field : Field) : String :=
  escape reserved (options.fieldName .python field.name)

/-- The hint for a type, in a module of the given namespace. -/
def typeHint (names : NameTable) (namespacePath : String) : FieldType → Hint
  | .primitive .int => .int
  | .primitive .float => .float
  | .primitive .bool => .bool
  | .primitive .string => .str
  | .primitive .any => .any
  | .named id =>
    .model (if id.namespacePath = namespacePath then none else some (stemOf id.namespacePath))
      (names.type id)
  | .list element => .list (typeHint names namespacePath element)

/-- The constraints for validators. A URL is checked by its type and needs no strictness. -/
def constraintsFor (validators : List Validator) : List Constraint :=
  (if (.number ∈ validators ∨ .string ∈ validators) ∧ .url ∉ validators then [.strict] else []) ++
    if .port ∈ validators then [.atLeast 0, .atMost 65535] else []

/-- The hint for a field. -/
def fieldHint (names : NameTable) (namespacePath : String) (field : Field) : Hint :=
  let base :=
    if Validator.url ∈ field.validators then .anyUrl else typeHint names namespacePath field.type
  let constraints := constraintsFor field.validators
  let checked := if constraints.isEmpty then base else .annotated base constraints
  if field.optional then .optional checked else checked

/-- The value of a literal at a type. -/
def valueOf (type : FieldType) : Literal → Value
  | .integer value => if type = .primitive .float then .wholeFloat value else .integer value
  | .float value => .float value
  | .boolean value => .boolean value
  | .text content => .string content

/-- The value of a field that is not given, if it may be missing. -/
def defaultOf (field : Field) : Option Value :=
  match field.default? with
  | some literal => some (valueOf field.type literal)
  | none => if field.optional then some .none else none

/-- What the attribute of a field is set to. -/
def initialiserOf (field : Field) (renamed : Bool) : Option Initialiser :=
  if renamed then some (.field (defaultOf field) field.name)
  else (defaultOf field).map .plain

/-- The attribute of a field. -/
def attributeOf (names : NameTable) (namespacePath : String) (field : Field) : Attribute :=
  let name := names.field field.id
  ⟨name, docLines field.doc? none, fieldHint names namespacePath field,
    initialiserOf field (name ≠ field.name)⟩

/-- The class of a type. -/
def classOf (names : NameTable) (type : TypeNode) : Class :=
  ⟨names.type type.id, docLines type.doc? none,
    type.fields.any fun field => names.field field.id ≠ field.name,
    type.fields.map (attributeOf names type.id.namespacePath)⟩

/-- The module of a namespace. -/
def moduleOf (names : NameTable) (graph : TypeGraph) (namespacePath : String) : Module :=
  ⟨stemOf namespacePath, (graph.foreignNamespaces namespacePath).map stemOf,
    (graph.typesIn namespacePath).map (classOf names)⟩

/-- The names of a graph in Python. -/
def namesOf (options : NamingOptions) (graph : TypeGraph) : Except Unsupported NameTable :=
  NameTable.build graph .python .perNamespace (className options) (attributeName options)

/-- The package of a graph. -/
def build (options : NamingOptions) (graph : TypeGraph) : Except Unsupported Package :=
  match ensureStemsDistinct .python graph with
  | .error unsupported => .error unsupported
  | .ok _ =>
    match namesOf options graph with
    | .error unsupported => .error unsupported
    | .ok names =>
      .ok ⟨graph.namespaces.map (moduleOf names graph),
        graph.types.map fun type => (stemOf type.id.namespacePath, names.type type.id)⟩

/-! ## Imports -/

/-- Names from `typing` that a hint needs. -/
def Hint.typingNames : Hint → List TypingName
  | .any => [.any]
  | .list element => .list :: element.typingNames
  | .optional value => .optional :: value.typingNames
  | .annotated value _ => .annotated :: value.typingNames
  | _ => []

/-- Names from `pydantic` that a hint needs. -/
def Hint.pydanticNames : Hint → List PydanticName
  | .anyUrl => [.anyUrl]
  | .list element => element.pydanticNames
  | .optional value => value.pydanticNames
  | .annotated value _ => .field :: value.pydanticNames
  | _ => []

/-- Names from `pydantic` that an attribute needs. -/
def Attribute.pydanticNames (member : Attribute) : List PydanticName :=
  member.hint.pydanticNames ++
    match member.initialiser? with
    | some (.field _ _) => [.field]
    | _ => []

/-- Names from `pydantic` that a class needs. -/
def Class.pydanticNames (model : Class) : List PydanticName :=
  (if model.configured then [.configDict] else []) ++
    model.attributes.flatMap Attribute.pydanticNames

/-- The names that a module imports from `typing`. -/
def Module.typingImports (module : Module) : List TypingName :=
  [.annotated, .any, .list, .optional].filter fun name =>
    module.classes.any fun model =>
      model.attributes.any fun member => decide (name ∈ member.hint.typingNames)

/-- The names that a module imports from `pydantic`. Every model needs the base class. -/
def Module.pydanticImports (module : Module) : List PydanticName :=
  [.anyUrl, .baseModel, .configDict, .field].filter fun name =>
    name = .baseModel || module.classes.any fun model => decide (name ∈ model.pydanticNames)

/-! ## Printing -/

/-- The text of a name from `typing`. -/
def TypingName.text : TypingName → String
  | .annotated => "Annotated"
  | .any => "Any"
  | .list => "List"
  | .optional => "Optional"

/-- The text of a name from `pydantic`. -/
def PydanticName.text : PydanticName → String
  | .anyUrl => "AnyUrl"
  | .baseModel => "BaseModel"
  | .configDict => "ConfigDict"
  | .field => "Field"

/-- The text of a constraint. -/
def Constraint.text : Constraint → String
  | .strict => "strict=True"
  | .atLeast bound => s!"ge={bound}"
  | .atMost bound => s!"le={bound}"

/-- The text of a hint. -/
def Hint.text : Hint → String
  | .int => "int"
  | .float => "float"
  | .bool => "bool"
  | .str => "str"
  | .any => "Any"
  | .anyUrl => "AnyUrl"
  | .model none name => name
  | .model (some module) name => module ++ "." ++ name
  | .list element => "List[" ++ element.text ++ "]"
  | .optional value => "Optional[" ++ value.text ++ "]"
  | .annotated value constraints =>
    "Annotated[" ++ value.text ++ ", Field(" ++
      String.intercalate ", " (constraints.map Constraint.text) ++ ")]"

/-- The form of one character in a string literal. Controls without a short escape are written with
two hexadecimal digits. -/
def escapeChar (c : Char) : List Char :=
  match c with
  | '"' => ['\\', '"']
  | '\\' => ['\\', '\\']
  | '\n' => ['\\', 'n']
  | '\r' => ['\\', 'r']
  | '\t' => ['\\', 't']
  | c =>
    if isControl c then
      ['\\', 'x'] ++ (if c.toNat < 16 then ['0'] else []) ++ hexDigits c.toNat
    else [c]

/-- A string literal. -/
def quoteChars (content : List Char) : List Char :=
  '"' :: content.flatMap escapeChar ++ ['"']

/-- A string literal. -/
def quote (content : String) : String :=
  String.ofList (quoteChars content.toList)

/-- The text of a value. -/
def Value.text : Value → String
  | .none => "None"
  | .integer value => toString value
  | .wholeFloat value => toString value ++ ".0"
  | .float value => value.text
  | .boolean value => if value then "True" else "False"
  | .string content => quote content

/-- The text of an initialiser. -/
def Initialiser.text : Initialiser → String
  | .plain value => value.text
  | .field (some value) key => s!"Field(default={value.text}, alias={quote key})"
  | .field none key => s!"Field(alias={quote key})"

/-- The lines of an attribute. -/
def Attribute.lines (member : Attribute) : List String :=
  (member.comment.map fun line => "    # " ++ line) ++
    [match member.initialiser? with
      | some initialiser =>
        "    " ++ member.name ++ ": " ++ member.hint.text ++ " = " ++ initialiser.text
      | none => "    " ++ member.name ++ ": " ++ member.hint.text]

/-- A text in which every run of three quotes is escaped. -/
def escapeTripleQuotes : List Char → List Char
  | [] => []
  | '"' :: '"' :: '"' :: rest => '\\' :: '"' :: '\\' :: '"' :: '\\' :: '"' ::
      escapeTripleQuotes rest
  | c :: rest => c :: escapeTripleQuotes rest

/-- A line that may stand inside a docstring. -/
def docstringLine (line : String) : String :=
  String.ofList (escapeTripleQuotes line.toList)

/-- The lines of a docstring. -/
def docstring : List String → List String
  | [line] => ["    \"\"\"" ++ docstringLine line ++ "\"\"\""]
  | doc =>
    "    \"\"\"" ::
      (doc.map fun line => if docstringLine line = "" then "" else "    " ++ docstringLine line) ++
      ["    \"\"\""]

/-- The lines of a class. -/
def Class.lines (model : Class) : List String :=
  ("class " ++ model.name ++ "(BaseModel):") ::
    (if model.doc.isEmpty then []
      else docstring model.doc ++ if model.attributes.isEmpty then [] else [""]) ++
    (if model.configured then ["    model_config = ConfigDict(populate_by_name=True)", ""]
      else []) ++
    model.attributes.flatMap Attribute.lines ++
    if model.attributes.isEmpty && model.doc.isEmpty then ["    pass"] else []

/-- Names with commas between them. -/
def commaList (names : List String) : String :=
  String.intercalate ", " names

/-- The lines of a module. -/
def Module.lines (module : Module) : List String :=
  ["# " ++ banner, "", "from __future__ import annotations", ""] ++
  (if module.typingImports.isEmpty then []
    else ["from typing import " ++ commaList (module.typingImports.map TypingName.text), ""]) ++
  ["from pydantic import " ++ commaList (module.pydanticImports.map PydanticName.text)] ++
  (if module.siblings.isEmpty then []
    else "" :: module.siblings.map fun stem => "from . import " ++ stem) ++
  module.classes.flatMap fun model => "" :: "" :: model.lines

/-- The lines of the file that makes the package. -/
def Package.initLines (package : Package) : List String :=
  ("# " ++ banner) ::
    if package.modules.isEmpty then []
    else
      "" :: (package.modules.map fun module => "from . import " ++ module.stem) ++
        "" :: package.models.map fun model => model.1 ++ "." ++ model.2 ++ ".model_rebuild()"

/-- The path of a module. -/
def Module.path (module : Module) : String :=
  module.stem ++ ".py"

/-- The path of the file that makes the package. -/
def initPath : String := "__init__.py"

/-- The files of the Python bindings. -/
def emit (options : NamingOptions) (graph : TypeGraph) : Except Unsupported (List EmittedFile) :=
  match build options graph with
  | .error unsupported => .error unsupported
  | .ok package =>
    .ok (collectFiles
      ((package.modules.map fun module => .ofLines module.path module.lines) ++
        [.ofLines initPath package.initLines]))

end SchemaBindings.Bindings.PythonPackage
