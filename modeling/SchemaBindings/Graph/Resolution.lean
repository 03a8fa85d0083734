import SchemaBindings.Graph.Error

/-!
# From declarations to types

The first declaration of a name counts; later ones are errors. References are looked up among the
declared names: an unqualified name means a built-in type, else a type of the field's own namespace,
else one of the root namespace; a qualified name means exactly the type of that namespace. Then
defaults and validators are checked against the type found. Every check runs, whatever the others
find.
-/

namespace SchemaBindings.Graph

open SchemaBindings.Schema (Literal Primitive SchemaFile TypeDecl TypeRef Validator dotted)

/-- The identity of a declared type. -/
def declaredId (declaration : TypeDecl) : TypeId :=
  ⟨declaration.namespacePath, declaration.name⟩

/-- The declarations of all files, in order. -/
def declarationsOf (files : List SchemaFile) : List TypeDecl :=
  files.flatMap SchemaFile.declarations

/-! ## Repeated definitions -/

/-- The errors for fields that repeat the name of an earlier one. -/
def duplicateFields (owner : TypeId) (earlier : List Schema.Field) :
    List Schema.Field → List GraphError
  | [] => []
  | field :: rest =>
    (match earlier.find? fun other => other.name = field.name with
      | some first => [.duplicateField ⟨owner, field.name⟩ first.span field.span]
      | none => []) ++ duplicateFields owner (earlier ++ [field]) rest

/-- The errors for types that repeat an earlier one, and for fields repeated within a type. -/
def duplicates (earlier : List TypeDecl) : List TypeDecl → List GraphError
  | [] => []
  | declaration :: rest =>
    (match earlier.find? fun other => declaredId other = declaredId declaration with
      | some first => [.duplicateType (declaredId declaration) first.span declaration.span]
      | none => []) ++
      duplicateFields (declaredId declaration) [] declaration.fields ++
        duplicates (earlier ++ [declaration]) rest

/-- The elements of a list that are the first with their key. -/
def firstBy {α β : Type} [DecidableEq β] (key : α → β) : List α → List α
  | [] => []
  | a :: rest => a :: (firstBy key rest).filter fun other => key other ≠ key a

/-- The declarations that count, in the order of types. -/
def firstDeclarations (files : List SchemaFile) : List TypeDecl :=
  (firstBy declaredId (declarationsOf files)).mergeSort
    fun a b => (declaredId a).upTo (declaredId b)

/-! ## Looking up references -/

/-- The types that a name may mean, the preferred one first. -/
def candidates (namespacePath : String) (qualifier : List String) (name : String) : List TypeId :=
  if qualifier.isEmpty then [⟨namespacePath, name⟩, ⟨"", name⟩] else [⟨dotted qualifier, name⟩]

/-- Looks up the type that a reference in a namespace means. Fails with the name that means
nothing. -/
def resolve (known : List TypeId) (namespacePath : String) : TypeRef → Except TypeRef FieldType
  | .list element =>
    match resolve known namespacePath element with
    | .ok type => .ok (.list type)
    | .error reference => .error reference
  | .named qualifier name =>
    match if qualifier.isEmpty then Primitive.ofWord? name else none with
    | some primitive => .ok (.primitive primitive)
    | none =>
      match (candidates namespacePath qualifier name).find? fun id => id ∈ known with
      | some id => .ok (.named id)
      | none => .error (.named qualifier name)

/-! ## Defaults and validators -/

/-- Whether a default value fits a type. -/
def defaultFits : FieldType → Literal → Bool
  | .primitive .any, _ => true
  | .primitive .int, .integer _ => true
  | .primitive .float, .integer _ => true
  | .primitive .float, .float _ => true
  | .primitive .bool, .boolean _ => true
  | .primitive .string, .text _ => true
  | _, _ => false

/-- Whether a validator can check values of a type. Validators check single built-in values only. -/
def validatorFits : Validator → FieldType → Bool
  | .number, .primitive .int => true
  | .number, .primitive .float => true
  | .port, .primitive .int => true
  | .string, .primitive .string => true
  | .url, .primitive .string => true
  | _, _ => false

/-- Whether a number is a port. -/
def isPort (value : Int) : Bool :=
  0 ≤ value && value ≤ 65535

/-- The error for a default value that does not fit. -/
def defaultErrors (id : FieldId) (type : FieldType) (field : Schema.Field) : List GraphError :=
  match field.default? with
  | some value => if defaultFits type value then [] else [.unfitDefault id type value field.span]
  | none => []

/-- The errors for validators that do not fit. -/
def validatorErrors (id : FieldId) (type : FieldType) (field : Schema.Field) : List GraphError :=
  (field.validators.filter fun validator => !validatorFits validator type).map fun validator =>
    .unfitValidator id validator type field.span

/-- The error for an integer default of a port that is none. -/
def portErrors (id : FieldId) (type : FieldType) (field : Schema.Field) : List GraphError :=
  match field.default? with
  | some (.integer value) =>
    if Validator.port ∈ field.validators ∧ !isPort value then
      [.portOutOfRange id type value field.span]
    else []
  | _ => []

/-- The field that a declared one becomes, or the error that its reference means nothing. -/
def resolveField (known : List TypeId) (owner : TypeId) (field : Schema.Field) :
    Except GraphError Field :=
  let id : FieldId := ⟨owner, field.name⟩
  match resolve known owner.namespacePath field.type with
  | .error reference => .error (.unresolved id reference field.span)
  | .ok type =>
    .ok ⟨id, type, field.optional, field.default?, field.validators, field.doc?, false, field.span⟩

/-- The errors of one field. -/
def fieldErrors (known : List TypeId) (owner : TypeId) (field : Schema.Field) : List GraphError :=
  match resolveField known owner field with
  | .error error => [error]
  | .ok resolved =>
    defaultErrors resolved.id resolved.type field ++
      validatorErrors resolved.id resolved.type field ++ portErrors resolved.id resolved.type field

/-- The fields of a declaration that count, in source order. -/
def firstFields (declaration : TypeDecl) : List Schema.Field :=
  firstBy Schema.Field.name declaration.fields

/-- The errors of the fields of a declaration. -/
def declarationErrors (known : List TypeId) (declaration : TypeDecl) : List GraphError :=
  (firstFields declaration).flatMap (fieldErrors known (declaredId declaration))

/-- The type that a declaration becomes. Fields whose reference means nothing are left out. -/
def resolveDeclaration (known : List TypeId) (declaration : TypeDecl) : TypeNode :=
  let fields := (firstFields declaration).filterMap fun field =>
    (resolveField known (declaredId declaration) field).toOption
  ⟨declaredId declaration, fields.mergeSort fun a b => a.name ≤ b.name, declaration.doc?,
    declaration.span⟩

end SchemaBindings.Graph
