import SchemaBindings.Graph.Basic

/-!
# Errors among declarations

What can be wrong with schema files that are correct each on its own. Each error is kept as its
cause; one function gives the line that reports it.
-/

namespace SchemaBindings.Graph

open SchemaBindings.Schema (Literal Span TypeRef Validator)

/-- Why declarations do not make a type graph. -/
inductive GraphError where
  | duplicateType (id : TypeId) (first second : Span)
  | duplicateField (id : FieldId) (first second : Span)
  | unresolved (field : FieldId) (reference : TypeRef) (span : Span)
  | unfitDefault (field : FieldId) (type : FieldType) (value : Literal) (span : Span)
  | unfitValidator (field : FieldId) (validator : Validator) (type : FieldType) (span : Span)
  | portOutOfRange (field : FieldId) (type : FieldType) (value : Int) (span : Span)
  | containsItself (id : TypeId) (cycle : List TypeId) (span : Span)
deriving DecidableEq

/-- The place that an error is reported at. -/
def GraphError.span : GraphError → Span
  | .duplicateType _ _ second => second
  | .duplicateField _ _ second => second
  | .unresolved _ _ span => span
  | .unfitDefault _ _ _ span => span
  | .unfitValidator _ _ _ span => span
  | .portOutOfRange _ _ _ span => span
  | .containsItself _ _ span => span

/-- The message of a default value that does not fit. -/
def unfitDefaultMessage (value field type : String) : String :=
  s!"default value {value} does not fit field `{field}` of type `{type}`"

/-- The message of a repeated definition. -/
def duplicateMessage (kind name : String) (first : Span) : String :=
  s!"duplicate definition of {kind} `{name}` (first defined at {first.shown})"

/-- The message of an error, without its place. -/
def GraphError.message : GraphError → String
  | .duplicateType id first _ => duplicateMessage "type" id.shown first
  | .duplicateField id first _ => duplicateMessage "field" id.shown first
  | .unresolved field reference _ =>
    s!"field `{field.shown}` refers to unknown type `{reference.shown}`"
  | .unfitDefault field type value _ => unfitDefaultMessage value.shown field.shown type.shown
  | .unfitValidator field validator type _ =>
    s!"validator `{validator.shown}` cannot check field `{field.shown}` of type `{type.shown}`"
  | .portOutOfRange field type value _ =>
    unfitDefaultMessage (toString value) field.shown (type.shown ++ " " ++ Validator.port.shown)
  | .containsItself id cycle _ =>
    let names := String.intercalate " -> " (cycle.map TypeId.shown)
    s!"type `{id.shown}` contains itself through non-optional fields ({names})"

/-- The line that reports an error. -/
def GraphError.shown (error : GraphError) : String :=
  error.span.shown ++ ": " ++ error.message

end SchemaBindings.Graph
