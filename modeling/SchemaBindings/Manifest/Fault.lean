import SchemaBindings.Schema.Literal
import SchemaBindings.Text.Position

/-!
# What is wrong with a manifest

A manifest may be no TOML document at all, or one whose fields are missing, unknown or of another
type. Each fault is kept as its cause; one function gives the message.
-/

namespace SchemaBindings.Manifest

open SchemaBindings.Number (Binary64 positional)
open SchemaBindings.Text (Position quoted)

/-- The kinds of values, as far as messages tell them apart. -/
inductive Found where
  | text (content : String)
  | integer (value : Int)
  | float (value : Binary64)
  | boolean (value : Bool)
  | sequence
  | map
deriving DecidableEq

/-- Positional notation of a number, whatever its size. -/
def positionalText : Binary64 → String
  | .finite negative mantissa exponent =>
    let magnitude :=
      if mantissa = 0 then ['0', '.', '0']
      else
        let decimal := (Number.shortest mantissa exponent).strip
        positional (Nat.toDigits 10 decimal.digits) decimal.exponent
    String.ofList (if negative then '-' :: magnitude else magnitude)
  | value => value.text

/-- How messages show a value of the wrong kind. -/
def Found.shown : Found → String
  | .text content => "string " ++ quoted content
  | .integer value => s!"integer `{value}`"
  | .float value => s!"floating point `{positionalText value}`"
  | .boolean value => s!"boolean `{Schema.booleanWord value}`"
  | .sequence => "sequence"
  | .map => "map"

/-- What was allowed instead. -/
inductive Wanted where
  | text
  | sequence
  | path
  | target
  | naming
deriving DecidableEq

/-- How messages name what was allowed. -/
def Wanted.shown : Wanted → String
  | .text => "a string"
  | .sequence => "a sequence"
  | .path => "path string"
  | .target => "struct TargetConfig"
  | .naming => "struct NamingOptions"

/-- Why a text is not a manifest. -/
inductive Cause where
  | malformed
  | missingField (name : String)
  | unknownField (name : String) (known : List String)
  | unknownVariant (name : String) (known : List String)
  | wrongType (found : Found) (wanted : Wanted)
  | notAWord
  | notOneVariant (more : Bool)
  | variantWithContent (found? : Option String)
  | tooShort (count : Nat) (wanted : Wanted) (size : Nat)
deriving DecidableEq

/-- Names between backticks, the way messages list what is allowed. -/
def oneOf (names : List String) : String :=
  match names.map fun name => s!"`{name}`" with
  | [first, second] => first ++ " or " ++ second
  | [only] => only
  | shown => "one of " ++ String.intercalate ", " shown

/-- The message of a cause. -/
def Cause.message : Cause → String
  | .malformed => "invalid document"
  | .missingField name => s!"missing field `{name}`"
  | .unknownField name known => s!"unknown field `{name}`, expected {oneOf known}"
  | .unknownVariant name known => s!"unknown variant `{name}`, expected {oneOf known}"
  | .wrongType found wanted => s!"invalid type: {found.shown}, expected {wanted.shown}"
  | .notAWord => "wanted string or table"
  | .notOneVariant more =>
    if more then "wanted exactly 1 element, more than 1 element"
    else "wanted exactly 1 element, found 0 elements"
  | .variantWithContent none => "expected empty table"
  | .variantWithContent (some found) => s!"expected table, found {found}"
  | .tooShort count wanted size =>
    s!"invalid length {count}, expected {wanted.shown} with {size} elements"

/-- A cause, with its place if it is known. -/
structure Fault where
  cause : Cause
  place? : Option Position
deriving DecidableEq

/-- A fault that keeps its place, or gets the given one. -/
def Fault.orAt (fault : Fault) (place? : Option Position) : Fault :=
  { fault with place? := fault.place?.or place? }

/-- An invalid manifest. -/
structure ManifestError where
  file : String
  place : Position
  cause : Cause
deriving DecidableEq

/-- The line that reports an invalid manifest. -/
def ManifestError.shown (error : ManifestError) : String :=
  s!"{error.file}:{error.place.line}:{error.place.column}: invalid manifest: {error.cause.message}"

end SchemaBindings.Manifest
