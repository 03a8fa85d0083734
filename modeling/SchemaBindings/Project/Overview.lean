import SchemaBindings.Project.Schemas
import SchemaBindings.Text.Json

/-!
# An overview of a project

The overview tells what the manifest says and how many files every pattern finds. Schemas are not
read for it.
-/

namespace SchemaBindings

open SchemaBindings.Manifest (Target)
open SchemaBindings.Naming (Case)

/-- A pattern, and how many files it finds. -/
structure PatternCount where
  pattern : String
  count : Nat
deriving DecidableEq

/-- An overview of a project. -/
structure Overview where
  name : String
  manifestPath : Path
  schemas : List PatternCount
  targets : List Target
deriving DecidableEq

/-- The overview of the project in a directory. -/
def Project.overview {m : Type → Type} [Monad m] (storage : Storage m) (root : Path) :
    ExceptT ProjectError m Overview := do
  let project ← load storage root
  let counts ← project.manifest.schemas.mapM fun pattern =>
    return ⟨pattern, (← matches? storage project.root pattern).length⟩
  return {
    name := project.manifest.name
    manifestPath := project.manifestPath
    schemas := counts
    targets := project.manifest.targets }

/-- An overview for reading; its last line has no end. -/
def Overview.text (overview : Overview) : String :=
  let schemas := overview.schemas.map fun schema => s!"  {schema.pattern} ({schema.count} file(s))"
  let targets := overview.targets.map fun target => s!"  {target.language.word} -> {target.output}"
  String.intercalate "\n" <|
    [s!"project:  {overview.name}", s!"manifest: {overview.manifestPath.text}", "schemas:"] ++
      schemas ++ [if targets.isEmpty then "targets: none" else "targets:"] ++ targets

/-- An override of a case, if there is one. -/
def caseField (key : String) (case? : Option Case) : List (String × List String) :=
  case?.toList.flatMap fun case =>
    (Manifest.caseWords.filter fun entry => entry.2 = case).map
      fun entry => (key, Text.Json.text entry.1)

/-- A target as JSON. -/
def targetJson (target : Target) : List String :=
  Text.Json.record [("language", Text.Json.text target.language.word),
    ("output", Text.Json.text target.output),
    ("naming", Text.Json.record
      (caseField "types" target.naming.types? ++ caseField "fields" target.naming.fields?))]

/-- A pattern with its count as JSON. -/
def PatternCount.json (schema : PatternCount) : List String :=
  Text.Json.record [("pattern", Text.Json.text schema.pattern),
    ("matches", Text.Json.number schema.count)]

/-- The lines of an overview as JSON. -/
def Overview.json (overview : Overview) : List String :=
  Text.Json.record [("name", Text.Json.text overview.name),
    ("manifest", Text.Json.text overview.manifestPath.text),
    ("schemas", Text.Json.list (overview.schemas.map PatternCount.json)),
    ("targets", Text.Json.list (overview.targets.map targetJson))]

end SchemaBindings
