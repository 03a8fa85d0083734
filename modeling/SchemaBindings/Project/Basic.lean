import SchemaBindings.Glob.Pattern
import SchemaBindings.Graph.Error
import SchemaBindings.Manifest.Fault
import SchemaBindings.Manifest.Basic
import SchemaBindings.Schema.SyntaxError
import SchemaBindings.Storage.Basic

/-!
# Projects

A project is a directory with a manifest. What stands against working on one is kept as a cause; a
cause may consist of several problems, each of which has a line of its own.
-/

namespace SchemaBindings

open SchemaBindings.Bindings (Language)
open SchemaBindings.Manifest (ManifestError Target)

/-- A project, with its manifest. -/
structure Project where
  root : Path
  manifestPath : Path
  manifest : Manifest

/-- The directory for the files of a target. -/
def Project.outputOf (project : Project) (target : Target) : Path :=
  project.root.join ⟨target.output⟩

/-- Why there is no project in a directory. -/
inductive Absence where
  | noDirectory
  | noManifest
deriving DecidableEq

/-- How the reason is described. -/
def Absence.message : Absence → String
  | .noDirectory => "path does not exist"
  | .noManifest => s!"no {Manifest.fileName} found"

/-- Why a file could not be read as text. -/
inductive ReadFault where
  | obstacle (cause : Obstacle)
  | notText
deriving DecidableEq

/-- How the fault is described. -/
def ReadFault.message : ReadFault → String
  | .obstacle cause => cause.message
  | .notText => "stream did not contain valid UTF-8"

/-- What stands against working on a project. -/
inductive ProjectError where
  | absent (root : Path) (reason : Absence)
  | unreadable (path : Path) (fault : ReadFault)
  | badManifest (cause : ManifestError)
  | outputConflict (output : String) (first second : Language)
  | badPattern (text : String) (fault : Glob.PatternFault)
  | unmatched (patterns : List String)
  | badSyntax (errors : List Schema.SyntaxError)
  | badSchema (errors : List Graph.GraphError)
deriving DecidableEq

/-- The line that sums an error up. -/
def ProjectError.shown : ProjectError → String
  | .absent root reason => s!"no project found at {root.text}: {reason.message}"
  | .unreadable path _ => s!"failed to read {path.text}"
  | .badManifest cause => cause.shown
  | .outputConflict output first second =>
    s!"targets `{first.word}` and `{second.word}` both write to {output}"
  | .badPattern text fault => s!"invalid schema pattern `{text}`: {fault.message}"
  | .unmatched patterns =>
    s!"schema pattern(s) matched no files: " ++ String.intercalate ", " patterns
  | .badSyntax errors => s!"found {errors.length} syntax error(s)"
  | .badSchema errors => s!"found {errors.length} schema error(s)"

/-- The lines for all problems of an error. -/
def ProjectError.diagnostics (error : ProjectError) : List String :=
  match error with
  | .badSyntax errors => errors.map Schema.SyntaxError.shown
  | .badSchema errors => errors.map Graph.GraphError.shown
  | .unreadable _ fault => [error.shown ++ ": " ++ fault.message]
  | _ => [error.shown]

end SchemaBindings
