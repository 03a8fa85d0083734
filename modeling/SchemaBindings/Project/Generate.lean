import SchemaBindings.Bindings.Emit
import SchemaBindings.Bindings.WriteOut
import SchemaBindings.Project.Schemas

/-!
# Making the bindings of a project

All schemas of a project are checked before anything is written. Then its targets are made one after
the other. A target that fails does not stop the others; the report says how each one went.
-/

namespace SchemaBindings

open SchemaBindings.Bindings (Language Unsupported WriteFailure)
open SchemaBindings.Manifest (Target)

/-- Why a target was not made. -/
inductive TargetFailure where
  | unsupported (cause : Unsupported)
  | unwritten (cause : WriteFailure)
  | cancelled
deriving DecidableEq

/-- The line that reports why. -/
def TargetFailure.shown : TargetFailure → String
  | .unsupported cause => cause.shown
  | .unwritten cause => cause.shown
  | .cancelled => "cancelled before completion"

/-- How a target went: how many files it has, or why it was not made. -/
structure TargetReport where
  language : Language
  output : String
  outcome : Except TargetFailure Nat

/-- How the targets of a project went. -/
structure Report where
  project : String
  targets : List TargetReport

/-- Whether a target failed. -/
def TargetReport.failed (target : TargetReport) : Bool :=
  match target.outcome with
  | .ok _ => false
  | .error _ => true

/-- The targets that failed. -/
def Report.failures (report : Report) : List TargetReport :=
  report.targets.filter TargetReport.failed

/-- Whether every target was made. -/
def Report.success (report : Report) : Bool :=
  report.failures.isEmpty

/-- How many files were written. -/
def Report.filesWritten (report : Report) : Nat :=
  report.targets.foldl (fun count target => count + target.outcome.toOption.getD 0) 0

namespace Project

variable {m : Type → Type} [Monad m] (storage : Storage m)

/-- Makes a target: emits its files and writes them. -/
def makeTarget (project : Project) (graph : TypeGraph) (cancelled : Bool) (target : Target) :
    ExceptT TargetFailure m Nat := do
  if cancelled then throw .cancelled
  match Bindings.emit target.language target.naming graph with
  | .error cause => throw (.unsupported cause)
  | .ok files => (Bindings.writeOut storage (project.outputOf target) files).adapt .unwritten

/-- Makes a target and reports how it went. -/
def reportTarget (project : Project) (graph : TypeGraph) (cancelled : Bool) (target : Target) :
    m TargetReport := do
  let outcome ← (makeTarget storage project graph cancelled target).run
  return ⟨target.language, target.output, outcome⟩

/-- Makes the bindings of the project in a directory. -/
def generate (root : Path) (cancelled : Bool) : ExceptT ProjectError m Report := do
  let project ← load storage root
  let graph ← readGraph storage project
  let targets ← ExceptT.lift
    (project.manifest.targets.mapM (reportTarget storage project graph cancelled))
  return ⟨project.manifest.name, targets⟩

end Project

end SchemaBindings
