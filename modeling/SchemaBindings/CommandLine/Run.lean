import SchemaBindings.CommandLine.Arguments
import SchemaBindings.Project.Generate
import SchemaBindings.Project.Overview

/-!
# Carrying out a command line

A command line is carried out on some storage. What comes out is what is printed and the exit code.
Problems go to the error output, one line each, followed by a note that tells what was being done.
-/

namespace SchemaBindings.CommandLine

/-- What a run prints, and its exit code. -/
structure Outcome where
  exitCode : Nat
  output : String
  errors : String
deriving DecidableEq

/-- The name and the version of the program. -/
def versionLine : String := "athalar 0.1.0"

/-- How the program is used. -/
def usage : List String :=
  ["Usage: athalar [OPTIONS] <COMMAND>",
    "",
    "Commands:",
    "  info      Report project info",
    "  generate  Generate bindings from a project directory",
    "  help      Print this message",
    "",
    "Options:",
    "  -v, --verbose  Log debug output",
    "  -h, --help     Print help",
    "  -V, --version  Print version"]

/-- What is wrong with a command line that is refused. -/
def Refusal.message : Refusal → String
  | .helpWanted => "help was asked for"
  | .versionWanted => "the version was asked for"
  | .nothingGiven => "no command was given"
  | .commandMissing => "a command is missing"
  | .commandUnknown => "there is no such command"
  | .argumentUnknown => "there is an argument that nothing takes"
  | .valueInvalid => "a value is missing or not allowed"
  | .givenTwice => "an option is given twice"
  | .valueSurplus => "a flag takes no value"

/-- What a refused command line prints. Requests for a text are no failures. -/
def Outcome.ofRefusal : Refusal → Outcome
  | .helpWanted => ⟨0, Text.unlines usage, ""⟩
  | .versionWanted => ⟨0, Text.unlines [versionLine], ""⟩
  | .nothingGiven => ⟨2, "", Text.unlines usage⟩
  | refusal => ⟨2, "", Text.unlines (("error: " ++ refusal.message) :: "" :: usage.take 1)⟩

/-- What is printed when there is a problem with the project. -/
def Outcome.ofError (activity : String) (error : ProjectError) : Outcome :=
  let lines := error.diagnostics.map ("error: " ++ ·)
  ⟨1, "", Text.unlines (lines ++ ["note: " ++ activity])⟩

/-- What is printed about an overview. -/
def Outcome.ofOverview (format : Format) (overview : Overview) : Outcome :=
  match format with
  | .plain => ⟨0, Text.unlines [overview.text], ""⟩
  | .json => ⟨0, Text.unlines overview.json, ""⟩

/-- The line for a target that failed. -/
def failureLine (target : TargetReport) (failure : TargetFailure) : String :=
  s!"error: {target.language.word} ({target.output}): {failure.shown}"

/-- What is printed about targets: nothing, unless some failed. -/
def Outcome.ofReport (report : Report) : Outcome :=
  let lines := report.targets.filterMap fun target =>
    match target.outcome with
    | .ok _ => none
    | .error failure => some (failureLine target failure)
  if report.success then ⟨0, "", ""⟩
  else
    let summary := s!"error: {report.failures.length} of {report.targets.length} target(s) failed"
    ⟨1, "", Text.unlines (lines ++ [summary])⟩

variable {m : Type → Type} [Monad m] (storage : Storage m)

/-- Reports on the project in a directory. -/
def runInfo (root : Path) (format : Format) : m Outcome := do
  match ← (Project.overview storage root).run with
  | .ok overview => return .ofOverview format overview
  | .error error => return .ofError s!"Inspecting {root.text}" error

/-- Makes the bindings of the project in a directory. -/
def runGenerate (root : Path) : m Outcome := do
  match ← (Project.generate storage root false).run with
  | .ok report => return .ofReport report
  | .error error => return .ofError s!"Generating bindings for {root.text}" error

/-- The directory that a command is about. -/
def rootOf (workingDirectory : Path) : Option String → Path
  | some path => ⟨path⟩
  | none => workingDirectory

/-- Carries out a command line. -/
def run (workingDirectory : Path) (words : List String) : m Outcome :=
  match Invocation.ofWords words with
  | .error refusal => return .ofRefusal refusal
  | .ok ⟨_, .info path? format⟩ => runInfo storage (rootOf workingDirectory path?) format
  | .ok ⟨_, .generate path?⟩ => runGenerate storage (rootOf workingDirectory path?)

end SchemaBindings.CommandLine
