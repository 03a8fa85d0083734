import SchemaBindings.Manifest.Decode
import SchemaBindings.Path.Place
import SchemaBindings.Project.Basic

/-!
# Loading a project

A project is loaded by reading its manifest. No two targets may write to the same place.
-/

namespace SchemaBindings.Project

open SchemaBindings.Manifest (Target)

/-- The reduced output directory of a target. -/
def outputPlace (root : Path) (target : Target) : List Path.Component :=
  (root.join ⟨target.output⟩).reduced

/-- The first target that writes where an earlier one does, after that one. -/
def conflictAfter? (root : Path) (earlier : List Target) : List Target → Option (Target × Target)
  | [] => none
  | target :: rest =>
    match earlier.find? fun other => outputPlace root other = outputPlace root target with
    | some first => some (first, target)
    | none => conflictAfter? root (earlier ++ [target]) rest

/-- The first two targets that write to the same place. -/
def conflict? (root : Path) (targets : List Target) : Option (Target × Target) :=
  conflictAfter? root [] targets

/-- Checks that no two targets write to the same place. -/
def checkOutputs (root : Path) (targets : List Target) : Except ProjectError Unit :=
  match conflict? root targets with
  | some (first, second) => .error (.outputConflict second.output first.language second.language)
  | none => .ok ()

variable {m : Type → Type} [Monad m] (storage : Storage m)

/-- Reads a file as text. -/
def readText (path : Path) : ExceptT ProjectError m String := do
  match ← storage.read path with
  | .error cause => throw (.unreadable path (.obstacle cause))
  | .ok bytes =>
    match String.fromUTF8? bytes with
    | some text => return text
    | none => throw (.unreadable path .notText)

/-- Loads the project in a directory. -/
def load (root : Path) : ExceptT ProjectError m Project := do
  unless ← storage.isThere root do throw (.absent root .noDirectory)
  let manifestPath := root.join ⟨Manifest.fileName⟩
  unless ← storage.isFile manifestPath do throw (.absent root .noManifest)
  let text ← readText storage manifestPath
  match Manifest.read manifestPath.text text with
  | .error cause => throw (.badManifest cause)
  | .ok manifest =>
    liftExcept (checkOutputs root manifest.targets)
    return ⟨root, manifestPath, manifest⟩

end SchemaBindings.Project
