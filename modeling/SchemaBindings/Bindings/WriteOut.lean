import SchemaBindings.Bindings.Files
import SchemaBindings.Storage.Basic

/-!
# Writing emitted files

The files of a target are written as a whole or not at all. They are first written to a hidden
directory beside the output directory. If there is no output directory yet, the hidden directory
becomes it. Otherwise the files are swapped in one by one, and what they replace is kept until all
are in; a failure swaps back what has been swapped. Files with other names stay as they are.
-/

namespace SchemaBindings.Bindings

/-- What stands against writing at some path. -/
inductive WriteFault where
  | obstacle (cause : Obstacle)
  | directoryInTheWay
deriving DecidableEq

/-- How a fault is described. -/
def WriteFault.message : WriteFault → String
  | .obstacle cause => cause.message
  | .directoryInTheWay => "a directory is in the way"

/-- A path that could not be written. -/
structure WriteFailure where
  path : Path
  fault : WriteFault
deriving DecidableEq

/-- The line that reports a failure, without its fault. -/
def WriteFailure.headline (failure : WriteFailure) : String :=
  s!"failed to write {failure.path.text}"

/-- The line that reports a failure. -/
def WriteFailure.shown (failure : WriteFailure) : String :=
  failure.headline ++ ": " ++ failure.fault.message

/-- A file to be written below an output directory. -/
structure OutputFile where
  path : Path
  content : String
deriving DecidableEq

/-- Adds a file to others. One with the same path gives way to it. -/
def addOutput (files : List OutputFile) (file : OutputFile) : List OutputFile :=
  if files.any fun other => other.path.components = file.path.components then
    files.map fun other =>
      if other.path.components = file.path.components then ⟨other.path, file.content⟩ else other
  else files ++ [file]

/-- Emitted files in the order in which they are written. -/
def outputFiles (files : List EmittedFile) : List OutputFile :=
  let outputs := files.map fun file => OutputFile.mk ⟨file.path⟩ file.content
  (outputs.foldl addOutput []).mergeSort fun a b => !b.path.before a.path

/-- The directory that holds an output directory. -/
def surroundings (out : Path) : Path :=
  match out.parent? with
  | some parent => if parent.text.isEmpty then ⟨"."⟩ else parent
  | none => ⟨"."⟩

/-- A file that was put in place, and where the file that it replaced is kept. -/
structure Swap where
  target : Path
  saved? : Option Path
deriving DecidableEq

section Writing

variable {m : Type → Type} [Monad m] (storage : Storage m)

/-- Reports the obstacles of a change as a failure to write at a path. -/
def atPath {α : Type} (path : Path) (change : ExceptT Obstacle m α) : ExceptT WriteFailure m α :=
  change.adapt fun obstacle => ⟨path, .obstacle obstacle⟩

/-- Makes the directory that is to hold something. -/
def makeRoomFor (path : Path) : ExceptT WriteFailure m Unit :=
  match path.parent? with
  | some directory => atPath directory (storage.makeDirectories directory)
  | none => pure ()

/-- Runs a program and then clears a directory away, whatever came out. -/
def clearing {α : Type} (directory : Path) (program : ExceptT WriteFailure m α) :
    ExceptT WriteFailure m α :=
  ExceptT.mk do
    let outcome ← program.run
    storage.removeAll directory
    return outcome

/-- Writes a file below the hidden directory. -/
def stage (staging : Path) (file : OutputFile) : ExceptT WriteFailure m Unit := do
  let path := staging.join file.path
  makeRoomFor storage path
  atPath path (storage.write path file.content.toUTF8)

/-- Moves what is at a path aside, unless nothing is seen there. -/
def setAside (target saved : Path) : ExceptT WriteFailure m (Option Path) := do
  match ← (storage.ownKind target).run with
  | .ok .directory => throw ⟨target, .directoryInTheWay⟩
  | .ok _ =>
    makeRoomFor storage saved
    atPath target (storage.rename target saved)
    return some saved
  | .error _ => return none

/-- Puts back what was moved aside. -/
def putBack (target : Path) (saved? : Option Path) : m Unit :=
  match saved? with
  | some saved => storage.restore saved target
  | none => pure ()

/-- Puts a staged file in place. After a failure everything is where it was. -/
def swapIn (staged target saved : Path) : ExceptT WriteFailure m Swap := do
  makeRoomFor storage target
  let saved? ← setAside storage target saved
  tryCatch (atPath target (storage.rename staged target)) fun failure => do
    ExceptT.lift (putBack storage target saved?)
    throw failure
  return ⟨target, saved?⟩

/-- Takes a swap back. -/
def undo (swap : Swap) : m Unit :=
  match swap.saved? with
  | some saved => storage.restore saved swap.target
  | none => storage.removeFile swap.target

/-- Swaps files in one by one, after those that are already in, the newest of which comes first. A
failure takes all of them back. -/
def swapAll (staging backup out : Path) :
    List OutputFile → List Swap → ExceptT WriteFailure m Unit
  | [], _ => pure ()
  | file :: files, swaps => do
    let swapping :=
      swapIn storage (staging.join file.path) (out.join file.path) (backup.join file.path)
    let swap ← tryCatch swapping fun failure => do
      ExceptT.lift (swaps.forM (undo storage))
      throw failure
    swapAll staging backup out files (swap :: swaps)

/-- Swaps files into a directory that is there. -/
def mergeInto (staging out : Path) (files : List OutputFile) : ExceptT WriteFailure m Unit := do
  let around := surroundings out
  let backup ← atPath around (storage.makeHidden around)
  clearing storage backup (swapAll storage staging backup out files [])

/-- Puts all staged files in place. -/
def install (staging out : Path) (files : List OutputFile) : ExceptT WriteFailure m Unit := do
  if ← storage.isThere out then mergeInto storage staging out files
  else
    match ← (storage.rename staging out).run with
    | .ok _ => pure ()
    | .error obstacle =>
      if ← storage.isDirectory out then mergeInto storage staging out files
      else throw ⟨out, .obstacle obstacle⟩

/-- Writes the files of a target below its output directory, and answers how many there are. -/
def writeOut (out : Path) (files : List EmittedFile) : ExceptT WriteFailure m Nat := do
  let around := surroundings out
  let outputs := outputFiles files
  atPath around (storage.makeDirectories around)
  let staging ← atPath around (storage.makeHidden around)
  clearing storage staging do
    outputs.forM (stage storage staging)
    install storage staging out outputs
  return outputs.length

end Writing

end SchemaBindings.Bindings
