import SchemaBindings.Path.Basic

/-!
# Storage

What the program asks of the place where files are kept. Looking at a path may fail, and a change
may meet an obstacle; then nothing has changed. What undoes a change, or clears away what nobody
needs any more, is done as far as possible and reports nothing.

Programs are written for any storage, so that one and the same program works on disks and on file
trees.
-/

namespace SchemaBindings

/-- What a path leads to. -/
inductive Kind where
  | file
  | directory
  | link
deriving DecidableEq

/-- Why a change was not made. -/
inductive Obstacle where
  | missing
  | present
  | notDirectory
  | isDirectory
  | notEmpty
  | linkLoop
  | tooLong
  | zeroInside
  | refused
deriving DecidableEq

/-- How an obstacle is described. -/
def Obstacle.message : Obstacle → String
  | .missing => "No such file or directory (os error 2)"
  | .present => "File exists (os error 17)"
  | .notDirectory => "Not a directory (os error 20)"
  | .isDirectory => "Is a directory (os error 21)"
  | .notEmpty => "Directory not empty (os error 39)"
  | .linkLoop => "Too many levels of symbolic links (os error 40)"
  | .tooLong => "File name too long (os error 36)"
  | .zeroInside => "file name contained an unexpected NUL byte"
  | .refused => "Invalid argument (os error 22)"

/-- Storage, for programs in `m`. -/
structure Storage (m : Type → Type) where
  /-- What a path leads to, after every link. If looking fails, nothing seems to be there. -/
  kind? : Path → m (Option Kind)
  /-- Looks at what is at a path itself, which may be a link. -/
  ownKind : Path → ExceptT Obstacle m Kind
  /-- The names in a directory. -/
  names : Path → m (List String)
  /-- The steps from a directory to everything below it, without entering links. -/
  below : Path → m (List (List String))
  /-- The content of a file. -/
  read : Path → m (Except Obstacle ByteArray)
  /-- Makes a directory within one that is there. -/
  makeDirectory : Path → ExceptT Obstacle m Unit
  /-- Makes a hidden directory, with a name that nothing has, within the given one. -/
  makeHidden : Path → ExceptT Obstacle m Path
  /-- Writes a file within a directory that is there. -/
  write : Path → ByteArray → ExceptT Obstacle m Unit
  /-- Gives what is at the first path the name of the second one, in place of a file there. -/
  rename : Path → Path → ExceptT Obstacle m Unit
  /-- Renames back. -/
  restore : Path → Path → m Unit
  /-- Removes a file. -/
  removeFile : Path → m Unit
  /-- Removes a directory with all it holds. -/
  removeAll : Path → m Unit

namespace Storage

variable {m : Type → Type} [Monad m] (storage : Storage m)

/-- Whether a path leads to anything. -/
def isThere (path : Path) : m Bool :=
  return (← storage.kind? path).isSome

/-- Whether a path leads to a file. -/
def isFile (path : Path) : m Bool :=
  return (← storage.kind? path) = some .file

/-- Whether a path leads to a directory. -/
def isDirectory (path : Path) : m Bool :=
  return (← storage.kind? path) = some .directory

/-- Lets a change pass whose result is there already. -/
def orDirectory (path : Path) (obstacle : Obstacle) : ExceptT Obstacle m Unit := do
  unless ← storage.isDirectory path do throw obstacle

/-- Makes the first of some directories, each of which lies in the next one. -/
def makeInnermost : List Path → ExceptT Obstacle m Unit
  | [] => pure ()
  | path :: outer =>
    if path.text.isEmpty then pure ()
    else
      tryCatch (storage.makeDirectory path) fun obstacle => do
        if obstacle = .missing then
          makeInnermost outer
          tryCatch (storage.makeDirectory path) (storage.orDirectory path)
        else storage.orDirectory path obstacle

/-- Makes a directory and those around it, as far as they are not there. -/
def makeDirectories (path : Path) : ExceptT Obstacle m Unit :=
  storage.makeInnermost path.ancestors

end Storage

end SchemaBindings
