import SchemaBindings.CommandLine.Run
import SchemaBindings.FileTree.Storage

/-!
# The command line

The program works on the disk. What directories hold is not asked of the disk but read from standard
input: the paths of all files that patterns may find, one a line.
-/

namespace SchemaBindings.Main

/-- The obstacle behind a failure of the system. -/
def obstacleOf : IO.Error → Obstacle
  | .noFileOrDirectory _ _ _ => .missing
  | .noSuchThing _ _ _ => .missing
  | .alreadyExists _ _ _ => .present
  | .inappropriateType _ _ _ => .notDirectory
  | .unsatisfiedConstraints _ _ => .notEmpty
  | _ => .refused

/-- Makes a change on the disk. -/
def attempt {α : Type} (change : IO α) : ExceptT Obstacle BaseIO α :=
  ExceptT.mk do
    match ← change.toBaseIO with
    | .ok value => return .ok value
    | .error cause => return .error (obstacleOf cause)

/-- Makes a change on the disk as far as possible. -/
def settle (change : IO Unit) : BaseIO Unit := do
  let _ ← change.toBaseIO

/-- Where a path leads to, after every link. -/
def resolve? (text : String) : BaseIO (Option Path) := do
  match ← (IO.FS.realPath text).toBaseIO with
  | .ok place => return some ⟨toString place⟩
  | .error _ => return none

/-- The place of an absolute path. -/
def placeOf (path : Path) : Place :=
  path.components.filterMap fun component =>
    match component with
    | .name text => some text
    | _ => none

/-- The place of a path itself, in the directory that its parent leads to. -/
def ownPlace? (path : Path) : BaseIO (Option Place) := do
  let around := ((path.parent?.getD ⟨""⟩).join ⟨"."⟩)
  match ← resolve? around.text, (placeOf path).getLast? with
  | some directory, some name => return some (placeOf directory ++ [name])
  | _, _ => return none

/-- What a path leads to. -/
def kind? (path : Path) : BaseIO (Option Kind) := do
  if (← resolve? path.text).isNone then return none
  return some (if (← resolve? (path.text ++ "/.")).isSome then .directory else .file)

/-- What is at a path itself. A place that leads elsewhere, or nowhere although it is listed, is a
link. -/
def ownKind? (listed : FileTree) (path : Path) : BaseIO (Option Kind) := do
  match ← resolve? path.text, ← ownPlace? path with
  | some reached, some place => if placeOf reached = place then kind? path else return some .link
  | some _, none => kind? path
  | none, some place => return if (listed.entryAt? place).isSome then some .link else none
  | none, none => return none

/-- Looks at what is at a path itself. -/
def ownKind (listed : FileTree) (path : Path) : ExceptT Obstacle BaseIO Kind := do
  match ← (ownKind? listed path : BaseIO (Option Kind)) with
  | some kind => return kind
  | none => throw .missing

/-- Asks for the listed places below a directory. -/
def belowOf (listed : FileTree) (path : Path) : BaseIO (List Place) := do
  return ((← resolve? path.text).map fun place => listed.below (placeOf place)).getD []

/-- Makes a hidden directory with a random name. -/
def makeHidden (directory : Path) : ExceptT Obstacle BaseIO Path := do
  let number ← (IO.rand 100000000 999999999 : BaseIO Nat)
  let path := directory.join ⟨FileTree.hiddenStart ++ toString number⟩
  attempt (IO.FS.createDir path.text)
  return path

/-- The disk as storage, given what its directories hold. -/
def disk (listed : FileTree) : Storage BaseIO where
  kind? := kind?
  ownKind := ownKind listed
  names path := do
    match ← resolve? path.text with
    | some place => return listed.names (placeOf place)
    | none => return []
  below := belowOf listed
  read path := (attempt (IO.FS.readBinFile path.text)).run
  makeDirectory path := attempt (IO.FS.createDir path.text)
  makeHidden := makeHidden
  write path content := attempt (IO.FS.writeBinFile path.text content)
  rename source target := attempt (IO.FS.rename source.text target.text)
  restore source target := settle (IO.FS.rename source.text target.text)
  removeFile path := settle (IO.FS.removeFile path.text)
  removeAll path := settle (IO.FS.removeDirAll path.text)

/-- Reads lines up to the end of the input. -/
partial def readLines (input : IO.FS.Stream) : IO (List String) := do
  let line ← input.getLine
  if line.isEmpty then return []
  return (String.ofList (line.toList.filter (· ≠ '\n'))) :: (← readLines input)

/-- The tree of the places that some lines list. -/
def listing (lines : List String) : BaseIO FileTree := do
  let places ← lines.filterMapM fun line => ownPlace? ⟨line⟩
  return places.foldl (fun tree place => tree.put place .directory) .empty

/-- Carries out a command line on the disk. -/
def carryOut (words : List String) : IO CommandLine.Outcome := do
  match CommandLine.Invocation.ofWords words with
  | .error refusal => return .ofRefusal refusal
  | .ok _ =>
    let listed ← listing (← readLines (← IO.getStdin))
    let here : Path := ⟨toString (← IO.currentDir)⟩
    let outcome ← (CommandLine.run (disk listed) here words : BaseIO CommandLine.Outcome)
    return outcome

end SchemaBindings.Main

/-- Runs the program. -/
def main (words : List String) : IO UInt32 := do
  let outcome ← SchemaBindings.Main.carryOut words
  IO.print outcome.output
  IO.eprint outcome.errors
  return outcome.exitCode.toUInt32
