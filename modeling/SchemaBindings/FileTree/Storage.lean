import SchemaBindings.FileTree.Walk

/-!
# File trees as storage

A file tree answers questions and takes changes like a disk. Changes and looks at paths may be made
to fail on purpose: a list says, one by one, which of those to come fail although the tree would
allow them. What was to be undone and could not be is noted, and so is what was there when looking
at it failed.
-/

namespace SchemaBindings

/-- A file tree with the failures to come, the paths at which undoing was refused, and the places of
what was overlooked, as looking at it failed. What came last is noted first. -/
structure Disk where
  tree : FileTree
  failures : List Bool
  unsettled : List Path
  overlooked : List (Place × Kind)

/-- A disk on which changes and looks fail only if the tree does not allow them. -/
def FileTree.disk (tree : FileTree) : Disk := ⟨tree, [], [], []⟩

/-- What kind of thing an entry is. -/
def Entry.kind : Entry → Kind
  | .directory => .directory
  | .file _ => .file
  | .link _ => .link

namespace FileTree

/-- What is at a path itself, and where that is. -/
def lookAt (tree : FileTree) (cwd : Place) (path : Path) : Except Obstacle (Place × Kind) :=
  match tree.walk cwd .unlessSlash path with
  | .ok (.taken place entry) => .ok (place, entry.kind)
  | .ok (.free _ _) => .error .missing
  | .error obstacle => .error obstacle

/-- Makes a directory. -/
def makeDirectory (tree : FileTree) (cwd : Place) (path : Path) : Except Obstacle FileTree :=
  match tree.walk cwd .never path with
  | .ok (.free place _) => .ok (tree.put place .directory)
  | .ok (.taken _ _) => .error .present
  | .error obstacle => .error obstacle

/-- Writes a file, over one that is there. -/
def write (tree : FileTree) (cwd : Place) (path : Path) (content : ByteArray) :
    Except Obstacle FileTree :=
  match tree.walk cwd .through path with
  | .ok (.free place false) => .ok (tree.put place (.file content))
  | .ok (.free _ true) => .error .isDirectory
  | .ok (.taken place (.file _)) => .ok (tree.put place (.file content))
  | .ok (.taken _ _) => .error .isDirectory
  | .error obstacle => .error obstacle

/-- Puts a link where nothing is. -/
def makeLink (tree : FileTree) (cwd : Place) (path : Path) (goal : String) :
    Except Obstacle FileTree :=
  match tree.walk cwd .never path with
  | .ok (.free place false) => .ok (tree.put place (.link goal))
  | .ok (.free _ true) => .error .missing
  | .ok (.taken _ _) => .error .present
  | .error obstacle => .error obstacle

/-- The content of a file. -/
def read (tree : FileTree) (cwd : Place) (path : Path) : Except Obstacle ByteArray :=
  match tree.walk cwd .through path with
  | .ok (.taken _ (.file content)) => .ok content
  | .ok (.taken _ _) => .error .isDirectory
  | .ok (.free _ _) => .error .missing
  | .error obstacle => .error obstacle

/-- Moves a directory to where nothing is, or over an empty directory. -/
def renameDirectory (tree : FileTree) (source : Place) : Arrival → Except Obstacle FileTree
  | .free target _ =>
    if source.isPrefixOf target then .error .refused else .ok (tree.move source target)
  | .taken target .directory =>
    if source = target then .ok tree
    else if source.isPrefixOf target then .error .refused
    else if (tree.below target).isEmpty then .ok (tree.move source target)
    else .error .notEmpty
  | .taken _ _ => .error .notDirectory

/-- Moves a file or a link to where nothing is, or over a file or a link. -/
def renameFile (tree : FileTree) (source : Place) : Arrival → Except Obstacle FileTree
  | .free target false => .ok (tree.move source target)
  | .free _ true => .error .notDirectory
  | .taken _ .directory => .error .isDirectory
  | .taken target _ => if source = target then .ok tree else .ok (tree.move source target)

/-- Gives an entry another place. -/
def rename (tree : FileTree) (cwd : Place) (source target : Path) : Except Obstacle FileTree :=
  match tree.walk cwd .never source, tree.walk cwd .never target with
  | .ok (.taken source .directory), .ok arrival => tree.renameDirectory source arrival
  | .ok (.taken source _), .ok arrival => tree.renameFile source arrival
  | .ok (.free _ _), _ => .error .missing
  | .error obstacle, _ => .error obstacle
  | _, .error obstacle => .error obstacle

/-- Removes a file or a link. -/
def removeFile (tree : FileTree) (cwd : Place) (path : Path) : Except Obstacle FileTree :=
  match tree.walk cwd .unlessSlash path with
  | .ok (.taken _ .directory) => .error .isDirectory
  | .ok (.taken place _) => .ok (tree.remove place)
  | .ok (.free _ _) => .error .missing
  | .error obstacle => .error obstacle

/-- Removes whatever is at a path. -/
def removeAll (tree : FileTree) (cwd : Place) (path : Path) : FileTree :=
  match tree.find? cwd .unlessSlash path with
  | some (place, _) => tree.remove place
  | none => tree

end FileTree

namespace Disk

/-- What is asked of a disk. -/
def asks {α : Type} (question : FileTree → α) : StateM Disk α :=
  return question (← get).tree

/-- Whether it is the turn of a failure. -/
def fails : StateM Disk Bool := fun disk =>
  (disk.failures.headD false, { disk with failures := disk.failures.tail })

/-- Looks for what a path leads to, unless it is the turn of a failure. -/
def look (cwd : Place) (path : Path) : StateM Disk (Option Kind) := do
  if ← fails then return none
  else asks fun tree => (tree.find? cwd .through path).map fun found => found.2.kind

/-- Looks at what is at a path itself, unless it is the turn of a failure. What is there is noted
then. -/
def inspect (cwd : Place) (path : Path) : ExceptT Obstacle (StateM Disk) Kind :=
  ExceptT.mk do
    let seen ← asks fun tree => tree.lookAt cwd path
    if ← fails then
      modify fun disk => { disk with overlooked := seen.toOption.toList ++ disk.overlooked }
      return .error .refused
    else return seen.map Prod.snd

/-- How many bytes a name has at most. -/
def nameLimit : Nat := 255

/-- Whether the name at the end of a path is short enough to be given. -/
def endsInName (path : Path) : Bool :=
  path.components.getLast?.all fun component =>
    match component with
    | .name text => text.utf8ByteSize ≤ nameLimit
    | _ => true

/-- Tries a change of what is at a path, unless it is the turn of a failure. -/
def attempt (path : Path) (change : FileTree → Except Obstacle FileTree) :
    ExceptT Obstacle (StateM Disk) Unit :=
  fun disk =>
    match disk.failures with
    | true :: failures => (.error .refused, { disk with failures })
    | failures =>
      match change disk.tree with
      | .ok tree =>
        if endsInName path then (.ok (), { disk with tree, failures := failures.tail })
        else (.error .tooLong, { disk with failures := failures.tail })
      | .error obstacle => (.error obstacle, { disk with failures := failures.tail })

/-- Undoes a change of what is at a path, and notes the path if that is refused. -/
def settle (path : Path) (change : FileTree → Except Obstacle FileTree) : StateM Disk Unit :=
  modify fun disk =>
    match change disk.tree with
    | .ok tree => { disk with tree }
    | .error _ => { disk with unsettled := path :: disk.unsettled }

/-- Clears something away. -/
def clear (change : FileTree → FileTree) : StateM Disk Unit :=
  modify fun disk => { disk with tree := change disk.tree }

/-- A disk as storage, seen from a working directory. -/
def storage (cwd : Place) : Storage (StateM Disk) where
  kind? path := look cwd path
  ownKind path := inspect cwd path
  names path := asks fun tree =>
    match tree.find? cwd .through path with
    | some (place, _) => tree.names place
    | none => []
  below path := asks fun tree =>
    match tree.find? cwd .through path with
    | some (place, _) => tree.below place
    | none => []
  read path := asks fun tree => tree.read cwd path
  makeDirectory path := attempt path fun tree => tree.makeDirectory cwd path
  makeHidden path := do
    let name ← (asks FileTree.unusedName : StateM Disk String)
    let hidden := path.join ⟨name⟩
    attempt hidden fun tree => tree.makeDirectory cwd hidden
    return hidden
  write path content := attempt path fun tree => tree.write cwd path content
  rename source target := attempt target fun tree => tree.rename cwd source target
  restore source target := settle target fun tree => tree.rename cwd source target
  removeFile path := settle path fun tree => tree.removeFile cwd path
  removeAll path := clear fun tree => tree.removeAll cwd path

end Disk

end SchemaBindings
