import SchemaBindings.Glob.Basic
import SchemaBindings.Storage.Basic

/-!
# What a glob finds

A glob starts at the root or at the working directory and takes its steps one after the other. Any
depth means everything below a directory; links are not entered on the way.
-/

namespace SchemaBindings.Glob

/-- A path one step further. The working directory leaves no trace in a path. -/
def stepTo (path : Path) (name : String) : Path :=
  if path.components = [.here] then ⟨name⟩ else path.join ⟨name⟩

/-- Dots are in every directory, but a pattern has to start with a dot to find them. -/
def dots (tokens : List Token) : List String :=
  if tokens.head? = some (.char '.') then
    [".", ".."].filter fun name => fits tokens name.toList
  else []

variable {m : Type → Type} [Monad m] (storage : Storage m)

/-- The paths that some steps lead to. -/
def expand : List Step → Path → m (List Path)
  | [], path => pure [path]
  | .literal name :: rest, path => do
    let next := stepTo path name
    let isThere ←
      if name = "." || name = ".." then storage.isDirectory path
      else Except.isOk <$> (storage.ownKind next).run
    if isThere then expand rest next else pure []
  | .pattern tokens :: rest, path => do
    if ← storage.isDirectory path then
      let names := (← storage.names path).filter fun name => fits tokens name.toList
      let next := names.map (stepTo path) ++ (dots tokens).map fun name => path.join ⟨name⟩
      return (← next.mapM (expand rest)).flatten
    else return []
  | [.anyDepth], path => do
    if ← storage.isDirectory path then
      ((← storage.below path).map fun steps => steps.foldl stepTo path).filterM storage.isDirectory
    else return []
  | .anyDepth :: step :: rest, path => do
    if ← storage.isDirectory path then
      let found :=
        (← storage.below path).filter fun steps => (steps.getLast?.map step.admits).getD false
      return (← (found.map fun steps => steps.foldl stepTo path).mapM (expand rest)).flatten
    else return []

/-- The paths that a glob finds. -/
def find (glob : Glob) : m (List Path) := do
  if glob.steps.isEmpty then return []
  let found ← expand storage glob.steps ⟨if glob.absolute then "/" else "."⟩
  if glob.directoriesOnly then found.filterM storage.isDirectory else return found

/-- Searches for the paths that a text finds, if it is a glob. -/
def search (text : List Char) : ExceptT PatternFault m (List Path) :=
  match ofText text with
  | .error fault => throw fault
  | .ok glob => ExceptT.lift (glob.find storage)

end SchemaBindings.Glob
