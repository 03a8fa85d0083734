import SchemaBindings.Glob.Find
import SchemaBindings.Graph.Build
import SchemaBindings.Project.Load
import SchemaBindings.Schema.Parser

/-!
# The schemas of a project

The patterns of a manifest name the schema files of a project. Every pattern has to find a file. The
files are read and parsed in the order of their paths, and the types of all of them make up one
graph.
-/

namespace SchemaBindings.Project

/-- The whole text of a pattern. One that does not start at the root is meant below the project. -/
def fullPattern (root : Path) (pattern : String) : List Char :=
  if (Path.mk pattern).isAbsolute then pattern.toList
  else
    let base := (Glob.escape root.text.toList).reverse.dropWhile (· = '/')
    base.reverse ++ '/' :: pattern.toList

variable {m : Type → Type} [Monad m] (storage : Storage m)

section Searching

variable (search : List Char → ExceptT Glob.PatternFault m (List Path))

/-- The files that some search finds for a pattern. -/
def matchesBy (root : Path) (pattern : String) : ExceptT ProjectError m (List Path) := do
  let found ← (search (fullPattern root pattern)).adapt (.badPattern pattern)
  ExceptT.lift (found.filterM storage.isFile)

/-- What some search finds for every pattern. -/
def matchAll (project : Project) : ExceptT ProjectError m (List (String × List Path)) :=
  project.manifest.schemas.mapM fun pattern =>
    return (pattern, ← matchesBy storage search project.root pattern)

/-- The schema files of a project that some search finds, in order. -/
def discoverBy (project : Project) : ExceptT ProjectError m (List Path) := do
  let found ← matchAll storage search project
  let unmatched := (found.filter fun entry => entry.2.isEmpty).map Prod.fst
  unless unmatched.isEmpty do throw (.unmatched unmatched)
  return Path.inOrder (found.flatMap Prod.snd)

end Searching

/-- The files that a pattern finds as a glob. -/
def matches? (root : Path) (pattern : String) : ExceptT ProjectError m (List Path) :=
  matchesBy storage (Glob.search storage) root pattern

/-- The schema files of a project, in order: those that globs find. -/
def discover (project : Project) : ExceptT ProjectError m (List Path) :=
  discoverBy storage (Glob.search storage) project

/-- How messages name a schema file: by its path within the project. -/
def nameOf (root path : Path) : String :=
  ((root.after? path).getD path).text

/-- Parses sources, each with the name of its file. The errors of all files are reported
together. -/
def parseAll (sources : List (String × String)) : Except ProjectError (List Schema.SchemaFile) :=
  let results := sources.map fun source => Schema.parse source.1 source.2
  let errors := results.flatMap fun result =>
    match result with
    | .error errors => errors
    | .ok _ => []
  if errors.isEmpty then .ok (results.filterMap Except.toOption) else .error (.badSyntax errors)

/-- The graph of the types in some sources. -/
def graphOfSources (sources : List (String × String)) : Except ProjectError TypeGraph := do
  match Graph.build (← parseAll sources) with
  | .ok graph => return graph
  | .error errors => throw (.badSchema errors)

/-- The graph of all types of a project. -/
def readGraph (project : Project) : ExceptT ProjectError m TypeGraph := do
  let paths ← discover storage project
  let sources ← paths.mapM fun path =>
    return (nameOf project.root path, ← readText storage path)
  liftExcept (graphOfSources sources)

end SchemaBindings.Project
