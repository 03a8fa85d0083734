/-!
# File names of namespaces

Every namespace is emitted as a module. The stem of its file name is the dotted path with
underscores for the dots; the root namespace has a stem of its own.
-/

namespace SchemaBindings.Naming

/-- The stem for the root namespace. -/
def rootStem : String := "types"

/-- The stem of a namespace's module. -/
def moduleStem (namespacePath : String) : String :=
  if namespacePath = "" then rootStem
  else String.ofList (namespacePath.toList.map fun c => if c = '.' then '_' else c)

end SchemaBindings.Naming
