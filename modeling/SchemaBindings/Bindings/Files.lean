import SchemaBindings.Text.Lines

/-!
# Emitted files

Bindings are files with relative paths. A file that is added later takes the place of one with the
same path.
-/

namespace SchemaBindings.Bindings

/-- A file and what it holds. -/
structure EmittedFile where
  path : String
  content : String
deriving DecidableEq

/-- Adds a file to others. -/
def addFile (files : List EmittedFile) (file : EmittedFile) : List EmittedFile :=
  if files.any fun other => other.path = file.path then
    files.map fun other => if other.path = file.path then file else other
  else files ++ [file]

/-- Files in the order in which they are added. -/
def collectFiles (files : List EmittedFile) : List EmittedFile :=
  files.foldl addFile []

/-- The file that holds some lines. -/
def EmittedFile.ofLines (path : String) (lines : List String) : EmittedFile :=
  ⟨path, Text.unlines lines⟩

/-- What the first line of every emitted file says. -/
def banner : String := "Auto-generated by athalar - DO NOT EDIT"

end SchemaBindings.Bindings
