/-!
# File trees

A file tree says what is at each place. A place is the list of names that lead to it from the root,
which is a directory. Files hold bytes, and links hold the path they stand for.
-/

namespace SchemaBindings

/-- The names that lead from the root to a place. -/
abbrev Place := List String

/-- What may be at a place. -/
inductive Entry where
  | directory
  | file (content : ByteArray)
  | link (goal : String)

/-- The entries of a tree. The first entry for a place counts. -/
structure FileTree where
  entries : List (Place × Entry)

namespace FileTree

/-- A tree with nothing but its root. -/
def empty : FileTree := ⟨[]⟩

/-- What is at a place. -/
def entryAt? (tree : FileTree) : Place → Option Entry
  | [] => some .directory
  | place => tree.entries.lookup place

/-- Puts an entry at a place, over what is there. -/
def put (tree : FileTree) (place : Place) (entry : Entry) : FileTree :=
  ⟨(place, entry) :: tree.entries.filter fun other => other.1 ≠ place⟩

/-- Takes away a place and all below it. -/
def remove (tree : FileTree) (place : Place) : FileTree :=
  ⟨tree.entries.filter fun other => !place.isPrefixOf other.1⟩

/-- Where a place is after a move, if it is still there. -/
def movedTo (source target place : Place) : Option Place :=
  if source.isPrefixOf place then some (target ++ place.drop source.length)
  else if target.isPrefixOf place then none
  else some place

/-- Moves a place and all below it to another place, over what is there. -/
def move (tree : FileTree) (source target : Place) : FileTree :=
  ⟨tree.entries.filterMap fun other =>
    (movedTo source target other.1).map fun place => (place, other.2)⟩

/-- The steps from a place to everything below it. -/
def below (tree : FileTree) (place : Place) : List Place :=
  tree.entries.filterMap fun other =>
    if place.isPrefixOf other.1 && other.1 ≠ place then some (other.1.drop place.length) else none

/-- The names right below a place. -/
def names (tree : FileTree) (place : Place) : List String :=
  (tree.below place).filterMap fun steps =>
    match steps with
    | [name] => some name
    | _ => none

/-- How the names of hidden directories start. -/
def hiddenStart : String := ".athalar-"

/-- The names for hidden directories, one for each number. -/
def hiddenName (number : Nat) : String :=
  hiddenStart ++ String.ofList (List.replicate (6 + number) '0')

/-- The names on the way to the places of a tree. -/
def usedNames (tree : FileTree) : List String :=
  tree.entries.flatMap Prod.fst

/-- The first name for a hidden directory that is not in use. There are more such names than names
in use. -/
def unusedName (tree : FileTree) : String :=
  let used := tree.usedNames
  hiddenName (((List.range (used.length + 1)).find? fun number => hiddenName number ∉ used).getD 0)

end FileTree

end SchemaBindings
