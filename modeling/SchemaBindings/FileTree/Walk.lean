import SchemaBindings.FileTree.Basic
import SchemaBindings.Storage.Basic

/-!
# Walking along a path

A path is walked piece by piece, from the root or from the working directory. Every piece is a step
from a directory; a link on the way is replaced by the path it stands for, up to a limit. What is
not there may still be a place to put something, if all but the last step lead to a directory.
-/

namespace SchemaBindings.FileTree

/-- Where a walk ends: at an entry, or at a free place in a directory, which may be fit for a
directory alone. -/
inductive Arrival where
  | taken (place : Place) (entry : Entry)
  | free (place : Place) (forDirectory : Bool)

/-- What a walk does with a link at the end of a path. -/
inductive LastLink where
  /-- Goes through it. -/
  | through
  /-- Ends at it, unless a slash follows. -/
  | unlessSlash
  /-- Ends at it. -/
  | never
deriving DecidableEq

/-- Whether a walk ends at a link, given the pieces that follow it. -/
def LastLink.endsAt (last : LastLink) (rest : List String) : Bool :=
  match last with
  | .through => false
  | .unlessSlash => rest.isEmpty
  | .never => rest.all String.isEmpty

/-- How many links a walk goes through. -/
def linkLimit : Nat := 40

/-- The end of a walk where nothing is. Slashes at the end of a path ask for a directory. -/
def arriveFree (place : Place) (rest : List String) : Except Obstacle Arrival :=
  if rest.all String.isEmpty then .ok (.free place (!rest.isEmpty)) else .error .missing

/-- Walks from a directory along the pieces of a path. -/
def walkFrom (tree : FileTree) (last : LastLink) (links : Nat) (place : Place) :
    List String → Except Obstacle Arrival
  | [] => .ok (.taken place .directory)
  | piece :: rest =>
    if piece = "" ∨ piece = "." then walkFrom tree last links place rest
    else if piece = ".." then walkFrom tree last links place.dropLast rest
    else
      match tree.entryAt? (place ++ [piece]) with
      | none => arriveFree (place ++ [piece]) rest
      | some .directory => walkFrom tree last links (place ++ [piece]) rest
      | some (.file content) =>
        if rest.isEmpty then .ok (.taken (place ++ [piece]) (.file content))
        else .error .notDirectory
      | some (.link goal) =>
        if last.endsAt rest then .ok (.taken (place ++ [piece]) (.link goal))
        else if goal.isEmpty then .error .missing
        else
          match links with
          | 0 => .error .linkLoop
          | links + 1 =>
            walkFrom tree last links (if (Path.mk goal).isAbsolute then [] else place)
              ((Path.mk goal).pieces ++ rest)
termination_by pieces => (links, pieces.length)

/-- How many bytes a path has at most. -/
def pathLimit : Nat := 4095

/-- What stands against a path as a whole. -/
def pathObstacle? (path : Path) : Option Obstacle :=
  if path.text.isEmpty then some .missing
  else if '\x00' ∈ path.text.toList then some .zeroInside
  else if path.text.utf8ByteSize > pathLimit then some .tooLong
  else none

/-- Walks along a path. -/
def walk (tree : FileTree) (cwd : Place) (last : LastLink) (path : Path) :
    Except Obstacle Arrival :=
  match pathObstacle? path with
  | some obstacle => .error obstacle
  | none => tree.walkFrom last linkLimit (if path.isAbsolute then [] else cwd) path.pieces

/-- What a path leads to. -/
def find? (tree : FileTree) (cwd : Place) (last : LastLink) (path : Path) :
    Option (Place × Entry) :=
  match tree.walk cwd last path with
  | .ok (.taken place entry) => some (place, entry)
  | _ => none

end SchemaBindings.FileTree
