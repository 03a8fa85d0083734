/-!
# Paths

A path is a text of pieces between slashes. Its components are what the pieces mean: repeated
slashes mean nothing, and neither does a dot, unless a relative path starts with it. Paths keep the
way they are written; order and sameness go by components.
-/

namespace SchemaBindings

/-- A path, as written. -/
structure Path where
  text : String
deriving DecidableEq

namespace Path

/-- The texts between the slashes of a text. -/
def split : List Char → List (List Char)
  | [] => [[]]
  | c :: rest =>
    if c = '/' then [] :: split rest
    else
      match split rest with
      | [] => [[c]]
      | first :: others => (c :: first) :: others

/-- The pieces of a path. -/
def pieces (path : Path) : List String :=
  (split path.text.toList).map String.ofList

/-- What a piece means. -/
inductive Component where
  | root
  | here
  | up
  | name (text : String)
deriving DecidableEq

/-- A piece, with its meaning if it has one. -/
structure Part where
  text : String
  component? : Option Component
deriving DecidableEq

/-- A piece after a slash. -/
def Part.inner (text : String) : Part :=
  ⟨text,
    if text = "" ∨ text = "." then none
    else if text = ".." then some .up
    else some (.name text)⟩

/-- The first piece: an empty one in front of a slash is the root, and a dot is kept. -/
def Part.first (text : String) (slashFollows : Bool) : Part :=
  if text = "" then ⟨text, if slashFollows then some .root else none⟩
  else if text = "." then ⟨text, some .here⟩
  else .inner text

/-- The pieces of a path with their meanings. -/
def parts (path : Path) : List Part :=
  match path.pieces with
  | [] => []
  | text :: rest => .first text (!rest.isEmpty) :: rest.map .inner

/-- The path that is written as the given parts. -/
def ofParts (parts : List Part) : Path :=
  if parts = [⟨"", some .root⟩] then ⟨"/"⟩
  else ⟨String.intercalate "/" (parts.map Part.text)⟩

/-- The components of a path. -/
def components (path : Path) : List Component :=
  path.parts.filterMap Part.component?

/-- The rank of the kind of a component. -/
def Component.rank : Component → Nat
  | .root => 0
  | .here => 1
  | .up => 2
  | .name _ => 3

/-- The order of components: by kind, and names by their characters. -/
def Component.before : Component → Component → Bool
  | .name a, .name b => a < b
  | a, b => a.rank < b.rank

/-- The order of paths, component by component. -/
def before (a b : Path) : Bool :=
  List.lex a.components b.components Component.before

/-- Paths in order. Of paths with the same components the first one is kept. -/
def inOrder (paths : List Path) : List Path :=
  let distinct := paths.foldl (fun kept path =>
    if kept.any fun other => other.components = path.components then kept else kept ++ [path]) []
  distinct.mergeSort fun a b => !b.before a

/-- Whether a path starts at the root. -/
def isAbsolute (path : Path) : Bool :=
  path.text.toList.head? = some '/'

/-- A path below another one, both as written. An absolute path stands for itself. -/
def join (base path : Path) : Path :=
  if path.isAbsolute || base.text.isEmpty then path
  else if base.text.toList.getLast? = some '/' then ⟨base.text ++ path.text⟩
  else ⟨base.text ++ "/" ++ path.text⟩

/-- What is left of a path, as written, without its last component. The root and the empty path have
nothing around them. -/
def parent? (path : Path) : Option Path :=
  match path.parts.reverse.dropWhile fun part => part.component?.isNone with
  | [] => none
  | last :: before =>
    if last.component? = some .root then none
    else some (ofParts (before.dropWhile fun part => part.component?.isNone).reverse)

/-- A path followed by what is around it, from the inside out; the number bounds how far. -/
def climb : Nat → Path → List Path
  | 0, path => [path]
  | steps + 1, path =>
    path ::
      match path.parent? with
      | some parent => climb steps parent
      | none => []

/-- A path, the one around it, and so on. -/
def ancestors (path : Path) : List Path :=
  climb path.parts.length path

/-- Parts after the first few components. -/
def dropComponents : Nat → List Part → List Part
  | 0, parts => parts
  | _ + 1, [] => []
  | count + 1, part :: rest =>
    if part.component?.isSome then dropComponents count rest else dropComponents (count + 1) rest

/-- What is left of a path, as written, after the components of another one. -/
def after? (base path : Path) : Option Path :=
  if base.components.isPrefixOf path.components then
    let rest := (dropComponents base.components.length path.parts).dropWhile fun part =>
      part.component?.isNone
    some (ofParts (rest.reverse.dropWhile fun part => part.component?.isNone).reverse)
  else none

end Path

end SchemaBindings
