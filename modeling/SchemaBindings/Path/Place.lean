import SchemaBindings.Path.Basic

/-!
# The place that a path spells

Two paths may spell one place in different ways. A path is reduced by its text alone: a step up
takes back the step before it, and stays as a step where there is none to take back.
-/

namespace SchemaBindings.Path

/-- Takes one component into a reduced path. -/
def reduceStep (reduced : List Component) : Component → List Component
  | .here => reduced
  | .up =>
    match reduced.getLast? with
    | none => reduced ++ [.up]
    | some .root => reduced ++ [.up]
    | some _ => reduced.dropLast
  | component => reduced ++ [component]

/-- The reduced components of a path. -/
def reduced (path : Path) : List Component :=
  path.components.foldl reduceStep []

end SchemaBindings.Path
