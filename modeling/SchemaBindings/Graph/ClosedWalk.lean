import SchemaBindings.Graph.Components

/-!
# Closed walks

A closed walk through a vertex is searched depth first inside a set of vertices.
-/

namespace SchemaBindings.Graph

/-- Searches the vertices `candidates` and those behind them, depth first and inside `members`, for
a way to `goal`. Returns the vertices visited and, if there is a way, the vertices on it in front of
the goal. -/
def searchWay (adjacency : Adjacency) (members : List Nat) (goal : Nat) :
    (fuel : Nat) → (candidates visited : List Nat) → List Nat × Option (List Nat)
  | 0, _, visited => (visited, none)
  | _, [], visited => (visited, none)
  | fuel + 1, w :: rest, visited =>
    if w ∉ members then searchWay adjacency members goal fuel rest visited
    else if w = goal then (visited, some [])
    else if w ∈ visited then searchWay adjacency members goal fuel rest visited
    else
      match searchWay adjacency members goal fuel (successors adjacency w) (w :: visited) with
      | (visited, some way) => (visited, some (w :: way))
      | (visited, none) => searchWay adjacency members goal fuel rest visited

/-- Enough steps for any search: one for each edge and one more for each vertex. -/
def searchSteps (adjacency : Adjacency) : Nat :=
  adjacency.flatten.length + adjacency.length + 1

/-- A closed walk from `start` through vertices of `members`. -/
def closedWalk (adjacency : Adjacency) (members : List Nat) (start : Nat) : List Nat :=
  let way := (searchWay adjacency members start (searchSteps adjacency) (successors adjacency start)
    [start]).2
  start :: way.getD [] ++ [start]

end SchemaBindings.Graph
