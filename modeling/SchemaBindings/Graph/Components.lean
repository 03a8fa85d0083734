/-!
# Strong components

A directed graph on the vertices below `n` is given by its adjacency lists. Its strong components
are the classes of vertices that reach each other. Tarjan's algorithm finds them in one traversal,
depth first. Vertices are numbered in the order in which they are visited and wait on a stack. The
low link of a vertex is the least number of a waiting vertex that was seen from it or from what was
visited after it. A vertex whose low link is its own number completes a component: the vertices that
wait above it, and itself.
-/

namespace SchemaBindings.Graph

/-- Adjacency lists: the successors of each vertex. -/
abbrev Adjacency := List (List Nat)

/-- The successors of a vertex. -/
def successors (adjacency : Adjacency) (v : Nat) : List Nat :=
  adjacency.getD v []

/-- What a traversal keeps: the next number, for each vertex its number, its low link and whether it
waits, the waiting vertices with the last one first, and the components found. -/
structure Traversal where
  next : Nat
  numbers : List (Option Nat)
  lows : List Nat
  stack : List Nat
  waiting : List Bool
  found : List (List Nat)

namespace Traversal

/-- A traversal that has visited nothing. -/
def start (size : Nat) : Traversal :=
  ⟨0, .replicate size none, .replicate size 0, [], .replicate size false, []⟩

/-- The number of a vertex, if it has been visited. -/
def number? (traversal : Traversal) (v : Nat) : Option Nat :=
  traversal.numbers.getD v none

/-- The low link of a vertex. -/
def low (traversal : Traversal) (v : Nat) : Nat :=
  traversal.lows.getD v 0

/-- Whether a vertex waits on the stack. -/
def isWaiting (traversal : Traversal) (v : Nat) : Bool :=
  traversal.waiting.getD v false

/-- Numbers a vertex and puts it on the stack. -/
def enter (traversal : Traversal) (v : Nat) : Traversal where
  next := traversal.next + 1
  numbers := traversal.numbers.set v (some traversal.next)
  lows := traversal.lows.set v traversal.next
  stack := v :: traversal.stack
  waiting := traversal.waiting.set v true
  found := traversal.found

/-- Lowers the low link of a vertex to a number, if that is less. -/
def lower (traversal : Traversal) (v number : Nat) : Traversal :=
  { traversal with lows := traversal.lows.set v (min (traversal.low v) number) }

/-- What is on a stack down to a vertex, and what is below. -/
def takeThrough (v : Nat) : List Nat → List Nat × List Nat
  | [] => ([], [])
  | w :: rest =>
    if w = v then ([w], rest) else (w :: (takeThrough v rest).1, (takeThrough v rest).2)

/-- Takes a vertex and what is above it from the stack, as a component. -/
def release (traversal : Traversal) (v : Nat) : Traversal :=
  let (members, rest) := takeThrough v traversal.stack
  { traversal with
    stack := rest
    waiting := members.foldl (fun waiting w => waiting.set w false) traversal.waiting
    found := traversal.found ++ [members.mergeSort fun a b => a ≤ b] }

/-- Takes the component of a vertex from the stack if the vertex completes one. -/
def leave (traversal : Traversal) (v : Nat) : Traversal :=
  if traversal.number? v = some (traversal.low v) then traversal.release v else traversal

/-- Looks at a successor of a vertex. One that has not been visited is visited first and passes on
its low link. -/
def look (visit : Traversal → Nat → Option Traversal) (v : Nat) (traversal : Traversal) (w : Nat) :
    Option Traversal :=
  match traversal.number? w with
  | none => (visit traversal w).map fun traversal => traversal.lower v (traversal.low w)
  | some number => some (if traversal.isWaiting w then traversal.lower v number else traversal)

end Traversal

/-- Visits a vertex and all that is behind it, if the visits inside each other are no more than
`depth`. -/
def visit (adjacency : Adjacency) : (depth : Nat) → Traversal → Nat → Option Traversal
  | 0, _, _ => none
  | depth + 1, traversal, v =>
    ((successors adjacency v).foldlM (Traversal.look (visit adjacency depth) v)
      (traversal.enter v)).map fun traversal => traversal.leave v

/-- Visits every vertex. There are no more visits inside each other than there are vertices. -/
def traverse (adjacency : Adjacency) : Option Traversal :=
  (List.range adjacency.length).foldlM (fun traversal v =>
    if (traversal.number? v).isNone then visit adjacency adjacency.length traversal v
    else some traversal) (.start adjacency.length)

/-- Whether a list of vertices is not behind another one: the first difference decides. -/
def lexUpTo : List Nat → List Nat → Bool
  | [], _ => true
  | _ :: _, [] => false
  | v :: members, w :: others => v < w || (v == w && lexUpTo members others)

/-- The strong components in order. -/
def strongComponents? (adjacency : Adjacency) : Option (List (List Nat)) :=
  (traverse adjacency).map fun traversal => traversal.found.mergeSort lexUpTo

/-- The classes of vertices that reach each other, each ascending, in the order of their least
vertices. -/
def components (adjacency : Adjacency) : List (List Nat) :=
  (strongComponents? adjacency).getD []

end SchemaBindings.Graph
