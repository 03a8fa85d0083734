/-!
# Lists without repeats

Keeping the first of equal elements, and sorting names by code point.
-/

namespace SchemaBindings.Text

/-- The elements of a list, each where it first occurs. -/
def distinct {α : Type} [DecidableEq α] : List α → List α
  | [] => []
  | a :: rest => a :: (distinct rest).filter (· ≠ a)

/-- Names in ascending order. -/
def sortNames (names : List String) : List String :=
  names.mergeSort fun a b => a ≤ b

/-- The names that occur in a list, in ascending order. -/
def nameSet (names : List String) : List String :=
  sortNames (distinct names)

end SchemaBindings.Text
