/-!
# Ranges of characters

A Unicode property is carried as ascending ranges of code points. Many case properties hold of every
second character of a block, so a range has a stride. This module holds the ranges and the lookup;
the tables stand in the modules named for the properties.
-/

namespace SchemaBindings.Text

/-- The code points `first`, `first + stride`, … up to `last`. -/
structure CharRange where
  first : Nat
  last : Nat
  stride : Nat

/-- Whether a code point is one of the range's steps. -/
def CharRange.contains (range : CharRange) (code : Nat) : Bool :=
  range.first ≤ code && code ≤ range.last && (code - range.first) % range.stride == 0

/-- Whether some range of a table holds the character. -/
def inTable (table : List CharRange) (c : Char) : Bool :=
  table.any fun range => range.contains c.toNat

end SchemaBindings.Text
