/-!
# Lines of a text

A line feed ends a line, and a carriage return right in front of it belongs to the ending. Text
after the last line feed is a line if there is any, so a text that ends with a line feed has no
empty last line.
-/

namespace SchemaBindings.Text

/-- The lines of a text, without their endings. -/
def lines : List Char → List (List Char)
  | [] => []
  | '\n' :: rest => [] :: lines rest
  | '\r' :: '\n' :: rest => [] :: lines rest
  | c :: rest =>
    match lines rest with
    | [] => [[c]]
    | first :: others => (c :: first) :: others

/-- A text made of lines, each ended by a line feed. -/
def unlines (lines : List String) : String :=
  String.join (lines.map fun line => line ++ "\n")

end SchemaBindings.Text
