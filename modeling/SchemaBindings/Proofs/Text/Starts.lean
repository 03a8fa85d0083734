import Mathlib.Data.List.Basic

/-!
# Lines that start with a text

Which lines of a file declare something is seen from how they start. Lines whose first character is
another one do not count.
-/

namespace SchemaBindings.Text

/-- The lines that start with a text. -/
def linesStarting (start : String) (lines : List String) : List String :=
  lines.filter fun line => start.toList.isPrefixOf line.toList

/-- Lines of two parts are looked for in each of them. -/
theorem linesStarting_append (start : String) (lines others : List String) :
    linesStarting start (lines ++ others) = linesStarting start lines ++
      linesStarting start others :=
  List.filter_append ..

/-- The first line and the others are looked at separately. -/
theorem linesStarting_cons (start line : String) (lines : List String) :
    linesStarting start (line :: lines) = linesStarting start [line] ++ linesStarting start lines :=
  linesStarting_append start [line] lines

/-- Lines of many parts are looked for in each of them. -/
theorem linesStarting_flatMap {α : Type} (start : String) (parts : List α)
    (lines : α → List String) :
    linesStarting start (parts.flatMap lines) =
      parts.flatMap fun part => linesStarting start (lines part) := by
  induction parts with
  | nil => rfl
  | cons part rest ih => rw [List.flatMap_cons, linesStarting_append, ih, List.flatMap_cons]

/-- A line that continues the text counts. -/
theorem linesStarting_cons_append (start line : String) (lines : List String) :
    linesStarting start ((start ++ line) :: lines) =
      (start ++ line) :: linesStarting start lines := by
  simp [linesStarting]

/-- Where every line continues the text, all of them count. -/
theorem linesStarting_map_append {α : Type} (start : String) (parts : List α) (line : α → String) :
    linesStarting start (parts.map fun part => start ++ line part) =
      parts.map fun part => start ++ line part := by
  induction parts with
  | nil => rfl
  | cons part rest ih => rw [List.map_cons, linesStarting_cons_append, ih]

/-- Where every line starts with a text, no line is left out. -/
theorem linesStarting_eq_self {start : String} {lines : List String}
    (h : ∀ line ∈ lines, start.toList <+: line.toList) : linesStarting start lines = lines :=
  List.filter_eq_self.mpr fun line hline => List.isPrefixOf_iff_prefix.mpr (h line hline)

/-- A line that starts with a longer text starts with a shorter one. -/
theorem prefix_toList_append {start text : String} (h : start.toList <+: text.toList)
    (more : String) :
    start.toList <+: (text ++ more).toList := by
  rw [String.toList_append]
  exact h.trans (List.prefix_append _ _)

/-- The first character of a line, if it has one. -/
def firstChar? (line : String) : Option Char :=
  line.toList.head?

/-- The first character of a text that starts with another, not empty one. -/
theorem firstChar?_append {line : String} {c : Char} (h : firstChar? line = some c)
    (more : String) :
    firstChar? (line ++ more) = some c := by
  obtain ⟨rest, hrest⟩ := List.head?_eq_some_iff.mp h
  rw [firstChar?, String.toList_append, hrest, List.cons_append, List.head?_cons]

/-- Lines with other first characters do not count. -/
theorem linesStarting_eq_nil {start : String} {c : Char} (hstart : firstChar? start = some c)
    {lines : List String} (hlines : ∀ line ∈ lines, firstChar? line ≠ some c) :
    linesStarting start lines = [] := by
  refine List.filter_eq_nil_iff.mpr fun line hline hprefix => hlines line hline ?_
  obtain ⟨rest, hrest⟩ := List.head?_eq_some_iff.mp hstart
  obtain ⟨more, hmore⟩ := List.isPrefixOf_iff_prefix.mp hprefix
  rw [firstChar?, ← hmore, hrest, List.cons_append, List.head?_cons]

end SchemaBindings.Text
