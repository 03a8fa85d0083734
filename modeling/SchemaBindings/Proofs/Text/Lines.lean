import Mathlib.Data.List.DropRight
import SchemaBindings.Proofs.Text.SingleLine
import SchemaBindings.Text.Blank
import SchemaBindings.Text.Lines

/-!
# Lines and the blanks at their ends

The lines of a text have no line feed and no characters of their own. Trimming the end of a line
only takes blanks off, and blanks behind a line do not change what is left.
-/

namespace SchemaBindings.Text

/-! ## Lines -/

/-- The characters of lines are those of the text that end no line. -/
theorem mem_of_mem_lines {text line : List Char} (h : line ∈ lines text) {c : Char}
    (hc : c ∈ line) :
    c ∈ text ∧ c ≠ '\n' := by
  fun_induction lines text generalizing line with
  | case1 => exact absurd h List.not_mem_nil
  | case2 rest ih =>
    rcases List.mem_cons.mp h with rfl | h
    · exact absurd hc List.not_mem_nil
    · exact ⟨List.mem_cons_of_mem _ (ih h hc).1, (ih h hc).2⟩
  | case3 rest ih =>
    rcases List.mem_cons.mp h with rfl | h
    · exact absurd hc List.not_mem_nil
    · exact ⟨List.mem_cons_of_mem _ (List.mem_cons_of_mem _ (ih h hc).1), (ih h hc).2⟩
  | case4 first rest hfeed hreturn hlast ih =>
    obtain rfl := List.mem_singleton.mp h
    obtain rfl := List.mem_singleton.mp hc
    exact ⟨List.mem_cons_self, hfeed⟩
  | case5 first rest hfeed hreturn line' others hlines ih =>
    rw [hlines] at ih
    rcases List.mem_cons.mp h with rfl | h
    · rcases List.mem_cons.mp hc with rfl | hc
      · exact ⟨List.mem_cons_self, hfeed⟩
      · exact ⟨List.mem_cons_of_mem _ (ih List.mem_cons_self hc).1, (ih List.mem_cons_self hc).2⟩
    · exact ⟨List.mem_cons_of_mem _ (ih (List.mem_cons_of_mem _ h) hc).1,
        (ih (List.mem_cons_of_mem _ h) hc).2⟩

/-- A text of lines is that of the first, a line feed and the text of the others. -/
theorem toList_unlines_cons (line : String) (others : List String) :
    (unlines (line :: others)).toList = line.toList ++ '\n' :: (unlines others).toList := by
  simp [unlines, String.join_cons]

/-- Two lists of lines make up the one text behind the other. -/
theorem toList_unlines_append (front behind : List String) :
    (unlines (front ++ behind)).toList = (unlines front).toList ++ (unlines behind).toList := by
  induction front with
  | nil => rfl
  | cons line front ih => rw [List.cons_append, toList_unlines_cons, toList_unlines_cons, ih]; simp

/-- Split at line feeds, a text of single lines falls into them, and what is behind them falls into
its own parts. -/
theorem splitOn_unlines_append {lines : List String} (h : ∀ line ∈ lines, SingleLine line)
    (behind : List Char) :
    ((unlines lines).toList ++ behind).splitOn '\n' = lines.map String.toList ++
      behind.splitOn '\n' := by
  induction lines with
  | nil => rfl
  | cons line others ih =>
    rw [List.forall_mem_cons] at h
    rw [toList_unlines_cons, List.append_assoc, List.cons_append,
      List.splitOn_append_cons_self_of_not_mem h.1, ih h.2, List.map_cons, List.cons_append]

/-! ## The blanks at the end -/

/-- The characters that are left are those of the text. -/
theorem mem_of_mem_trimEnd {text : List Char} {c : Char} (h : c ∈ trimEnd text) : c ∈ text :=
  (List.rdropWhile_prefix isBlank (l := text)).subset h

/-- The characters that are left when both ends are trimmed are those of the text. -/
theorem mem_of_mem_trim {text : List Char} {c : Char} (h : c ∈ trim text) : c ∈ text :=
  (List.dropWhile_suffix isBlank).subset (mem_of_mem_trimEnd h)

/-- A text is trimmed only once. -/
theorem trimEnd_trimEnd (text : List Char) : trimEnd (trimEnd text) = trimEnd text :=
  List.rdropWhile_idempotent isBlank text

/-- A blank behind a text is trimmed off. -/
theorem trimEnd_concat_of_blank (text : List Char) {c : Char} (hc : isBlank c) :
    trimEnd (text ++ [c]) = trimEnd text :=
  List.rdropWhile_concat_pos isBlank text c hc

/-- A character in front of a text is trimmed off only if it is blank and nothing is left of the
text. -/
theorem trimEnd_cons (c : Char) (text : List Char) :
    trimEnd (c :: text) = if trimEnd text = [] ∧ isBlank c then [] else c :: trimEnd text := by
  induction text using List.reverseRecOn with
  | nil => by_cases hc : isBlank c <;> simp [trimEnd, hc]
  | append_singleton text last ih =>
    by_cases hlast : isBlank last
    · rw [← List.cons_append, trimEnd_concat_of_blank _ hlast, trimEnd_concat_of_blank _ hlast, ih]
    · have hkept : ∀ front : List Char, trimEnd (front ++ [last]) = front ++ [last] := fun front =>
        List.rdropWhile_concat_neg isBlank front last hlast
      rw [← List.cons_append, hkept, hkept]
      simp

/-- A text whose first character is not blank has no blanks at its start to trim. -/
theorem trimStart_of_not_blank {c : Char} (hc : isBlank c = false) (rest : List Char) :
    trimStart (c :: rest) = c :: rest :=
  List.dropWhile_cons_of_neg (by simp [hc])

/-- A text is trimmed only once at both ends. -/
theorem trim_trim (text : List Char) : trim (trim text) = trim text := by
  unfold trim
  cases hstart : trimStart text with
  | nil => rfl
  | cons c rest =>
    have hc : isBlank c = false := by
      have hhead := List.head?_dropWhile_not isBlank text
      rw [← trimStart, hstart] at hhead
      exact hhead
    have hkept : trimEnd (c :: rest) = c :: trimEnd rest := by simp [trimEnd_cons, hc]
    rw [hkept, trimStart_of_not_blank hc, ← hkept, trimEnd_trimEnd]

/-- A trimmed text does not end with a blank. -/
theorem isBlank_getLast_of_trimEnd {text : List Char} (h : trimEnd text = text) {c : Char}
    (hc : text.getLast? = some c) : isBlank c = false := by
  obtain ⟨hne, rfl⟩ := List.mem_getLast?_eq_getLast hc
  simpa using List.rdropWhile_eq_self_iff.mp h hne

/-! ## Lines that are put together -/

/-- A character that ends no line, together with what follows it, is the first one of the first
line. -/
theorem lines_cons {c : Char} {rest : List Char} (hfeed : c ≠ '\n')
    (hreturn : c = '\r' → rest.head? ≠ some '\n') :
    lines (c :: rest) = match lines rest with
      | [] => [[c]]
      | first :: others => (c :: first) :: others :=
  lines.eq_4 c rest hfeed fun behind hc hrest => hreturn hc (by rw [hrest]; rfl)

/-- A line that does not end with a carriage return is the first one of what it is put in front
of. -/
theorem lines_append_lineFeed {line : List Char} (hfeed : '\n' ∉ line)
    (hreturn : line.getLast? ≠ some '\r') (rest : List Char) :
    lines (line ++ '\n' :: rest) = line :: lines rest := by
  induction line with
  | nil => rfl
  | cons c line ih =>
    rw [List.mem_cons, not_or] at hfeed
    have hrest : lines (line ++ '\n' :: rest) = line :: lines rest := by
      cases line with
      | nil => rfl
      | cons next others => exact ih hfeed.2 (by simpa using hreturn)
    rw [List.cons_append, lines_cons (Ne.symm hfeed.1), hrest]
    rintro rfl
    cases line with
    | nil => exact absurd rfl hreturn
    | cons next others => simpa using fun h => hfeed.2 (by simp [h])

/-- A text without a line feed is one line. -/
theorem lines_of_lineFeed_notMem {line : List Char} (hfeed : '\n' ∉ line) (hempty : line ≠ []) :
    lines line = [line] := by
  induction line with
  | nil => exact absurd rfl hempty
  | cons c line ih =>
    rw [List.mem_cons, not_or] at hfeed
    rw [lines_cons (Ne.symm hfeed.1) fun _ => ?_]
    · cases line with
      | nil => rfl
      | cons next others => rw [ih hfeed.2 (List.cons_ne_nil next others)]
    · intro hhead
      exact hfeed.2 (List.mem_of_mem_head? hhead)

/-- Lines with line feeds between them are lines of the whole, unless they are empty. -/
theorem mem_lines_intercalate {parts : List (List Char)} (hfeed : ∀ part ∈ parts, '\n' ∉ part)
    (hreturn : ∀ part ∈ parts, part.getLast? ≠ some '\r') {part : List Char} (h : part ∈ parts)
    (hempty : part ≠ []) :
    part ∈ lines (List.intercalate ['\n'] parts) := by
  induction parts with
  | nil => exact absurd h List.not_mem_nil
  | cons first others ih =>
    rw [List.forall_mem_cons] at hfeed hreturn
    cases others with
    | nil =>
      obtain rfl := List.mem_singleton.mp h
      rw [List.intercalate_singleton, lines_of_lineFeed_notMem hfeed.1 hempty]
      exact List.mem_singleton_self _
    | cons second others =>
      rw [List.intercalate_cons_cons, List.append_assoc, List.singleton_append,
        lines_append_lineFeed hfeed.1 hreturn.1, List.mem_cons]
      rcases List.mem_cons.mp h with rfl | h
      · exact .inl rfl
      · exact .inr (ih hfeed.2 hreturn.2 h)

end SchemaBindings.Text
