/-!
# Parts and separators

The parts between separators hold no separator, and where lists are put together with a separator
between them, nothing else comes in.
-/

namespace SchemaBindings.Text

/-- A part between separators holds no separator. -/
theorem not_mem_of_mem_splitOn {separator : Char} {text part : List Char}
    (h : part ∈ text.splitOn separator) : separator ∉ part := by
  induction text generalizing part with
  | nil =>
    obtain rfl : part = [] := by simpa [List.splitOn_nil] using h
    simp
  | cons c text ih =>
    rw [List.splitOn_cons_eq_if_modifyHead] at h
    obtain ⟨first, others, hparts⟩ :=
      List.exists_cons_of_ne_nil (List.splitOn_ne_nil separator text)
    rw [hparts] at h ih
    split at h
    · rcases List.mem_cons.mp h with rfl | h
      · simp
      · exact ih h
    · next hc =>
      rcases List.mem_cons.mp h with rfl | h
      · have hfirst := ih List.mem_cons_self
        have hne : ¬ separator = c := fun heq => hc (by simp [heq])
        simpa [hne] using hfirst
      · exact ih (List.mem_cons_of_mem first h)

/-- What stands in a part stands in the text. -/
theorem mem_of_mem_splitOn {separator : Char} {text part : List Char}
    (h : part ∈ text.splitOn separator) {c : Char} (hc : c ∈ part) : c ∈ text := by
  induction text generalizing part with
  | nil =>
    obtain rfl : part = [] := by simpa [List.splitOn_nil] using h
    exact hc
  | cons first text ih =>
    rw [List.splitOn_cons_eq_if_modifyHead] at h
    obtain ⟨head, others, hparts⟩ := List.exists_cons_of_ne_nil (List.splitOn_ne_nil separator text)
    rw [hparts] at h ih
    split at h
    · rcases List.mem_cons.mp h with rfl | h
      · exact absurd hc List.not_mem_nil
      · exact List.mem_cons_of_mem first (ih h hc)
    · rcases List.mem_cons.mp h with rfl | h
      · rcases List.mem_cons.mp hc with rfl | hc
        · exact List.mem_cons_self
        · exact List.mem_cons_of_mem first (ih List.mem_cons_self hc)
      · exact List.mem_cons_of_mem first (ih (List.mem_cons_of_mem head h) hc)

/-- What stands in lists with a separator between them stands in the separator or in one of the
lists. -/
theorem mem_flatten_intersperse {α : Type} {separator : List α} {parts : List (List α)} {a : α}
    (h : a ∈ (List.intersperse separator parts).flatten) :
    a ∈ separator ∨ ∃ part ∈ parts, a ∈ part := by
  induction parts with
  | nil => simp at h
  | cons part rest ih =>
    cases rest with
    | nil => exact .inr ⟨part, List.mem_cons_self, by simpa using h⟩
    | cons next others =>
      rw [List.intersperse_cons_cons, List.flatten_cons, List.flatten_cons, List.mem_append,
        List.mem_append] at h
      rcases h with h | h | h
      · exact .inr ⟨part, List.mem_cons_self, h⟩
      · exact .inl h
      · rcases ih h with h | ⟨found, hfound, hmem⟩
        · exact .inl h
        · exact .inr ⟨found, List.mem_cons_of_mem _ hfound, hmem⟩

/-- With nothing between them, lists are put one behind the other. -/
theorem intercalate_nil_left {α : Type} (parts : List (List α)) :
    List.intercalate [] parts = parts.flatten := by
  induction parts with
  | nil => rfl
  | cons part rest ih =>
    cases rest with
    | nil => simp
    | cons next others => simp [List.intercalate_cons_cons, ih]

end SchemaBindings.Text
