import SchemaBindings.Naming.Case

/-!
# The words of a name

Splitting loses nothing but separators: the words of any text are made of its letters and digits,
all of them and in their order, and no word is empty.
-/

namespace SchemaBindings.Naming

open SchemaBindings.Text

/-- The words that continue a word and a text are made of that word and of the letters and digits of
the text. -/
theorem flatten_wordsFrom (current text : List Char) :
    (wordsFrom current text).flatten = current ++ text.filter isAlphanumeric := by
  fun_induction wordsFrom current text with
  | case1 current hempty => simp_all
  | case2 current hopen => simp
  | case3 current c rest hc hempty ih => simp_all
  | case4 current c rest hc hopen ih => simp_all
  | case5 current c rest hc previous hlast hstarts ih => simp_all
  | case6 current c rest hc previous hlast hgoes ih => simp_all
  | case7 current c rest hc hlast ih => simp_all [List.getLast?_eq_none_iff]

/-- No word is empty. -/
theorem ne_nil_of_mem_wordsFrom {current text word : List Char}
    (h : word ∈ wordsFrom current text) :
    word ≠ [] := by
  fun_induction wordsFrom current text with
  | case1 current hempty => exact absurd h List.not_mem_nil
  | case2 current hopen =>
    obtain rfl := List.mem_singleton.mp h
    simpa using hopen
  | case3 current c rest hc hempty ih => exact ih h
  | case4 current c rest hc hopen ih =>
    rcases List.mem_cons.mp h with rfl | h
    · simpa using hopen
    · exact ih h
  | case5 current c rest hc previous hlast hstarts ih =>
    rcases List.mem_cons.mp h with rfl | h
    · rintro rfl
      simp at hlast
    · exact ih h
  | case6 current c rest hc previous hlast hgoes ih => exact ih h
  | case7 current c rest hc hlast ih => exact ih h

/-- The words of a text are made of its letters and digits. -/
theorem flatten_splitWords (text : List Char) :
    (splitWords text).flatten = text.filter isAlphanumeric :=
  flatten_wordsFrom [] text

/-- No word of a text is empty. -/
theorem ne_nil_of_mem_splitWords {text word : List Char} (h : word ∈ splitWords text) : word ≠ [] :=
  ne_nil_of_mem_wordsFrom h

/-- The characters of words are those of the text that are letters or digits. -/
theorem mem_of_mem_splitWords {text word : List Char} (h : word ∈ splitWords text) {c : Char}
    (hc : c ∈ word) :
    c ∈ text ∧ isAlphanumeric c = true := by
  have hflat : c ∈ (splitWords text).flatten := List.mem_flatten.mpr ⟨word, h, hc⟩
  rw [flatten_splitWords] at hflat
  exact List.mem_filter.mp hflat

/-- A text without a letter or digit has no words. -/
theorem splitWords_eq_nil_iff (text : List Char) :
    splitWords text = [] ↔ text.filter isAlphanumeric = [] := by
  rw [← flatten_splitWords, List.flatten_eq_nil_iff]
  constructor
  · intro h word hword
    rw [h] at hword
    exact absurd hword List.not_mem_nil
  · intro h
    refine List.eq_nil_iff_forall_not_mem.mpr fun word hword => ?_
    exact ne_nil_of_mem_splitWords hword (h word hword)

end SchemaBindings.Naming
