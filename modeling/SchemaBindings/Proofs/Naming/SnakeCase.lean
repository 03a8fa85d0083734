import SchemaBindings.Proofs.Naming.Identifiers

/-!
# Snake case

In snake case, words are lowered and have underscores between them. There are no capitals left that
a word could start at, and an underscore is where each word ends, so splitting the name again finds
the very same words. That makes snake case the same when it is applied twice, and it tells names
apart up to the case of their letters.
-/

namespace SchemaBindings.Naming

open SchemaBindings.Schema (IsIdentifier isNamePart)
open SchemaBindings.Text

/-! ## Splitting lowered words -/

/-- Whether a word has no character that a new word starts at. -/
def Unbroken (word : List Char) : Prop :=
  ∀ c ∈ word, isAlphanumeric c = true ∧ isUppercase c = false

/-- Text without characters that a word starts at continues the word. -/
theorem wordsFrom_append {word : List Char} (h : Unbroken word) (current text : List Char) :
    wordsFrom current (word ++ text) = wordsFrom (current ++ word) text := by
  induction word generalizing current with
  | nil => rw [List.nil_append, List.append_nil]
  | cons c word ih =>
    obtain ⟨⟨hletter, hsmall⟩, hword⟩ := List.forall_mem_cons.mp h
    have hgoes : ∀ previous, startsWord previous c (word ++ text) = false := by
      simp [startsWord, hsmall]
    have hrest := ih hword (current ++ [c])
    rw [List.append_assoc, List.singleton_append] at hrest
    rw [← hrest, List.cons_append, wordsFrom, if_neg (by simp [hletter])]
    split
    · rw [hgoes, if_neg Bool.false_ne_true]
    · next hnone => rw [List.getLast?_eq_none_iff.mp hnone, List.nil_append]

/-- An underscore ends a word. -/
theorem wordsFrom_underscore {current : List Char} (hne : current ≠ []) (text : List Char) :
    wordsFrom current ('_' :: text) = current :: splitWords text := by
  rw [wordsFrom, if_pos (by decide +kernel), if_neg (by simpa using hne), splitWords]

/-- Words that are joined by underscores are found again. -/
theorem splitWords_joinWords {words : List (List Char)} (hne : ∀ word ∈ words, word ≠ [])
    (h : ∀ word ∈ words, Unbroken word) : splitWords (joinWords words) = words := by
  induction words with
  | nil => rfl
  | cons word rest ih =>
    rw [List.forall_mem_cons] at hne h
    have hrest := ih hne.2 h.2
    cases rest with
    | nil =>
      have hfront := wordsFrom_append h.1 [] []
      rw [List.append_nil, List.nil_append] at hfront
      rw [joinWords, List.intercalate_singleton, splitWords, hfront, wordsFrom,
        if_neg (by simpa using hne.1)]
    | cons next rest =>
      rw [joinWords, List.intercalate_cons_cons, List.append_assoc, splitWords,
        wordsFrom_append h.1, List.nil_append, List.singleton_append, wordsFrom_underscore hne.1]
      exact congrArg _ hrest

/-! ## Names -/

/-- A letter or digit of a name that is lowered starts no word, and stays as it is when it is
lowered again. -/
theorem lowered_of_isNamePart {c : Char} (h : isNamePart c = true) :
    (c ≠ '_' → isAlphanumeric c.toLower = true ∧ isUppercase c.toLower = false) ∧
      isNamePart c.toLower = true ∧
      c.toLower.toLower = c.toLower :=
  forall_isNamePart
      (P := fun c => (c ≠ '_' → isAlphanumeric c.toLower = true ∧ isUppercase c.toLower = false) ∧
    isNamePart c.toLower = true ∧ c.toLower.toLower = c.toLower) (by decide +kernel) h

/-- A word of a name that is lowered has no character that a word starts at. -/
theorem unbroken_toLower {word : List Char} (h : ∀ c ∈ word, isNamePart c = true)
    (hbare : '_' ∉ word) :
    Unbroken (toLower word) := by
  intro c hc
  rw [toLower_eq_map h] at hc
  obtain ⟨source, hsource, rfl⟩ := List.mem_map.mp hc
  exact (lowered_of_isNamePart (h source hsource)).1 fun hsame => hbare (hsame ▸ hsource)

/-- Lowering a word of a name again changes nothing. -/
theorem toLower_toLower {word : List Char} (h : ∀ c ∈ word, isNamePart c = true) :
    toLower (toLower word) = toLower word := by
  have hlowered : ∀ c ∈ word.map Char.toLower, isNamePart c = true :=
    List.forall_mem_map.mpr fun c hc => (lowered_of_isNamePart (h c hc)).2.1
  rw [toLower_eq_map h, toLower_eq_map hlowered, List.map_map]
  exact List.map_congr_left fun c hc => (lowered_of_isNamePart (h c hc)).2.2

section
variable {name : List Char} (hname : ∀ c ∈ name, isNamePart c = true)
include hname

/-- The words of a name are made of its characters, without underscores. -/
theorem part_of_mem_word {word : List Char} (hword : word ∈ splitWords name) :
    (∀ c ∈ word, isNamePart c = true) ∧ '_' ∉ word := by
  refine ⟨fun c hc => hname c (mem_of_mem_splitWords hword hc).1, fun hc => ?_⟩
  have hletter := (mem_of_mem_splitWords hword hc).2
  exact absurd hletter (by decide +kernel)

/-- The words of a name in snake case are its words, lowered. -/
theorem splitWords_snake :
    splitWords (Case.snake.applyChars name) = (splitWords name).map toLower := by
  rw [Case.applyChars]
  split
  · next hkept =>
    have hnone : splitWords name = [] := by simpa using hkept
    rw [hnone, List.map_nil]
  · refine splitWords_joinWords (List.forall_mem_map.mpr fun word hword hnil => ?_)
      (List.forall_mem_map.mpr fun word hword => ?_)
    · rw [toLower_eq_map (part_of_mem_word hname hword).1] at hnil
      exact ne_nil_of_mem_splitWords hword (List.map_eq_nil_iff.mp hnil)
    · exact unbroken_toLower (part_of_mem_word hname hword).1 (part_of_mem_word hname hword).2

/-- A name in snake case is the same in snake case. -/
theorem snake_snake_chars :
    Case.snake.applyChars (Case.snake.applyChars name) = Case.snake.applyChars name := by
  by_cases hnone : splitWords name = []
  · have hkept : Case.snake.applyChars name = name := if_pos (.inr (by simp [hnone]))
    rw [hkept, hkept]
  · have hlowered : ((splitWords name).map toLower).map toLower =
        (splitWords name).map toLower := by
      rw [List.map_map]
      exact List.map_congr_left fun word hword => toLower_toLower (part_of_mem_word hname hword).1
    have hjoined : Case.snake.applyChars name = Case.snake.join (splitWords name) :=
      if_neg (by simpa using hnone)
    rw [Case.applyChars, splitWords_snake hname, if_neg (by simpa using hnone), hjoined]
    exact congrArg joinWords hlowered

/-- Names have the same snake case exactly if their words are the same up to case, or if they have
no words and are the same. -/
theorem snake_eq_snake_chars_iff {other : List Char} (hother : ∀ c ∈ other, isNamePart c = true) :
    Case.snake.applyChars name = Case.snake.applyChars other ↔
      (splitWords name ≠ [] ∧ (splitWords name).map toLower = (splitWords other).map toLower) ∨
        (splitWords name = [] ∧ name = other) := by
  have hkept : ∀ {text : List Char}, splitWords text = [] → Case.snake.applyChars text = text :=
    fun hnone => if_pos (.inr (by simp [hnone]))
  have hjoined : ∀ {text : List Char}, splitWords text ≠ [] →
      Case.snake.applyChars text = joinWords ((splitWords text).map toLower) :=
      fun hsome => if_neg (by simpa using hsome)
  constructor
  · intro hsame
    have hwords := congrArg splitWords hsame
    rw [splitWords_snake hname, splitWords_snake hother] at hwords
    by_cases hnone : splitWords name = []
    · have hothernone : splitWords other = [] := by
        rw [hnone, List.map_nil, eq_comm, List.map_eq_nil_iff] at hwords
        exact hwords
      rw [hkept hnone, hkept hothernone] at hsame
      exact .inr ⟨hnone, hsame⟩
    · exact .inl ⟨hnone, hwords⟩
  · rintro (⟨hsome, hwords⟩ | ⟨-, rfl⟩)
    · have hothersome : splitWords other ≠ [] := by
        intro hnone
        rw [hnone, List.map_nil, List.map_eq_nil_iff] at hwords
        exact hsome hwords
      rw [hjoined hsome, hjoined hothersome, hwords]
    · rfl

end

/-- An identifier in snake case is the same in snake case. -/
theorem snake_snake {name : String} (h : IsIdentifier name) :
    Case.snake.apply (Case.snake.apply name) = Case.snake.apply name := by
  rw [Case.apply, Case.apply, String.toList_ofList, snake_snake_chars (isWord_of_isIdentifier h).2]

/-- Identifiers have the same snake case exactly if their words are the same up to case, or if they
have no words and are the same. -/
theorem snake_eq_snake_iff {name other : String} (h : IsIdentifier name)
    (hother : IsIdentifier other) :
    Case.snake.apply name = Case.snake.apply other ↔
      (splitWords name.toList ≠ [] ∧ (splitWords name.toList).map toLower =
        (splitWords other.toList).map toLower) ∨
        (splitWords name.toList = [] ∧ name = other) := by
  rw [Case.apply, Case.apply, String.ofList_inj,
    snake_eq_snake_chars_iff (isWord_of_isIdentifier h).2 (isWord_of_isIdentifier hother).2,
    String.toList_inj]

end SchemaBindings.Naming
