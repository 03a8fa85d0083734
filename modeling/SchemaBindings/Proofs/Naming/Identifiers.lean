import Mathlib.Data.List.Forall2
import Mathlib.Data.List.TakeWhile
import SchemaBindings.Proofs.Naming.Words
import SchemaBindings.Proofs.Schema.Lexing
import SchemaBindings.Proofs.Text.Split

/-!
# Names in a case

A name of a schema keeps to letters, digits and underscores in every case, but it need not stay an
identifier: underscores in front of it are separators and go, so if a digit follows them the cased
name starts with that digit.
-/

namespace SchemaBindings.Naming

open SchemaBindings.Schema (IsIdentifier isNamePart isNamePart_iff isNameStart startsWithDigit
  code_of_isDigit code_of_isNameStart isDigit_of_isNameStart)
open SchemaBindings.Text

/-! ## Characters of names -/

/-- What holds of all characters with small codes holds of each part of a name. -/
theorem forall_isNamePart {P : Char → Prop} (h : ∀ code < 128, isNamePart (Char.ofNat code) = true →
    P (Char.ofNat code)) {c : Char} (hc : isNamePart c = true) : P c := by
  have hcode : c.toNat < 128 := by
    rcases (isNamePart_iff c).mp hc with hstart | hdigit
    · have := code_of_isNameStart hstart
      omega
    · have := code_of_isDigit hdigit
      omega
  have hsmall := h c.toNat hcode
  rw [Char.ofNat_toNat] at hsmall
  exact hsmall hc

/-- Apart from the underscore, the parts of names are letters and digits. -/
theorem isAlphanumeric_of_isNamePart {c : Char} (h : isNamePart c = true) :
    isAlphanumeric c = decide (c ≠ '_') :=
  forall_isNamePart (P := fun c => isAlphanumeric c = decide (c ≠ '_')) (by decide +kernel) h

/-- A part of a name is raised to a single character. -/
theorem upperOf_of_isNamePart {c : Char} (h : isNamePart c = true) : upperOf c = [c.toUpper] :=
  forall_isNamePart (P := fun c => upperOf c = [c.toUpper]) (by decide +kernel) h

/-- A part of a name is lowered to a single character. -/
theorem lowerOf_of_isNamePart {c : Char} (h : isNamePart c = true) : lowerOf c = [c.toLower] :=
  forall_isNamePart (P := fun c => lowerOf c = [c.toLower]) (by decide +kernel) h

/-- Whether a character is another one in upper or in lower case. -/
def CasedFrom (c cased : Char) : Prop :=
  cased = c.toUpper ∨ cased = c.toLower

/-- A part of a name stays one in either case, and a digit stays a digit. -/
theorem CasedFrom.isNamePart {c cased : Char} (h : CasedFrom c cased) (hc : isNamePart c = true) :
    Schema.isNamePart cased = true ∧ cased.isDigit = c.isDigit := by
  have hupper : Schema.isNamePart c.toUpper = true ∧ c.toUpper.isDigit = c.isDigit :=
    forall_isNamePart
      (P := fun c => Schema.isNamePart c.toUpper = true ∧ c.toUpper.isDigit = c.isDigit)
      (by decide) hc
  have hlower : Schema.isNamePart c.toLower = true ∧ c.toLower.isDigit = c.isDigit :=
    forall_isNamePart
      (P := fun c => Schema.isNamePart c.toLower = true ∧ c.toLower.isDigit = c.isDigit)
      (by decide) hc
  rcases h with rfl | rfl
  · exact hupper
  · exact hlower

/-! ## Words of names -/

/-- A word of a name is lowered character by character. -/
theorem toLower_eq_map {word : List Char} (h : ∀ c ∈ word, isNamePart c = true) :
    toLower word = word.map Char.toLower := by
  have hafter : ∀ before, lowerAfter before word = word.map Char.toLower := by
    induction word with
    | nil => exact fun before => rfl
    | cons c word ih =>
      rw [List.forall_mem_cons] at h
      intro before
      have hsigma : c ≠ '\u03A3' := by
        rintro rfl
        exact absurd h.1 (by decide)
      rw [lowerAfter, if_neg hsigma, lowerOf_of_isNamePart h.1, ih h.2, List.map_cons,
        List.singleton_append]
  exact hafter []

/-- A word of a name is raised character by character. -/
theorem toUpper_eq_map {word : List Char} (h : ∀ c ∈ word, isNamePart c = true) :
    toUpper word = word.map Char.toUpper := by
  rw [toUpper, List.map_eq_flatMap]
  exact List.flatMap_congr fun c hc => upperOf_of_isNamePart (h c hc)

/-- A word of a name with a capital is that of its first letter in front of the others in lower
case. -/
theorem capitalize_cons {first : Char} {word : List Char} (hfirst : isNamePart first = true)
    (h : ∀ c ∈ word, isNamePart c = true) :
    capitalize (first :: word) = first.toUpper :: word.map Char.toLower := by
  rw [capitalize, upperOf_of_isNamePart hfirst, List.map_eq_flatMap, List.singleton_append]
  exact congrArg _ (List.flatMap_congr fun c hc => lowerOf_of_isNamePart (h c hc))

/-- A word as a case may write it: each of its characters in upper or in lower case. -/
abbrev WordCased : List Char → List Char → Prop :=
  List.Forall₂ CasedFrom

/-- A word whose characters are lowered is a casing of the word. -/
theorem wordCased_map_toLower (word : List Char) : WordCased word (word.map Char.toLower) :=
  List.forall₂_map_right_iff.mpr (List.forall₂_same.mpr fun _ _ => .inr rfl)

/-- A word whose characters are raised is a casing of the word. -/
theorem wordCased_map_toUpper (word : List Char) : WordCased word (word.map Char.toUpper) :=
  List.forall₂_map_right_iff.mpr (List.forall₂_same.mpr fun _ _ => .inl rfl)

/-- A word that is lowered as a whole is a casing of the word. -/
theorem wordCased_toLower {word : List Char} (h : ∀ c ∈ word, isNamePart c = true) :
    WordCased word (toLower word) := by
  rw [toLower_eq_map h]
  exact wordCased_map_toLower word

/-- A word that gets a capital is a casing of the word. -/
theorem wordCased_capitalize {word : List Char} (h : ∀ c ∈ word, isNamePart c = true) :
    WordCased word (capitalize word) := by
  cases word with
  | nil => exact .nil
  | cons first word =>
    rw [List.forall_mem_cons] at h
    rw [capitalize_cons h.1 h.2]
    exact .cons (.inl rfl) (wordCased_map_toLower word)

/-- Every case writes all words one behind the other, with nothing or an underscore between them. -/
theorem exists_cased_of_join {case : Case} (hcase : case ≠ .preserve) {words : List (List Char)}
    (h : ∀ word ∈ words, ∀ c ∈ word, isNamePart c = true) :
    ∃ separator cased, (separator = [] ∨ separator = ['_']) ∧ List.Forall₂ WordCased words cased ∧
      case.join words = List.intercalate separator cased := by
  have hall {f : List Char → List Char} (hf : ∀ word ∈ words, WordCased word (f word)) :
      List.Forall₂ WordCased words (words.map f) :=
    List.forall₂_map_right_iff.mpr (List.forall₂_same.mpr hf)
  cases case with
  | pascal =>
    refine ⟨[], _, .inl rfl, hall fun word hword => wordCased_capitalize (h word hword), ?_⟩
    rw [Case.join, intercalate_nil_left, List.flatMap_def]
  | camel =>
    cases words with
    | nil => exact ⟨[], [], .inl rfl, .nil, rfl⟩
    | cons first rest =>
      rw [List.forall_mem_cons] at h
      have hrest : List.Forall₂ WordCased rest (rest.map capitalize) :=
        List.forall₂_map_right_iff.mpr
          (List.forall₂_same.mpr fun word hword => wordCased_capitalize (h.2 word hword))
      refine ⟨[], _, .inl rfl, .cons (wordCased_toLower h.1) hrest, ?_⟩
      rw [Case.join, intercalate_nil_left, List.flatMap_def, List.flatten_cons]
  | snake =>
    exact ⟨['_'], _, .inr rfl, hall fun word hword => wordCased_toLower (h word hword), rfl⟩
  | screamingSnake =>
    refine ⟨['_'], _, .inr rfl, hall fun word hword => ?_, rfl⟩
    rw [toUpper_eq_map (h word hword)]
    exact wordCased_map_toUpper word
  | preserve => exact absurd rfl hcase

/-- Letters, digits and underscores stay such. -/
theorem WordCased.isNamePart {word cased : List Char} (h : WordCased word cased)
    (hword : ∀ c ∈ word, Schema.isNamePart c = true) : ∀ c ∈ cased, Schema.isNamePart c = true := by
  induction h with
  | nil => exact hword
  | cons hletter _ ih =>
    rw [List.forall_mem_cons] at hword ⊢
    exact ⟨(hletter.isNamePart hword.1).1, ih hword.2⟩

/-! ## Names in a case -/

/-- The characters of a name that are letters or digits are those that are no underscores. -/
theorem filter_isAlphanumeric {name : List Char} (h : ∀ c ∈ name, isNamePart c = true) :
    name.filter isAlphanumeric = name.filter (· ≠ '_') :=
  List.filter_congr fun c hc => isAlphanumeric_of_isNamePart (h c hc)

/-- A case keeps to the characters of names, and starts as the first letter or digit of the name, in
upper or in lower case. -/
theorem exists_cased_of_applyChars {case : Case} (hcase : case ≠ .preserve) {name : List Char}
    (h : ∀ c ∈ name, isNamePart c = true) {first : Char} {rest : List Char}
    (hfirst : name.filter (· ≠ '_') = first :: rest) :
    ∃ cased more, case.applyChars name = cased :: more ∧ CasedFrom first cased ∧
      ∀ c ∈ more, isNamePart c = true := by
  have hwords : ∀ word ∈ splitWords name, ∀ c ∈ word, isNamePart c = true :=
    fun word hword c hc => h c (mem_of_mem_splitWords hword hc).1
  have hflat := flatten_splitWords name
  rw [filter_isAlphanumeric h, hfirst] at hflat
  obtain ⟨separator, casedWords, hseparator, hcased, hjoin⟩ := exists_cased_of_join hcase hwords
  have hsome : splitWords name ≠ [] := by
    intro hnil
    simp [hnil] at hflat
  have hflatCased : WordCased (splitWords name).flatten casedWords.flatten :=
    List.rel_flatten hcased
  have hparts : ∀ c ∈ List.intercalate separator casedWords, isNamePart c = true := by
    intro c hc
    rcases mem_flatten_intersperse hc with hmem | ⟨word, hword, hmem⟩
    · rcases hseparator with rfl | rfl
      · exact absurd hmem List.not_mem_nil
      · obtain rfl := List.mem_singleton.mp hmem
        decide
    · refine hflatCased.isNamePart (fun letter hletter => ?_) c (List.mem_flatten_of_mem hword hmem)
      obtain ⟨source, hsource, hin⟩ := List.mem_flatten.mp hletter
      exact hwords source hsource letter hin
  rw [Case.applyChars, if_neg (by simp [hcase, hsome]), hjoin]
  cases hsplit : splitWords name with
  | nil => exact absurd hsplit hsome
  | cons word words =>
    rw [hsplit] at hcased hflat
    cases hcased with
    | cons hword hothers =>
      cases hword with
      | nil => exact absurd rfl (ne_nil_of_mem_splitWords (hsplit ▸ List.mem_cons_self))
      | cons hletter hletters =>
        rw [List.flatten_cons, List.cons_append, List.cons.injEq] at hflat
        obtain ⟨rfl, -⟩ := hflat
        rw [List.intercalate_cons_cons_left] at hparts ⊢
        exact ⟨_, _, rfl, hletter, (List.forall_mem_cons.mp hparts).2⟩

/-- The first character that is no underscore stands behind the underscores at the start. -/
theorem head?_filter_underscores (name : List Char) :
    (name.filter (· ≠ '_')).head? = (name.dropWhile (· = '_')).head? := by
  rw [List.head?_filter, List.find?_eq_head?_dropWhile_not]
  simp

/-- A name is written in a case as it is if it has no letter or digit. -/
theorem applyChars_eq_self {name : List Char} (h : ∀ c ∈ name, isNamePart c = true)
    (hnone : name.filter (· ≠ '_') = []) (case : Case) : case.applyChars name = name := by
  have hwords : splitWords name = [] :=
    (splitWords_eq_nil_iff name).mpr (by rw [filter_isAlphanumeric h, hnone])
  rw [Case.applyChars, hwords]
  simp

/-- Whether a text is a word: letters, digits and underscores, at least one. -/
def IsWord (text : String) : Prop :=
  text ≠ "" ∧ ∀ c ∈ text.toList, isNamePart c = true

/-- Whether a text is a word can be decided from its characters. -/
instance (text : String) : Decidable (IsWord text) :=
  decidable_of_iff (text ≠ "" ∧ text.toList.all isNamePart = true)
    (and_congr_right fun _ => List.all_eq_true)

/-- Identifiers are made of letters, digits and underscores. -/
theorem isWord_of_isIdentifier {name : String} (h : IsIdentifier name) : IsWord name := by
  obtain ⟨first, rest, hname, hfirst, hrest⟩ := h
  constructor
  · rintro rfl
    simp at hname
  · rw [hname]
    exact List.forall_mem_cons.mpr ⟨(isNamePart_iff first).mpr (.inl hfirst), hrest⟩

/-- An identifier is made of letters, digits and underscores in every case. -/
theorem isWord_apply (case : Case) {name : String} (h : IsIdentifier name) :
    IsWord (case.apply name) := by
  obtain ⟨hne, hparts⟩ := isWord_of_isIdentifier h
  have hself : case.applyChars name.toList = name.toList → IsWord (case.apply name) := by
    intro hkept
    rw [Case.apply, hkept, String.ofList_toList]
    exact ⟨hne, hparts⟩
  by_cases hcase : case = .preserve
  · exact hself (by rw [Case.applyChars, if_pos (.inl hcase)])
  · cases hfilter : name.toList.filter (· ≠ '_') with
    | nil => exact hself (applyChars_eq_self hparts hfilter case)
    | cons first rest =>
      obtain ⟨cased, more, happly, hfrom, hmore⟩ := exists_cased_of_applyChars hcase hparts hfilter
      have hmem : first ∈ name.toList.filter (· ≠ '_') := by rw [hfilter]; exact List.mem_cons_self
      have htext : (case.apply name).toList = cased :: more := by
        rw [Case.apply, String.toList_ofList, happly]
      constructor
      · intro hempty
        simp [hempty] at htext
      · rw [htext]
        exact List.forall_mem_cons.mpr
          ⟨(hfrom.isNamePart (hparts first (List.mem_of_mem_filter hmem))).1, hmore⟩

/-- A text of letters, digits and underscores is an identifier unless it starts with a digit. -/
theorem isIdentifier_cons_iff {word : String} {first : Char} {rest : List Char}
    (hword : word.toList = first :: rest) (hfirst : isNamePart first = true)
    (hrest : ∀ c ∈ rest, isNamePart c = true) :
    IsIdentifier word ↔ first.isDigit = false := by
  constructor
  · intro h
    obtain ⟨start, more, hstart, hletter, -⟩ := h
    obtain ⟨rfl, -⟩ := List.cons.inj (hword.symm.trans hstart)
    exact isDigit_of_isNameStart hletter
  · intro hdigit
    have hletter : isNameStart first = true :=
      ((isNamePart_iff first).mp hfirst).resolve_right (by simp [hdigit])
    exact ⟨first, rest, hword, hletter, hrest⟩

/-- Whatever the case, an identifier is written with letters, digits and underscores, at least one.
It stays an identifier exactly if the case is kept or no digit is the first character that is no
underscore. -/
theorem apply_isIdentifier_iff (case : Case) (name : String) (h : IsIdentifier name) :
    case.apply name ≠ "" ∧ (∀ c ∈ (case.apply name).toList, isNamePart c = true) ∧
      (IsIdentifier (case.apply name) ↔
        case = .preserve ∨ startsWithDigit (name.toList.dropWhile (· = '_')) = false) := by
  have hparts : ∀ c ∈ name.toList, isNamePart c = true := by
    obtain ⟨first, rest, hname, hfirst, hrest⟩ := h
    rw [hname]
    exact List.forall_mem_cons.mpr ⟨(isNamePart_iff first).mpr (.inl hfirst), hrest⟩
  have hself : case.applyChars name.toList = name.toList → case.apply name ≠ "" ∧
      (∀ c ∈ (case.apply name).toList, isNamePart c = true) ∧ IsIdentifier (case.apply name) := by
    intro hkept
    rw [Case.apply, hkept, String.ofList_toList]
    refine ⟨?_, hparts, h⟩
    rintro rfl
    exact absurd h (by decide)
  have hhead := head?_filter_underscores name.toList
  cases hfilter : name.toList.filter (· ≠ '_') with
  | nil =>
    obtain ⟨hne, hall, hidentifier⟩ := hself (applyChars_eq_self hparts hfilter case)
    rw [hfilter, List.head?_nil, eq_comm, List.head?_eq_none_iff] at hhead
    exact ⟨hne, hall, iff_of_true hidentifier (.inr (by rw [hhead]; rfl))⟩
  | cons first rest =>
    by_cases hcase : case = .preserve
    · obtain ⟨hne, hall, hidentifier⟩ := hself (by rw [Case.applyChars, if_pos (.inl hcase)])
      exact ⟨hne, hall, iff_of_true hidentifier (.inl hcase)⟩
    · obtain ⟨cased, more, happly, hfrom, hmore⟩ := exists_cased_of_applyChars hcase hparts hfilter
      have hmem : first ∈ name.toList.filter (· ≠ '_') := by rw [hfilter]; exact List.mem_cons_self
      obtain ⟨hfirst, hletter⟩ := List.mem_filter.mp hmem
      obtain ⟨hpart, hdigit⟩ := hfrom.isNamePart (hparts first hfirst)
      have htext : (case.apply name).toList = cased :: more := by
        rw [Case.apply, String.toList_ofList, happly]
      refine ⟨fun hempty => by simp [hempty] at htext, ?_, ?_⟩
      · rw [htext]
        exact List.forall_mem_cons.mpr ⟨hpart, hmore⟩
      · rw [hfilter, List.head?_cons, eq_comm] at hhead
        obtain ⟨behind, hbehind⟩ := List.head?_eq_some_iff.mp hhead
        rw [isIdentifier_cons_iff htext hpart hmore, hdigit, hbehind, startsWithDigit,
          or_iff_right hcase]

/-- A letter behind underscores is the first of an identifier again. -/
theorem apply_underscored :
    IsIdentifier "__maxSize2" ∧ Case.snake.apply "__maxSize2" = "max_size2" ∧
    IsIdentifier (Case.snake.apply "__maxSize2") := by
  have h : IsIdentifier "__maxSize2" := by decide
  exact ⟨h, by decide +kernel,
    (apply_isIdentifier_iff .snake "__maxSize2" h).2.2.mpr (.inr (by decide))⟩

/-- A digit behind an underscore is the first character of a text that is no identifier. -/
theorem not_isIdentifier_apply : IsIdentifier "_2d" ∧ Case.pascal.apply "_2d" = "2d" ∧
    ¬ IsIdentifier (Case.pascal.apply "_2d") := by
  have happly : Case.pascal.apply "_2d" = "2d" := by decide +kernel
  exact ⟨by decide, happly, by rw [happly]; decide⟩

end SchemaBindings.Naming
