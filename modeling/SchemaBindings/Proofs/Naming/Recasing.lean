import SchemaBindings.Proofs.Naming.Identifiers

/-!
# What re-casing changes

Words are cut at separators and in front of capitals, and written again with other letters and other
separators. Nothing is lost, added or swapped on the way: apart from underscores and from upper and
lower case, a name of a schema is the same in every case.
-/

namespace SchemaBindings.Naming

open SchemaBindings.Schema (IsIdentifier isNamePart)
open SchemaBindings.Text

/-- The letters and digits of a name, lowered. -/
def bareLower (name : String) : List Char :=
  toLower (name.toList.filter (· ≠ '_'))

/-! ## Letters in upper and in lower case -/

/-- A letter or digit in upper or in lower case is no underscore, and it is lowered to the same
character. -/
theorem CasedFrom.toLower_eq {c cased : Char} (h : CasedFrom c cased)
    (hc : Schema.isNamePart c = true) :
    cased.toLower = c.toLower ∧ (c ≠ '_' → cased ≠ '_') := by
  have hboth : (c.toUpper.toLower = c.toLower ∧ c.toLower.toLower = c.toLower) ∧
      (c ≠ '_' → c.toUpper ≠ '_' ∧ c.toLower ≠ '_') :=
    forall_isNamePart
        (P := fun c => (c.toUpper.toLower = c.toLower ∧ c.toLower.toLower = c.toLower) ∧
      (c ≠ '_' → c.toUpper ≠ '_' ∧ c.toLower ≠ '_')) (by decide) hc
  rcases h with rfl | rfl
  · exact ⟨hboth.1.1, fun hne => (hboth.2 hne).1⟩
  · exact ⟨hboth.1.2, fun hne => (hboth.2 hne).2⟩

/-- A word in upper and lower case is lowered to the same word. -/
theorem WordCased.toLower_eq {word cased : List Char} (h : WordCased word cased)
    (hword : ∀ c ∈ word, Schema.isNamePart c = true) : toLower cased = toLower word := by
  rw [toLower_eq_map hword, toLower_eq_map (h.isNamePart hword)]
  induction h with
  | nil => rfl
  | cons hletter _ ih =>
    rw [List.forall_mem_cons] at hword
    rw [List.map_cons, List.map_cons, (hletter.toLower_eq hword.1).1, ih hword.2]

/-- A word without underscores has none in upper and lower case. -/
theorem WordCased.underscore_notMem {word cased : List Char} (h : WordCased word cased)
    (hword : ∀ c ∈ word, Schema.isNamePart c = true) (hbare : '_' ∉ word) : '_' ∉ cased := by
  induction h with
  | nil => exact hbare
  | cons hletter _ ih =>
    rw [List.forall_mem_cons] at hword
    rw [List.mem_cons, not_or] at hbare ⊢
    exact ⟨((hletter.toLower_eq hword.1).2 (Ne.symm hbare.1)).symm, ih hword.2 hbare.2⟩

/-- Between words without underscores, nothing but underscores is added. -/
theorem filter_intercalate {separator : List Char} (hseparator : separator = [] ∨ separator = ['_'])
    {words : List (List Char)} (hwords : '_' ∉ words.flatten) :
    (List.intercalate separator words).filter (· ≠ '_') = words.flatten := by
  have hbare : separator.filter (· ≠ '_') = [] := by
    rcases hseparator with rfl | rfl <;> rfl
  induction words with
  | nil => rfl
  | cons word rest ih =>
    rw [List.flatten_cons, List.mem_append, not_or] at hwords
    have hword : word.filter (· ≠ '_') = word :=
      List.filter_eq_self.mpr fun c hc => decide_eq_true fun hsame => hwords.1 (hsame ▸ hc)
    cases rest with
    | nil => simpa using hword
    | cons next rest =>
      rw [List.intercalate_cons_cons, List.filter_append, List.filter_append, hword, hbare,
        List.append_nil, ih hwords.2]
      rfl

/-! ## Names -/

/-- Re-casing changes nothing but case and underscores. -/
theorem bareLower_apply (case : Case) {name : String} (h : IsIdentifier name) :
    bareLower (case.apply name) = bareLower name := by
  have hparts := (isWord_of_isIdentifier h).2
  unfold bareLower
  by_cases hkept : case = .preserve ∨ (splitWords name.toList).isEmpty = true
  · rw [Case.apply, Case.applyChars, if_pos hkept, String.ofList_toList]
  · have hwords : ∀ word ∈ splitWords name.toList, ∀ c ∈ word, isNamePart c = true :=
      fun word hword c hc => hparts c (mem_of_mem_splitWords hword hc).1
    obtain ⟨separator, cased, hseparator, hcased, hjoin⟩ :=
      exists_cased_of_join (not_or.mp hkept).1 hwords
    have hflat : WordCased (name.toList.filter (· ≠ '_')) cased.flatten := by
      rw [← filter_isAlphanumeric hparts, ← flatten_splitWords]
      exact List.rel_flatten hcased
    have hbareParts : ∀ c ∈ name.toList.filter (· ≠ '_'), isNamePart c = true :=
      fun c hc => hparts c (List.mem_of_mem_filter hc)
    rw [Case.apply, Case.applyChars, if_neg hkept, String.toList_ofList, hjoin,
      filter_intercalate hseparator (hflat.underscore_notMem hbareParts (by simp))]
    exact hflat.toLower_eq hbareParts

/-- The words of a text are not empty, and they are its letters and digits, in order. A case changes
nothing of a name of a schema but upper and lower case and underscores. -/
theorem words_kept_in_cases :
    (∀ text : String, (splitWords text.toList).flatten = text.toList.filter isAlphanumeric ∧
      ∀ word ∈ splitWords text.toList, word ≠ [] ∧ ∀ c ∈ word, isAlphanumeric c = true) ∧
    ∀ (case : Case) (name : String), IsIdentifier name →
      bareLower (case.apply name) = bareLower name :=
  ⟨fun text => ⟨flatten_splitWords text.toList, fun _ hword =>
      ⟨ne_nil_of_mem_splitWords hword, fun _ hc => (mem_of_mem_splitWords hword hc).2⟩⟩,
    fun case _ h => bareLower_apply case h⟩

/-- A name with all kinds of boundaries has four words, and its capitals and underscores are all
that differs. -/
theorem words_kept_getHTTPServer :
    (splitWords "_get__HTTPServer2D".toList = ["get".toList, "HTTP".toList,
      "Server2".toList, "D".toList] ∧
      (splitWords "_get__HTTPServer2D".toList).flatten =
        "_get__HTTPServer2D".toList.filter isAlphanumeric) ∧
    Case.camel.apply "_get__HTTPServer2D" = "getHttpServer2D" ∧ IsIdentifier "_get__HTTPServer2D" ∧
      bareLower (Case.camel.apply "_get__HTTPServer2D") = bareLower "_get__HTTPServer2D" := by
  have hidentifier : IsIdentifier "_get__HTTPServer2D" := by decide
  exact ⟨⟨by decide +kernel, (words_kept_in_cases.1 "_get__HTTPServer2D").1⟩,
    by decide +kernel, hidentifier, words_kept_in_cases.2 .camel "_get__HTTPServer2D" hidentifier⟩

end SchemaBindings.Naming
