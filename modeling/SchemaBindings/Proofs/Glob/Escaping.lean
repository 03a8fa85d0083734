import SchemaBindings.Proofs.Glob.Finding

/-!
# Escaped texts in globs

A piece without wildcards is read as its characters. An escaped piece is read as tokens that it
alone fits, so its step leads to it and nowhere else.
-/

namespace SchemaBindings.Glob

/-! ## Characters -/

/-- Tokens stand for a name exactly if the first one stands for its first character and the others
for the rest. -/
theorem mapM_char?_cons_eq_some {token : Token} {tokens : List Token} {name : List Char} :
    (token :: tokens).mapM Token.char? = some name ↔
      ∃ c rest, token.char? = some c ∧ tokens.mapM Token.char? = some rest ∧ c :: rest = name := by
  simp [List.mapM_cons, Option.bind_eq_some_iff]

/-- Brackets stand for no single character. -/
theorem char?_of_readClass {chars left : List Char} {token : Token}
    (h : readClass chars = some (token, left)) :
    token.char? = none := by
  unfold readClass at h
  split at h
  · obtain ⟨read, -, hsame⟩ := Option.map_eq_some_iff.mp h
    cases hsame
    rfl
  · obtain ⟨read, -, hsame⟩ := Option.map_eq_some_iff.mp h
    cases hsame
    rfl

/-- Tokens that were put together with a first one are that one and those that were read behind it.
-/
theorem exists_of_map_cons_eq_ok {token : Token} {tokens : List Token}
    {result : Except PatternFault (List Token)} (h : result.map (token :: ·) = .ok tokens) :
    ∃ more, result = .ok more ∧ tokens = token :: more := by
  cases result with
  | error fault => contradiction
  | ok more => exact ⟨more, rfl, (Except.ok.inj h).symm⟩

/-- Tokens that all stand for characters are read from these characters. -/
theorem eq_of_mapM_char? {pieceStarts : Bool} {chars name : List Char} {tokens : List Token}
    (hread : readTokens pieceStarts chars = .ok tokens)
    (hname : tokens.mapM Token.char? = some name) : chars = name := by
  fun_induction readTokens pieceStarts chars generalizing tokens name with
  | case1 =>
    cases hread
    exact Option.some.inj hname
  | case2 _ rest ih | case5 rest _ ih | case8 _ rest _ _ ih =>
    obtain ⟨more, -, rfl⟩ := exists_of_map_cons_eq_ok hread
    obtain ⟨c, _, hc, -⟩ := mapM_char?_cons_eq_some.mp hname
    contradiction
  | case4 =>
    cases hread
    obtain ⟨c, _, hc, -⟩ := mapM_char?_cons_eq_some.mp hname
    contradiction
  | case3 | case6 | case7 | case9 => contradiction
  | case10 _ rest token left hclass _ ih =>
    obtain ⟨more, -, rfl⟩ := exists_of_map_cons_eq_ok hread
    obtain ⟨c, _, hc, -⟩ := mapM_char?_cons_eq_some.mp hname
    rw [char?_of_readClass hclass] at hc
    contradiction
  | case11 _ c rest _ _ _ _ _ ih =>
    obtain ⟨more, hmore, rfl⟩ := exists_of_map_cons_eq_ok hread
    obtain ⟨d, others, hd, hothers, rfl⟩ := mapM_char?_cons_eq_some.mp hname
    rw [ih hmore hothers, Option.some.inj hd]

/-! ## Escaped texts -/

/-- The characters that are escaped. -/
def isWildcard (c : Char) : Bool :=
  c ∈ ['?', '*', '[', ']']

/-- What an escaped character is read as. -/
def escapedToken (c : Char) : Token :=
  if isWildcard c then .within [⟨c, c⟩] else .char c

/-- A text is escaped character by character. -/
theorem escape_cons (c : Char) (text : List Char) :
    escape (c :: text) = (if isWildcard c then ['[', c, ']'] else [c]) ++ escape text := by
  simp only [escape, List.flatMap_cons, isWildcard, decide_eq_true_eq]

/-- An escaped text is read as one token for each of its characters. -/
theorem readTokens_escape {text : List Char} (hslash : '/' ∉ text) (pieceStarts : Bool) :
    readTokens pieceStarts (escape text) = .ok (text.map escapedToken) := by
  induction text generalizing pieceStarts with
  | nil => rw [escape, List.flatMap_nil, readTokens, List.map_nil]
  | cons c text ih =>
    rw [List.mem_cons, not_or] at hslash
    rw [escape_cons, List.map_cons, escapedToken]
    cases hwild : isWildcard c with
    | true =>
      have hclass : readClass (c :: ']' :: escape text) = some (.within [⟨c, c⟩], escape text) := by
        have hc : c = '?' ∨ c = '*' ∨ c = '[' ∨ c = ']' := by simpa [isWildcard] using hwild
        rcases hc with rfl | rfl | rfl | rfl <;> simp [readClass, readRanges, ranges]
      simp only [if_true, List.cons_append, List.nil_append]
      rw [readTokens]
      split
      · next hnone => simp [hclass] at hnone
      · next token left hsome =>
        rw [hclass] at hsome
        cases hsome
        rw [ih hslash.2]
        rfl
    | false =>
      have hc : c ≠ '?' ∧ c ≠ '*' ∧ c ≠ '[' ∧ c ≠ ']' := by simpa [isWildcard] using hwild
      simp only [Bool.false_eq_true, if_false, List.cons_append, List.nil_append]
      rw [readTokens]
      · rw [ih hslash.2]
        rfl
      all_goals simp [hc]

/-- An escaped character is accepted by what it is read as, and no other. -/
theorem accepts_escapedToken (c d : Char) : (escapedToken c).accepts d = true ↔ d = c := by
  unfold escapedToken
  split
  · simp only [Token.accepts, List.any_cons, List.any_nil, Bool.or_false, Range.contains,
      Bool.and_eq_true, decide_eq_true_eq]
    exact and_comm.trans le_antisymm_iff.symm
  · simp [Token.accepts, eq_comm]

/-- Only the text itself fits an escaped text. -/
theorem fits_escaped_iff (text name : List Char) :
    fits (text.map escapedToken) name = true ↔ name = text := by
  induction text generalizing name with
  | nil => rw [List.map_nil, fits, List.isEmpty_iff]
  | cons c text ih =>
    have hrun : escapedToken c ≠ .anyRun := by
      unfold escapedToken
      split <;> simp
    rw [List.map_cons]
    cases name with
    | nil =>
      rw [fits]
      · simp
      · exact fun h => hrun h
    | cons d name =>
      rw [fits]
      · rw [Bool.and_eq_true, accepts_escapedToken, ih, List.cons.injEq]
      · exact fun h => hrun h

/-- The tokens of an escaped text stand for the text unless there is a wildcard in it. -/
theorem mapM_char?_escaped (text : List Char) :
    (text.map escapedToken).mapM Token.char? = if text.any isWildcard then none else some text := by
  induction text with
  | nil => rfl
  | cons c text ih =>
    rw [List.map_cons, List.mapM_cons, ih, List.any_cons, escapedToken]
    cases isWildcard c with
    | true => rfl
    | false => cases text.any isWildcard <;> rfl

/-- The step of an escaped text is the text itself, or a pattern that it alone fits. -/
theorem ofTokens_escaped (text : List Char) : Step.ofTokens (text.map escapedToken) =
    if text.any isWildcard then .pattern (text.map escapedToken)
    else .literal (String.ofList text) := by
  have hdeep : text.map escapedToken ≠ [.anyDepth] := by
    intro h
    obtain ⟨c, -, hc⟩ := List.map_eq_singleton_iff.mp h
    unfold escapedToken at hc
    split at hc <;> simp at hc
  rw [Step.ofTokens, if_neg hdeep, mapM_char?_escaped]
  cases text.any isWildcard <;> rfl

/-- No dots fit a text with a wildcard. -/
theorem dots_escaped {text : List Char} (h : text.any isWildcard = true) :
    dots (text.map escapedToken) = [] := by
  unfold dots
  split
  · refine List.filter_eq_nil_iff.mpr fun name hname hfits => ?_
    obtain rfl := (fits_escaped_iff _ _).mp hfits
    have hplain : ∀ name ∈ [".", ".."], name.toList.any isWildcard = false := by decide
    simp [hplain name hname] at h
  · rfl

/-- Along an escaped text, steps lead to the text. -/
theorem Leads.of_escaped {tree : FileTree} {cwd : Place} {text : List Char} {rest : List Step}
    {path found : Path}
    (h : Leads tree cwd (.ofTokens (text.map escapedToken) :: rest) path found) :
    Leads tree cwd rest (stepTo path (String.ofList text)) found := by
  rw [ofTokens_escaped] at h
  split at h
  · next hwild =>
    cases h with
    | name hplace hname hfits h =>
      rw [fits_escaped_iff, ← String.toList_ofList (l := text), String.toList_inj] at hfits
      exact hfits ▸ h
    | dots hplace hname h => simp [dots_escaped hwild] at hname
  · cases h with
    | literal hthere h => exact h

end SchemaBindings.Glob
