import Mathlib.Data.List.TakeWhile
import Mathlib.Tactic.Tauto
import SchemaBindings.Proofs.Schema.Layout

/-!
# Lexing undoes spelling

Each spelling is read as its token, whatever follows it without continuing it. Trivia is skipped as
a whole, so a text that spells tokens one behind the other is read as these tokens and nothing is at
fault.
-/

namespace SchemaBindings.Schema

open SchemaBindings.Text (isBlank trim trimEnd trimStart)

/-! ## Texts, digits and marks -/

/-- A run of characters of a kind, in front of a text that avoids them, is the longest one. -/
theorem takeWhile_append_of_avoids {p : Char → Bool} {run behind : List Char}
    (hrun : ∀ c ∈ run, p c = true) (hbehind : Avoids p behind) :
    (run ++ behind).takeWhile p = run := by
  rw [List.takeWhile_append_of_pos hrun]
  cases behind with
  | nil => simp
  | cons c rest => simp [hbehind c rfl]

/-- Dropping a run of characters of a kind leaves the text behind that avoids them. -/
theorem dropWhile_append_of_avoids {p : Char → Bool} {run behind : List Char}
    (hrun : ∀ c ∈ run, p c = true) (hbehind : Avoids p behind) :
    (run ++ behind).dropWhile p = behind := by
  rw [List.dropWhile_append_of_pos hrun]
  cases behind with
  | nil => rfl
  | cons c rest => simp [hbehind c rfl]

/-- The content of a text literal is read back from its escaped form. -/
theorem readText_flatMap_escape (content behind : List Char) :
    readText (content.flatMap escape ++ '"' :: behind) =
      ⟨content.flatMap escape ++ ['"'], .ok content, behind⟩ := by
  induction content with
  | nil => rfl
  | cons c content ih =>
    rw [List.flatMap_cons, List.append_assoc]
    generalize content.flatMap escape = escaped at ih ⊢
    generalize escaped ++ '"' :: behind = tail at ih ⊢
    unfold escape
    split
    · simp [readText, unescape, ih, Except.map]
    · simp [readText, unescape, ih, Except.map]
    · simp [readText, unescape, ih, Except.map]
    · simp [readText, unescape, ih, Except.map]
    · next hquote hbackslash hfeed _ =>
      rw [List.singleton_append, readText]
      · simp [ih, Except.map]
      · exact hquote
      · exact hfeed
      · exact fun h _ => hbackslash h
      · exact fun _ _ h _ => hbackslash h

/-- Digits behind a sign are read as an integer. -/
theorem readNumber_integer {digits behind : List Char} (hdigits : IsDigits digits)
    (hends : Avoids Char.isDigit behind)
    (hpoint : ∀ c rest, behind = '.' :: c :: rest → c.isDigit = false) (negative : Bool) :
    readNumber negative (digits ++ behind) = ⟨digits, integerToken negative digits, behind⟩ := by
  unfold readNumber
  rw [takeWhile_append_of_avoids hdigits.2 hends, dropWhile_append_of_avoids hdigits.2 hends]
  split
  · next c rest => rw [if_neg (by simp [hpoint c rest rfl])]
  · rfl

/-- Digits on either side of a point are read as a number with a point. -/
theorem readNumber_float {whole fraction behind : List Char} (hwhole : IsDigits whole)
    (hfraction : IsDigits fraction) (hends : Avoids Char.isDigit behind) (negative : Bool) :
    readNumber negative (whole ++ '.' :: (fraction ++ behind)) =
      ⟨whole ++ '.' :: fraction, .ok (floatToken negative whole fraction), behind⟩ := by
  have hpoint : Avoids Char.isDigit ('.' :: (fraction ++ behind)) := by simp [Avoids]
  unfold readNumber
  rw [takeWhile_append_of_avoids hwhole.2 hpoint, dropWhile_append_of_avoids hwhole.2 hpoint]
  obtain ⟨hne, hdigits⟩ := hfraction
  cases fraction with
  | nil => contradiction
  | cons first rest =>
    have hfirst := hdigits first List.mem_cons_self
    have htake := takeWhile_append_of_avoids hdigits hends
    have hdrop := dropWhile_append_of_avoids hdigits hends
    rw [List.cons_append] at htake hdrop ⊢
    simp only [hfirst, if_true, htake, hdrop]

/-- A character that is no punctuation mark is looked up as none. -/
theorem ofChar?_eq_none {c : Char} (h : ∀ mark : Symbol, mark.char ≠ c) :
    Symbol.ofChar? c = none := by
  rw [Symbol.ofChar?, List.find?_eq_none]
  simpa using fun mark _ => h mark

/-- The character of a punctuation mark is looked up as that mark. -/
theorem ofChar?_char (mark : Symbol) : Symbol.ofChar? mark.char = some mark := by
  cases mark <;> rfl

/-- No punctuation mark is a letter, an underscore or a digit. -/
theorem isNamePart_char (mark : Symbol) : isNamePart mark.char = false := by
  cases mark <;> rfl

/-- The codes of digits. -/
theorem code_of_isDigit {c : Char} (h : c.isDigit = true) : 48 ≤ c.toNat ∧ c.toNat ≤ 57 := by
  simpa [Char.isDigit, UInt32.le_iff_toNat_le] using h

/-- The codes of letters and of the underscore. -/
theorem code_of_isNameStart {c : Char} (h : isNameStart c = true) :
    c.toNat = 95 ∨ 65 ≤ c.toNat ∧ c.toNat ≤ 90 ∨ 97 ≤ c.toNat ∧ c.toNat ≤ 122 := by
  have hkinds : ((c.isUpper || c.isLower) || decide (c = '_')) = true := h
  rw [Bool.or_eq_true, Bool.or_eq_true, decide_eq_true_eq] at hkinds
  rcases hkinds with (hupper | hlower) | rfl
  · have hrange : 'A'.val ≤ c.val ∧ c.val ≤ 'Z'.val := of_decide_eq_true hupper
    exact Or.inr (Or.inl ⟨UInt32.le_iff_toNat_le.mp hrange.1, UInt32.le_iff_toNat_le.mp hrange.2⟩)
  · have hrange : (decide ('a'.val ≤ c.val) && decide (c.val ≤ 'z'.val)) = true := hlower
    rw [Bool.and_eq_true, decide_eq_true_eq, decide_eq_true_eq] at hrange
    exact Or.inr (Or.inr ⟨UInt32.le_iff_toNat_le.mp hrange.1, UInt32.le_iff_toNat_le.mp hrange.2⟩)
  · exact Or.inl rfl

/-- The characters of a name are those that can start it and the digits. -/
theorem isNamePart_iff (c : Char) :
    isNamePart c = true ↔ isNameStart c = true ∨ c.isDigit = true := by
  simp only [isNamePart, isNameStart, Char.isAlphanum, Bool.or_eq_true]
  tauto

/-- Letters, underscores and digits are not blank. -/
theorem isBlank_of_isNamePart {c : Char} (h : isNamePart c = true) : isBlank c = false := by
  have hcode : c.toNat = 95 ∨ 48 ≤ c.toNat ∧ c.toNat ≤ 122 := by
    rcases (isNamePart_iff c).mp h with hstart | hdigit
    · have hcode := code_of_isNameStart hstart
      omega
    · have hcode := code_of_isDigit hdigit
      omega
  simp only [isBlank, Text.inTable, Text.whiteSpace, Text.CharRange.contains,
    List.any_cons, List.any_nil, Bool.or_false, Bool.or_eq_false_iff, Bool.and_eq_false_iff,
    decide_eq_false_iff_not]
  omega

/-- A letter or underscore is no digit. -/
theorem isDigit_of_isNameStart {c : Char} (h : isNameStart c = true) : c.isDigit = false := by
  rw [Bool.eq_false_iff]
  intro hdigit
  have hcode := code_of_isNameStart h
  have hcode' := code_of_isDigit hdigit
  omega

/-- A name character is no punctuation mark. -/
theorem ofChar?_of_isNamePart {c : Char} (h : isNamePart c = true) : Symbol.ofChar? c = none := by
  refine ofChar?_eq_none fun mark hmark => ?_
  rw [← hmark, isNamePart_char] at h
  contradiction

/-- Only a slash starts a comment. -/
theorem startsPlainComment_cons {c : Char} (h : c ≠ '/') (rest : List Char) :
    startsPlainComment (c :: rest) = false := by
  unfold startsPlainComment
  split <;> simp_all

/-! ## Trimming -/

/-- A text that trimming leaves alone has no blank at its start. -/
theorem trimStart_of_trim {text : List Char} (h : trim text = text) : trimStart text = text := by
  refine (List.dropWhile_suffix isBlank).eq_of_length (Nat.le_antisymm ?_ ?_)
  · exact (List.dropWhile_suffix isBlank).length_le
  · have hend : (trim text).length ≤ (trimStart text).length := by
      rw [trim, trimEnd, List.length_reverse]
      simpa using (List.dropWhile_suffix isBlank (l := (trimStart text).reverse)).length_le
    rwa [h] at hend

/-- Blanks around a trimmed text are trimmed off. -/
theorem trim_append {text before behind : List Char} (h : trim text = text)
    (hbefore : ∀ c ∈ before, isBlank c = true) (hbehind : ∀ c ∈ behind, isBlank c = true) :
    trim (before ++ (text ++ behind)) = text := by
  have hstart := trimStart_of_trim h
  have hend : trimEnd text = text := by rwa [trim, hstart] at h
  unfold trim trimStart
  rw [List.dropWhile_append_of_pos hbefore, List.dropWhile_append]
  split
  · next hempty =>
    have hblank : behind.dropWhile isBlank = [] := List.dropWhile_eq_nil_iff.mpr hbehind
    rw [trimStart] at hstart
    rw [hstart, List.isEmpty_iff] at hempty
    rw [hblank, hempty]
    rfl
  · have hreversed : ∀ c ∈ behind.reverse, isBlank c = true := by simpa using hbehind
    rw [trimStart] at hstart
    rw [hstart, trimEnd, List.reverse_append, List.dropWhile_append_of_pos hreversed]
    exact hend

/-! ## Reading a spelling -/

/-- A token is read from its first character and the text behind that. What is left differs from the
text behind the token at most by blanks, which a doc comment takes up to the end of its line. -/
structure ReadsAs (token : Token) (first : Char) (rest behind : List Char) : Prop where
  visible : isBlank first = false
  not_comment : startsPlainComment (first :: rest) = false
  value : (readToken first rest).value = .ok token
  left : ∃ blanks, (∀ c ∈ blanks, isBlank c = true) ∧ behind = blanks ++ (readToken first rest).rest

/-- A token that leaves exactly what is behind it. -/
theorem ReadsAs.exact {token : Token} {first : Char} {rest taken behind : List Char}
    (hvisible : isBlank first = false) (hcomment : startsPlainComment (first :: rest) = false)
    (hread : readToken first rest = ⟨taken, .ok token, behind⟩) :
    ReadsAs token first rest behind := by
  refine ⟨hvisible, hcomment, ?_, [], ?_, ?_⟩
  · rw [hread]
  · simp
  · rw [hread, List.nil_append]

/-- A name is read as it is spelled. -/
theorem readsAs_name {first : Char} {rest behind : List Char} (hfirst : isNameStart first = true)
    (hrest : ∀ c ∈ rest, isNamePart c = true) (hends : Avoids isNamePart behind) :
    ReadsAs (.name (String.ofList (first :: rest))) first (rest ++ behind) behind := by
  have hpart := (isNamePart_iff first).mpr (Or.inl hfirst)
  have hquote : first ≠ '"' := ne_of_apply_ne isNameStart (by rw [hfirst]; decide)
  have hslash : first ≠ '/' := ne_of_apply_ne isNameStart (by rw [hfirst]; decide)
  have hminus : first ≠ '-' := ne_of_apply_ne isNameStart (by rw [hfirst]; decide)
  have hread : readToken first (rest ++ behind) =
      ⟨rest, .ok (.name (String.ofList (first :: rest))), behind⟩ := by
    simp [readToken, ofChar?_of_isNamePart hpart, hquote, hslash, hminus,
      isDigit_of_isNameStart hfirst, hfirst, readWhile, takeWhile_append_of_avoids hrest hends,
      dropWhile_append_of_avoids hrest hends]
  exact .exact (isBlank_of_isNamePart hpart) (startsPlainComment_cons hslash _) hread

/-- What digits start is read in the same way with and without a sign. -/
theorem readToken_signed {content : Except LexicalFault Token} {digit : Char}
    {text behind : List Char} (negative : Bool) (hdigit : digit.isDigit = true)
    (hread : readNumber negative (digit :: (text ++ behind)) = ⟨digit :: text, content, behind⟩) :
    ∃ first taken, signed negative (digit :: text) = first :: taken ∧
      isBlank first = false ∧ first ≠ '/' ∧
      readToken first (taken ++ behind) = ⟨taken, content, behind⟩ := by
  cases negative with
  | true =>
    have hminus : Symbol.ofChar? '-' = none := rfl
    refine ⟨'-', digit :: text, rfl, rfl, by decide, ?_⟩
    simp [readToken, hminus, startsWithDigit, hdigit, hread]
  | false =>
    have hpart := (isNamePart_iff digit).mpr (Or.inr hdigit)
    have hquote : digit ≠ '"' := ne_of_apply_ne Char.isDigit (by rw [hdigit]; decide)
    have hslash : digit ≠ '/' := ne_of_apply_ne Char.isDigit (by rw [hdigit]; decide)
    have hminus : digit ≠ '-' := ne_of_apply_ne Char.isDigit (by rw [hdigit]; decide)
    refine ⟨digit, text, rfl, isBlank_of_isNamePart hpart, hslash, ?_⟩
    simp [readToken, ofChar?_of_isNamePart hpart, hquote, hslash, hminus, hdigit, hread]

/-- A number is read as it is spelled, with or without a sign. -/
theorem readsAs_signed {token : Token} {first : Char} {rest behind : List Char} (negative : Bool)
    (hfirst : first.isDigit = true)
    (hread : readNumber negative (first :: (rest ++ behind)) = ⟨first :: rest, .ok token, behind⟩) :
    ∃ start others, signed negative (first :: rest) ++ behind = start :: others ∧
      ReadsAs token start others behind := by
  obtain ⟨start, taken, hsigned, hvisible, hslash, hread'⟩ := readToken_signed negative hfirst hread
  exact ⟨start, taken ++ behind, congrArg (· ++ behind) hsigned,
    .exact hvisible (startsPlainComment_cons hslash _) hread'⟩

/-- A text literal is read as it is spelled. -/
theorem readsAs_text (content : String) (behind : List Char) :
    ReadsAs (.text content) '"' (content.toList.flatMap escape ++ '"' :: behind) behind := by
  have hread : readToken '"' (content.toList.flatMap escape ++ '"' :: behind) =
      ⟨content.toList.flatMap escape ++ ['"'], .ok (.text content), behind⟩ := by
    have hquote : Symbol.ofChar? '"' = none := rfl
    simp [readToken, hquote, readText_flatMap_escape, Except.map]
  exact .exact rfl (startsPlainComment_cons (by decide) _) hread

/-- A punctuation mark is read as it is spelled. -/
theorem readsAs_symbol (mark : Symbol) (behind : List Char) :
    ReadsAs (.symbol mark) mark.char behind behind := by
  have hslash : mark.char ≠ '/' := by cases mark <;> decide
  have hvisible : isBlank mark.char = false := by cases mark <;> rfl
  have hread : readToken mark.char behind = ⟨[], .ok (.symbol mark), behind⟩ := by
    simp [readToken, ofChar?_char]
  exact .exact hvisible (startsPlainComment_cons hslash _) hread

/-- A doc comment line is read as it is spelled, with the blanks up to the end of the line. -/
theorem readsAs_doc {line : String} {behind : List Char} (hline : '\n' ∉ line.toList)
    (htrimmed : trim line.toList = line.toList)
    (hends : ∀ c ∈ behind.takeWhile (· ≠ '\n'), isBlank c = true) :
    ReadsAs (.doc line) '/' ('/' :: '/' :: ' ' :: (line.toList ++ behind)) behind := by
  have hrun : ∀ c ∈ '/' :: '/' :: ' ' :: line.toList, decide (c ≠ '\n') = true := by
    simp only [List.mem_cons]
    intro c h
    rcases h with rfl | rfl | rfl | hc
    · decide
    · decide
    · decide
    · simpa using fun h : c = '\n' => hline (h ▸ hc)
  have htake := @List.takeWhile_append_of_pos Char _ _ behind hrun
  have hdrop := @List.dropWhile_append_of_pos Char _ _ behind hrun
  have htrim : trim (' ' :: (line.toList ++ behind.takeWhile (· ≠ '\n'))) = line.toList :=
    @trim_append _ [' '] _ htrimmed (List.all_eq_true.mp rfl) hends
  have hread : readToken '/' ('/' :: '/' :: ' ' :: line.toList ++ behind) =
      readDoc ('/' :: '/' :: ' ' :: line.toList ++ behind) := by
    have hslash : Symbol.ofChar? '/' = none := rfl
    simp [readToken, hslash]
  rw [readDoc, readWhile, htake, hdrop] at hread
  refine ⟨rfl, rfl, ?_, behind.takeWhile (· ≠ '\n'), hends, ?_⟩
  · rw [← List.cons_append, ← List.cons_append, ← List.cons_append, hread]
    simp only [List.cons_append, List.drop_succ_cons, List.drop_zero, htrim, String.ofList_toList]
  · rw [← List.cons_append, ← List.cons_append, ← List.cons_append, hread]
    exact List.takeWhile_append_dropWhile.symm

/-- Every token is read as it is spelled. -/
theorem Spells.readsAs {token : Token} {text behind : List Char} (h : Spells token text)
    (hends : Ends token behind) :
    ∃ first rest, text ++ behind = first :: rest ∧ ReadsAs token first rest behind := by
  cases h with
  | @name word hword =>
    obtain ⟨first, rest, hlist, hfirst, hrest⟩ := hword
    refine ⟨first, rest ++ behind, by rw [hlist, List.cons_append], ?_⟩
    have hread := readsAs_name hfirst hrest hends
    rwa [← hlist, String.ofList_toList] at hread
  | @integer negative digits hdigits hfits =>
    have hread := readNumber_integer hdigits hends.1 hends.2 negative
    rw [integerToken, if_pos hfits] at hread
    obtain ⟨hne, hall⟩ := hdigits
    cases digits with
    | nil => contradiction
    | cons first rest => exact readsAs_signed negative (hall first List.mem_cons_self) hread
  | @float negative whole fraction hwhole hfraction =>
    have hread := readNumber_float hwhole hfraction hends negative
    obtain ⟨hne, hall⟩ := hwhole
    cases whole with
    | nil => contradiction
    | cons first rest =>
      refine readsAs_signed negative (hall first List.mem_cons_self) ?_
      simpa [floatToken, decimalValue] using hread
  | text content =>
    refine ⟨'"', content.toList.flatMap escape ++ '"' ::
      behind, by simp, readsAs_text content behind⟩
  | @doc line hline htrimmed => exact ⟨'/', _, rfl, readsAs_doc hline htrimmed hends⟩
  | symbol mark => exact ⟨mark.char, behind, rfl, readsAs_symbol mark behind⟩

/-! ## Skipping trivia -/

/-- Two slashes start a plain comment unless one and no second one follows. -/
theorem startsPlainComment_slashes_iff (body : List Char) :
    startsPlainComment ('/' :: '/' :: body) = true ↔
    ∀ rest, body = '/' :: rest → rest.head? = some '/' := by
  cases body with
  | nil => simp [startsPlainComment]
  | cons c body =>
    by_cases hc : c = '/'
    · subst hc
      cases body with
      | nil => simp [startsPlainComment]
      | cons d body => by_cases hd : d = '/' <;> simp [startsPlainComment, hd]
    · simp [startsPlainComment, hc]

/-- The line feed behind a plain comment does not turn it into another token. -/
theorem startsPlainComment_append {body : List Char}
    (h : startsPlainComment ('/' :: '/' :: body) = true) (text : List Char) :
    startsPlainComment ('/' :: '/' :: (body ++ '\n' :: text)) = true := by
  rw [startsPlainComment_slashes_iff] at h ⊢
  intro rest hrest
  cases body with
  | nil => simp at hrest
  | cons c body =>
    obtain ⟨rfl, rfl⟩ : c = '/' ∧ body ++ '\n' :: text = rest := by simpa using hrest
    have hhead := h body rfl
    cases body with
    | nil => simp at hhead
    | cons d body => exact hhead

/-- A comment is skipped up to its line feed. -/
theorem splitTrivia_comment {body : List Char} (hbody : '\n' ∉ body) (text : List Char) :
    (splitTrivia true (body ++ '\n' :: text)).2 = (splitTrivia false text).2 := by
  induction body with
  | nil => simp [splitTrivia]
  | cons c body ih =>
    obtain ⟨hc, hbody⟩ : ¬ '\n' = c ∧ '\n' ∉ body := by simpa using hbody
    have hne : decide (c ≠ '\n') = true := by simpa using fun h : c = '\n' => hc h.symm
    simp only [List.cons_append, splitTrivia, hne, ih hbody]

/-- Trivia in front of a text is skipped. -/
theorem Trivia.splitTrivia_append {trivia : List Char} (h : Trivia trivia) (text : List Char) :
    (splitTrivia false (trivia ++ text)).2 = (splitTrivia false text).2 := by
  induction h with
  | nil => rfl
  | blank hblank _ ih => simp [splitTrivia, hblank, ih]
  | @comment body rest hplain hbody _ ih =>
    have hslash : isBlank '/' = false := rfl
    have hplain' := startsPlainComment_append hplain (rest ++ text)
    simp only [List.cons_append, List.append_assoc]
    simp [splitTrivia, hslash, hplain', splitTrivia_comment hbody, ih]

/-- Inside a comment that is not closed, the whole text is skipped. -/
theorem splitTrivia_unclosed {body : List Char} (hbody : '\n' ∉ body) :
    (splitTrivia true body).2 = [] := by
  induction body with
  | nil => rfl
  | cons c body ih =>
    obtain ⟨hc, hbody⟩ : ¬ '\n' = c ∧ '\n' ∉ body := by simpa using hbody
    have hne : decide (c ≠ '\n') = true := by simpa using fun h : c = '\n' => hc h.symm
    simp only [splitTrivia, hne, ih hbody]

/-- Trivia at the end of a text is skipped. -/
theorem TrailingTrivia.splitTrivia {trivia : List Char} (h : TrailingTrivia trivia) :
    (Schema.splitTrivia false trivia).2 = [] := by
  cases h with
  | closed h =>
    have hskip := h.splitTrivia_append []
    rwa [List.append_nil] at hskip
  | @comment trivia body h hplain hbody =>
    have hslash : isBlank '/' = false := rfl
    rw [h.splitTrivia_append]
    simp [Schema.splitTrivia, hslash, hplain, splitTrivia_unclosed hbody]

/-! ## Reading a text -/

/-- The tokens and errors of a text in order, without their places. -/
def contents (text : List Char) : List (Except LexicalFault Token) :=
  (pieces text).1.map Piece.content

/-- Nothing is read from trivia. -/
theorem contents_of_trivia {text : List Char} (h : (splitTrivia false text).2 = []) :
    contents text = [] := by
  unfold contents
  rw [pieces]
  split
  · rfl
  · next hcons => simp [h] at hcons

/-- Behind trivia, a token or error is read, and what is left of the text goes on. -/
theorem contents_of_cons {text rest : List Char} {first : Char}
    (h : (splitTrivia false text).2 = first :: rest) :
    contents text = (readToken first rest).value :: contents (readToken first rest).rest := by
  unfold contents
  conv => lhs; rw [pieces]
  split
  · next hnil => simp [h] at hnil
  · next c others hcons =>
    obtain ⟨rfl, rfl⟩ : first = c ∧ rest = others := by simpa [h] using hcons
    rfl

/-- Trivia in front of a text does not change what is read from it. -/
theorem Trivia.contents_append {trivia : List Char} (h : Trivia trivia) (text : List Char) :
    contents (trivia ++ text) = contents text := by
  have hskip := h.splitTrivia_append text
  cases htext : (splitTrivia false text).2 with
  | nil => rw [contents_of_trivia htext, contents_of_trivia (hskip.trans htext)]
  | cons first rest => rw [contents_of_cons htext, contents_of_cons (hskip.trans htext)]

/-- Blanks are trivia. -/
theorem trivia_of_blanks {blanks : List Char} (h : ∀ c ∈ blanks, isBlank c = true) :
    Trivia blanks := by
  induction blanks with
  | nil => exact .nil
  | cons c rest ih =>
    exact .blank (h c List.mem_cons_self) (ih fun d hd => h d (List.mem_cons_of_mem c hd))

/-- From a text that spells tokens, these tokens are read. -/
theorem Layout.contents_eq {tokens : List Token} {text : List Char} (h : Layout tokens text) :
    contents text = tokens.map .ok := by
  induction h with
  | nil htrivia => exact contents_of_trivia htrivia.splitTrivia
  | @cons token tokens trivia text behind htrivia hspells hends _ ih =>
    obtain ⟨first, rest, htext, hread⟩ := hspells.readsAs hends
    obtain ⟨blanks, hblanks, hleft⟩ := hread.left
    have hsplit : (splitTrivia false (first :: rest)).2 = first :: rest := by
      simp [splitTrivia, hread.visible, hread.not_comment]
    rw [htrivia.contents_append, htext, contents_of_cons hsplit, hread.value,
      List.map_cons, ← ih, hleft, (trivia_of_blanks hblanks).contents_append]

/-- Placing pieces keeps their contents. -/
theorem map_value_locate (position : Text.Position) (pieces : List Piece) :
    (locate position pieces).map Located.value = pieces.map Piece.content := by
  induction pieces generalizing position with
  | nil => rfl
  | cons piece others ih => simp [locate, ih]

/-- A text that spells tokens is lexed into these tokens, without a fault. -/
theorem Layout.lex {tokens : List Token} {text : List Char} (h : Layout tokens text) :
    (Schema.lex text).faults = [] ∧ (Schema.lex text).tokens.map Located.value = tokens := by
  have hitems : (Schema.lex text).items.map Located.value = tokens.map .ok :=
    (map_value_locate _ _).trans h.contents_eq
  unfold Lexing.faults Lexing.tokens
  generalize (Schema.lex text).items = items at hitems ⊢
  clear h
  induction items generalizing tokens with
  | nil =>
    obtain rfl : tokens = [] := by simpa using hitems.symm
    exact ⟨rfl, rfl⟩
  | cons item items ih =>
    cases tokens with
    | nil => simp at hitems
    | cons token tokens =>
      obtain ⟨hvalue, hitems⟩ : item.value = .ok token ∧
        items.map Located.value = tokens.map .ok := by
        simpa using hitems
      obtain ⟨hfaults, htokens⟩ := ih hitems
      simp [hvalue, hfaults, htokens]

end SchemaBindings.Schema
