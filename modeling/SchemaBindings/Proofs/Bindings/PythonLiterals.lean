import Mathlib.Data.List.Basic

/-!
# String literals of Python

How Python reads a string literal: a source holds no null character, line endings of all kinds are
line feeds, and between the quotes a backslash starts an escape, which has to be a valid one. Three
quotes that no backslash stands in front of close a long literal. A literal stands for code points,
since an escape may name any of them, and what is behind it is left for the rest of the program.

What a literal stands for can be counted. An escape takes more characters than it stands for, so a
literal with escapes stands for less than is written, blanks and line feeds aside, which are what a
writer may add to a text.
-/

namespace SchemaBindings.Bindings.PythonLiteral

/-! ## Escapes -/

/-- The characters that are an escape behind a backslash, and the code points that they stand
for. -/
def simpleEscapes : List (Char × Nat) :=
  [('\\', 92), ('\x27', 39), ('"', 34), ('a', 7), ('b', 8), ('f', 12), ('n', 10), ('r', 13),
    ('t', 9), ('v', 11)]

/-- The value of a digit in a base of at most sixteen. -/
def digitValue? (base : Nat) (c : Char) : Option Nat :=
  let value? :=
    if '0' ≤ c ∧ c ≤ '9' then some (c.toNat - 48)
    else if 'a' ≤ c ∧ c ≤ 'f' then some (c.toNat - 87)
    else if 'A' ≤ c ∧ c ≤ 'F' then some (c.toNat - 55)
    else none
  value?.filter (· < base)

/-- Takes digits off the start of a text, as many as there are up to `most`. -/
def takeDigits (base : Nat) : (most : Nat) → List Char → List Nat × List Char
  | 0, text => ([], text)
  | _ + 1, [] => ([], [])
  | most + 1, c :: rest =>
    match digitValue? base c with
    | some digit => (digit :: (takeDigits base most rest).1, (takeDigits base most rest).2)
    | none => ([], c :: rest)

/-- The number that digits stand for. -/
def valueOf (base : Nat) (digits : List Nat) : Nat :=
  digits.foldl (fun value digit => value * base + digit) 0

/-- Reads the digits of an escape that has exactly `count` hexadecimal ones. No code point is beyond
0x10FFFF. -/
def readHex (count : Nat) (text : List Char) : Option (List Nat × List Char) :=
  let (digits, behind) := takeDigits 16 count text
  if digits.length = count ∧ valueOf 16 digits < 0x110000 then some ([valueOf 16 digits], behind)
    else none

/-- Reads the name of a character in braces. -/
def readName (named : List Char → Option Nat) : List Char → Option (List Nat × List Char)
  | '\x7b' :: text =>
    match text.dropWhile (· ≠ '\x7d') with
    | _ :: behind => (named (text.takeWhile (· ≠ '\x7d'))).map fun code => ([code], behind)
    | [] => none
  | _ => none

/-- Reads an escape behind its backslash: the code points that it stands for, which are none for the
end of a line, and the text behind it. Which names characters have is up to `named`. -/
def readEscape (named : List Char → Option Nat) : List Char → Option (List Nat × List Char)
  | [] => none
  | c :: rest =>
    if c = '\n' then some ([], rest)
    else if c = 'x' then readHex 2 rest
    else if c = 'u' then readHex 4 rest
    else if c = 'U' then readHex 8 rest
    else if c = 'N' then readName named rest
    else
      match simpleEscapes.lookup c with
      | some code => some ([code], rest)
      | none =>
        if (digitValue? 8 c).isSome then
          let (digits, behind) := takeDigits 8 3 (c :: rest)
          some ([valueOf 8 digits], behind)
        else none

/-- What is left behind digits is the end of the text. -/
theorem takeDigits_suffix (base most : Nat) (text : List Char) :
    (takeDigits base most text).2 <:+ text := by
  induction most generalizing text with
  | zero => exact List.suffix_refl text
  | succ most ih =>
    cases text with
    | nil => exact List.suffix_refl []
    | cons c rest =>
      unfold takeDigits
      split
      · exact (ih rest).trans (List.suffix_cons c rest)
      · exact List.suffix_refl _

/-- What is left behind hexadecimal digits is the end of the text, and they stand for one code
point. -/
theorem readHex_eq_some {count : Nat} {text behind : List Char} {codes : List Nat}
    (h : readHex count text = some (codes, behind)) : behind <:+ text ∧ codes.length = 1 := by
  simp only [readHex] at h
  split at h
  · simp only [Option.some.injEq, Prod.mk.injEq] at h
    obtain ⟨rfl, rfl⟩ := h
    exact ⟨takeDigits_suffix 16 count text, rfl⟩
  · contradiction

/-- What is left behind a name is the end of the text, and it stands for one code point. -/
theorem readName_eq_some {named : List Char → Option Nat} {text behind : List Char}
    {codes : List Nat} (h : readName named text = some (codes, behind)) :
    behind <:+ text ∧ codes.length = 1 := by
  unfold readName at h
  split at h
  · next text =>
    split at h
    · next closing behind' hclosing =>
      obtain ⟨code, -, hcode⟩ := Option.map_eq_some_iff.mp h
      simp only [Prod.mk.injEq] at hcode
      obtain ⟨rfl, rfl⟩ := hcode
      have hleft : closing :: behind' <:+ text := hclosing ▸ List.dropWhile_suffix _
      exact ⟨((List.suffix_cons closing behind').trans hleft).trans (List.suffix_cons _ text), rfl⟩
    · contradiction
  · contradiction

/-- An escape takes its first character, which is no space, and maybe more. It stands for one code
point, and for none at the end of a line. -/
theorem readEscape_cons {named : List Char → Option Nat} {c : Char} {rest behind : List Char}
    {codes : List Nat} (h : readEscape named (c :: rest) = some (codes, behind)) :
    behind <:+ rest ∧ c ≠ ' ' ∧ codes.length = if c = '\n' then 0 else 1 := by
  rw [readEscape] at h
  split at h
  · next hfeed =>
    simp only [Option.some.injEq, Prod.mk.injEq] at h
    obtain ⟨rfl, rfl⟩ := h
    simp [hfeed]
  next hfeed =>
  rw [if_neg hfeed]
  split at h
  · next hx => exact ⟨(readHex_eq_some h).1, by simp [hx], (readHex_eq_some h).2⟩
  split at h
  · next hu => exact ⟨(readHex_eq_some h).1, by simp [hu], (readHex_eq_some h).2⟩
  split at h
  · next hU => exact ⟨(readHex_eq_some h).1, by simp [hU], (readHex_eq_some h).2⟩
  split at h
  · next hN => exact ⟨(readName_eq_some h).1, by simp [hN], (readName_eq_some h).2⟩
  split at h
  · next code hcode =>
    simp only [Option.some.injEq, Prod.mk.injEq] at h
    obtain ⟨rfl, rfl⟩ := h
    refine ⟨List.suffix_refl _, ?_, rfl⟩
    have hspace : simpleEscapes.lookup ' ' = none := by decide
    rintro rfl
    rw [hspace] at hcode
    contradiction
  split at h
  · next hdigit =>
    obtain ⟨digit, hdigit⟩ := Option.isSome_iff_exists.mp hdigit
    simp only [takeDigits, hdigit, Option.some.injEq, Prod.mk.injEq] at h
    obtain ⟨rfl, rfl⟩ := h
    refine ⟨takeDigits_suffix 8 2 rest, ?_, rfl⟩
    have hspace : digitValue? 8 ' ' = none := by decide
    rintro rfl
    rw [hspace] at hdigit
    contradiction
  · contradiction

/-- An escape is not empty. -/
theorem length_lt_of_readEscape {named : List Char → Option Nat} {text behind : List Char}
    {codes : List Nat} (h : readEscape named text = some (codes, behind)) :
    behind.length < text.length := by
  cases text with
  | nil => contradiction
  | cons c rest => exact Nat.lt_succ_of_le (readEscape_cons h).1.length_le

/-! ## Long literals -/

/-- A text with a line feed for every line ending. -/
def withLineFeeds : List Char → List Char
  | [] => []
  | '\r' :: '\n' :: rest => '\n' :: withLineFeeds rest
  | '\r' :: rest => '\n' :: withLineFeeds rest
  | c :: rest => c :: withLineFeeds rest

/-- The code points of characters. -/
def codePoints (text : List Char) : List Nat :=
  text.map Char.toNat

/-- Whether three quotes stand at the start of a text. -/
def StartsWithQuotes (text : List Char) : Prop :=
  ∃ rest, text = '"' :: '"' :: '"' :: rest

/-- A reading with more code points in front of those that were read. -/
def after (front : List Nat) (reading : Option (List Nat × List Char)) :
    Option (List Nat × List Char) :=
  reading.map fun body => (front ++ body.1, body.2)

/-- With none in front, a reading is the same. -/
theorem after_nil (reading : Option (List Nat × List Char)) : after [] reading = reading := by
  cases reading <;> rfl

/-- Code points in front are put together. -/
theorem after_after (front others : List Nat) (reading : Option (List Nat × List Char)) :
    after front (after others reading) = after (front ++ others) reading := by
  simp [after, Function.comp_def]

/-- What is in front of a reading stands in front of what was read, and nothing else changes. -/
theorem after_eq_some {front value : List Nat} {reading : Option (List Nat × List Char)}
    {behind : List Char} (h : after front reading = some (value, behind)) :
    ∃ others, reading = some (others, behind) ∧ value = front ++ others := by
  obtain ⟨⟨others, left⟩, hreading, hbody⟩ := Option.map_eq_some_iff.mp h
  simp only [Prod.mk.injEq] at hbody
  exact ⟨others, by rw [hreading, hbody.2], hbody.1.symm⟩

/-- Reads a long literal behind its opening quotes: the code points that it stands for, and the text
behind its closing quotes. -/
def readBody (named : List Char → Option Nat) (text : List Char) : Option (List Nat × List Char) :=
  match text with
  | [] => none
  | '"' :: '"' :: '"' :: rest => some ([], rest)
  | '\\' :: rest =>
    match _hescape : readEscape named rest with
    | none => none
    | some (codes, behind) => after codes (readBody named behind)
  | c :: rest => after [c.toNat] (readBody named rest)
termination_by text.length
decreasing_by
  · exact Nat.lt_succ_of_lt (length_lt_of_readEscape _hescape)
  · exact Nat.lt_succ_self _

section Steps

variable {named : List Char → Option Nat}

/-- Three quotes close a literal. -/
theorem readBody_quotes (rest : List Char) :
    readBody named ('"' :: '"' :: '"' :: rest) = some ([], rest) := by
  rw [readBody]

/-- Any other character stands for itself if it is no backslash. -/
theorem readBody_plain {c : Char} {rest : List Char} (hc : c ≠ '\\')
    (hquotes : ¬ StartsWithQuotes (c :: rest)) :
    readBody named (c :: rest) = after [c.toNat] (readBody named rest) := by
  rw [readBody]
  · rintro text rfl rfl
    exact hquotes ⟨text, rfl⟩
  · exact hc

/-- A quote and a backslash stand for themselves behind a backslash. -/
theorem readBody_escaped {c : Char} (hc : c = '"' ∨ c = '\\') (rest : List Char) :
    readBody named ('\\' :: c :: rest) = after [c.toNat] (readBody named rest) := by
  have hescape : readEscape named (c :: rest) = some ([c.toNat], rest) := by
    rcases hc with rfl | rfl <;> rfl
  rw [readBody]
  split
  · next hnone => rw [hescape] at hnone; contradiction
  · next codes behind hsome =>
    rw [hescape, Option.some.injEq, Prod.mk.injEq] at hsome
    rw [hsome.1, hsome.2]

end Steps

/-- Reads the source that a long literal is at the start of. -/
def readLong (named : List Char → Option Nat) (source : List Char) :
    Option (List Nat × List Char) :=
  if '\x00' ∈ source then none
  else
    match withLineFeeds source with
    | '"' :: '"' :: '"' :: rest => readBody named rest
    | _ => none

/-! ## Short literals -/

/-- Reads a literal of a single line behind its opening quote: the code points that it stands for,
and the text behind its closing quote. -/
def readQuoted (named : List Char → Option Nat) (text : List Char) :
    Option (List Nat × List Char) :=
  match text with
  | [] => none
  | '"' :: rest => some ([], rest)
  | '\n' :: _ => none
  | '\\' :: rest =>
    match _hescape : readEscape named rest with
    | none => none
    | some (codes, behind) => after codes (readQuoted named behind)
  | c :: rest => after [c.toNat] (readQuoted named rest)
termination_by text.length
decreasing_by
  · exact Nat.lt_succ_of_lt (length_lt_of_readEscape _hescape)
  · exact Nat.lt_succ_self _

section ShortSteps

variable {named : List Char → Option Nat}

/-- A quote closes a literal of a single line. -/
theorem readQuoted_quote (rest : List Char) : readQuoted named ('"' :: rest) = some ([], rest) := by
  rw [readQuoted]

/-- Any other character stands for itself if it is neither a line feed nor a backslash. -/
theorem readQuoted_plain {c : Char} (hc : c ∉ ['"', '\\', '\n', '\r']) (rest : List Char) :
    readQuoted named (c :: rest) = after [c.toNat] (readQuoted named rest) := by
  simp only [List.mem_cons, List.not_mem_nil, or_false, not_or] at hc
  rw [readQuoted]
  · exact hc.1
  · exact hc.2.2.1
  · exact hc.2.1

/-- An escape stands for what it is read as. -/
theorem readQuoted_escape {text behind : List Char} {codes : List Nat}
    (h : readEscape named text = some (codes, behind)) :
    readQuoted named ('\\' :: text) = after codes (readQuoted named behind) := by
  rw [readQuoted]
  split
  · next hnone => rw [h] at hnone; contradiction
  · next others left hsome =>
    rw [h, Option.some.injEq, Prod.mk.injEq] at hsome
    rw [hsome.1, hsome.2]

end ShortSteps

/-- Reads the source that a literal is at the start of, a long or a short one. -/
def readString (named : List Char → Option Nat) (source : List Char) :
    Option (List Nat × List Char) :=
  if '\x00' ∈ source then none
  else
    match withLineFeeds source with
    | '"' :: '"' :: '"' :: rest => readBody named rest
    | '"' :: rest => readQuoted named rest
    | _ => none

/-! ## Counting -/

/-- Whether a character is neither a space nor a line feed, which are all that a docstring adds to
its lines. -/
def isMark (c : Char) : Bool :=
  c ≠ ' ' && c ≠ '\n'

/-- The marks of a text. -/
def marks (text : List Char) : Nat :=
  text.countP isMark

/-- The marks among code points. -/
def codeMarks (value : List Nat) : Nat :=
  value.countP fun code => code ≠ 32 && code ≠ 10

/-- The backslashes of a text that start an escape: the others are those that are escaped, and the
last character. -/
def escapes : List Char → Nat
  | [] => 0
  | [_] => 0
  | '\\' :: _ :: rest => escapes rest + 1
  | _ :: second :: rest => escapes (second :: rest)

section Counting

variable {named : List Char → Option Nat} {c : Char} {rest line behind : List Char}

/-- The marks of a text are those of its parts. -/
theorem marks_append (text other : List Char) : marks (text ++ other) = marks text + marks other :=
  List.countP_append

/-- The marks among code points are those among their parts. -/
theorem codeMarks_append (value other : List Nat) :
    codeMarks (value ++ other) = codeMarks value + codeMarks other :=
  List.countP_append

/-- The first character of a text is one of its marks or none. -/
theorem marks_cons (c : Char) (rest : List Char) :
    marks (c :: rest) = marks rest + if isMark c then 1 else 0 :=
  List.countP_cons

/-- The marks of a text are those among its code points. -/
theorem codeMarks_codePoints (text : List Char) : codeMarks (codePoints text) = marks text := by
  rw [codeMarks, codePoints, List.countP_map, marks]
  refine List.countP_congr fun c _ => ?_
  have hspace : c.toNat = 32 ↔ c = ' ' := Char.toNat_inj (d := ' ')
  have hfeed : c.toNat = 10 ↔ c = '\n' := Char.toNat_inj (d := '\n')
  simp [isMark, hspace, hfeed]

/-- Only a backslash starts an escape. -/
theorem escapes_cons (hc : c ≠ '\\') (rest : List Char) : escapes (c :: rest) = escapes rest := by
  cases rest with
  | nil => rfl
  | cons second rest => rw [escapes]; exact fun h => absurd h hc

/-- A backslash starts one with the character behind it. -/
theorem escapes_backslash (rest : List Char) :
    escapes ('\\' :: rest) = if rest = [] then 0 else escapes rest.tail + 1 := by
  cases rest with
  | nil => rfl
  | cons second rest => rw [escapes]; rfl

/-- A character in front takes no escape away, and makes one more at most. -/
theorem escapes_le_cons (c : Char) (rest : List Char) :
    escapes rest ≤ escapes (c :: rest) ∧ escapes (c :: rest) ≤ escapes rest + 1 := by
  induction rest generalizing c with
  | nil => exact ⟨Nat.zero_le _, Nat.zero_le _⟩
  | cons second rest ih =>
    by_cases hc : c = '\\'
    · obtain ⟨hle, hlt⟩ := ih second
      rw [hc, escapes]
      omega
    · rw [escapes_cons hc]
      omega

/-- There are no more escapes at the start of a text than marks. -/
theorem escapes_append_le (front rest : List Char) :
    escapes (front ++ rest) ≤ marks front + escapes rest := by
  induction front with
  | nil => exact Nat.le_add_left _ _
  | cons c front ih =>
    rw [List.cons_append, marks_cons]
    by_cases hc : c = '\\'
    · have hle := (escapes_le_cons c (front ++ rest)).2
      have hmark : isMark c = true := by rw [hc]; decide
      rw [if_pos hmark]
      omega
    · rw [escapes_cons hc]
      omega

/-- An escape takes a mark more than it stands for. -/
theorem codeMarks_readEscape {value : List Nat} (h : readEscape named line = some (value, behind)) :
    codeMarks value + escapes ('\\' :: line) + marks behind ≤
      marks ('\\' :: line) + escapes behind := by
  cases line with
  | nil => contradiction
  | cons c rest =>
    obtain ⟨⟨taken, rfl⟩, hspace, hlength⟩ := readEscape_cons h
    have hvalue : codeMarks value ≤ value.length := List.countP_le_length
    have htaken := escapes_append_le taken behind
    have hmark : (if isMark c then 1 else 0) = value.length := by
      rw [hlength]
      by_cases hfeed : c = '\n' <;> simp [isMark, hspace, hfeed]
    rw [escapes, marks_cons, marks_cons, marks_append, hmark, if_pos (by decide)]
    omega

/-- A literal takes as many marks more than it stands for as it has escapes, and its closing
quotes. -/
theorem codeMarks_readBody {text : List Char} {value : List Nat}
    (h : readBody named text = some (value, behind)) :
    codeMarks value + escapes text + 3 + marks behind ≤ marks text + escapes behind := by
  fun_induction readBody named text generalizing value with
  | case1 => contradiction
  | case2 rest =>
    simp only [Option.some.injEq, Prod.mk.injEq] at h
    obtain ⟨rfl, rfl⟩ := h
    have hquote : '"' ≠ '\\' := by decide
    have hmark : isMark '"' = true := by decide
    simp only [codeMarks, List.countP_nil, escapes_cons hquote, marks_cons, hmark, if_true]
    omega
  | case3 rest hnone => contradiction
  | case4 rest codes left hescape ih =>
    obtain ⟨others, hread, rfl⟩ := after_eq_some h
    have hothers := ih hread
    have htaken := codeMarks_readEscape hescape
    rw [codeMarks_append]
    omega
  | case5 c rest hquotes hbackslash ih =>
    obtain ⟨others, hread, rfl⟩ := after_eq_some h
    have hothers := ih hread
    have hcode : codeMarks [c.toNat] = if isMark c then 1 else 0 := by
      rw [← Nat.zero_add (if isMark c then 1 else 0)]
      exact (codeMarks_codePoints [c]).trans (marks_cons c [])
    rw [codeMarks_append, escapes_cons hbackslash, marks_cons, hcode]
    omega

/-- A text without carriage returns has line feeds only. -/
theorem withLineFeeds_of_return_notMem {text : List Char} (h : '\r' ∉ text) :
    withLineFeeds text = text := by
  fun_induction withLineFeeds text with
  | case1 => rfl
  | case2 rest ih => exact absurd List.mem_cons_self h
  | case3 rest hpair ih => exact absurd List.mem_cons_self h
  | case4 c rest hpair hreturn ih => rw [ih (List.not_mem_of_not_mem_cons h)]

/-- Line endings make no difference to escapes. Behind a backslash the first character is passed
over, so the induction says of the rest of a text what it says of the text. -/
theorem escapes_withLineFeeds (text : List Char) : escapes (withLineFeeds text) = escapes text := by
  have hreturn : '\r' ≠ '\\' := by decide
  have hfeed : '\n' ≠ '\\' := by decide
  have hboth : escapes (withLineFeeds text) = escapes text ∧
      escapes (withLineFeeds text).tail = escapes text.tail ∧
      (withLineFeeds text = [] ↔ text = []) := by
    fun_induction withLineFeeds text with
    | case1 => exact ⟨rfl, rfl, Iff.rfl⟩
    | case2 rest ih => simpa [escapes_cons hreturn, escapes_cons hfeed] using ih.1
    | case3 rest hpair ih => simpa [escapes_cons hreturn, escapes_cons hfeed] using ih.1
    | case4 c rest hpair hreturn ih =>
      refine ⟨?_, by simpa using ih.1, by simp⟩
      by_cases hc : c = '\\'
      · rw [hc, escapes_backslash, escapes_backslash, ih.2.1]
        simp only [ih.2.2]
      · rw [escapes_cons hc, escapes_cons hc, ih.1]
  exact hboth.1

/-- A carriage return is a mark, and no line feed is. -/
theorem marks_withLineFeeds (text : List Char) :
    marks (withLineFeeds text) + text.count '\r' = marks text := by
  have hreturnMark : isMark '\r' = true := by decide
  have hfeedMark : isMark '\n' = false := by decide
  fun_induction withLineFeeds text with
  | case1 => rfl
  | case2 rest ih =>
    simp only [marks_cons, List.count_cons, hreturnMark, hfeedMark, beq_self_eq_true,
      if_true] at ih ⊢
    simp only [Bool.false_eq_true, if_false, (by decide : ('\n' == '\r') = false)]
    omega
  | case3 rest hpair ih =>
    simp only [marks_cons, List.count_cons, hreturnMark, hfeedMark, beq_self_eq_true,
      if_true] at ih ⊢
    simp only [Bool.false_eq_true, if_false]
    omega
  | case4 c rest hpair hreturn ih =>
    have hc : (c == '\r') = false := by simpa using hreturn
    simp only [marks_cons, List.count_cons, hc, Bool.false_eq_true, if_false] at ih ⊢
    omega

end Counting

end SchemaBindings.Bindings.PythonLiteral
