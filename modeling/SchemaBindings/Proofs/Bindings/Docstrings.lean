import Mathlib.Data.List.DropRight
import SchemaBindings.Bindings.PythonPackage
import SchemaBindings.Proofs.Bindings.PythonLiterals
import SchemaBindings.Proofs.Text.Lines

/-!
# Docstrings

A docstring escapes runs of three quotes and nothing else. It is a long literal that stands for its
lines exactly if no backslash in them starts an escape, no line holds a carriage return or a null
character, and a single line, which the closing quotes follow at once, ends with no quotes that are
left over. A backslash right in front of three quotes does no harm, since it comes to stand in front
of the one that escapes the first of them.

That nothing else reads back is shown by counting the characters that are neither blanks nor line
feeds: every escape takes more of them than it stands for, and the lines have to come out whole.
-/

namespace SchemaBindings.Bindings.PythonPackage

open SchemaBindings.Bindings.PythonLiteral
open SchemaBindings.Text (unlines)

/-! ## Lines that may be kept -/

/-- Whether the backslashes of a line are right in front of three quotes. -/
def BackslashesGuarded (line : List Char) : Prop :=
  ∀ front behind, line = front ++ '\\' :: behind → StartsWithQuotes behind

/-- Whether Python reads a line as it stands once the runs of three quotes are escaped: there are no
other backslashes than those right in front of such runs, and no characters that Python changes or
refuses. -/
structure Kept (line : List Char) : Prop where
  guarded : BackslashesGuarded line
  return_notMem : '\r' ∉ line
  null_notMem : '\x00' ∉ line

/-- The quotes at the end of a line. -/
def quotesAtEnd (line : List Char) : Nat :=
  (line.rtakeWhile (· = '"')).length

/-- How a line with guarded backslashes is made up: of backslashes with the quotes behind them, of
three quotes, and of other characters where no three quotes start. -/
inductive Guarded : List Char → Prop
  | nil : Guarded []
  | quotes {rest : List Char} (h : Guarded rest) : Guarded ('"' :: '"' :: '"' :: rest)
  | backslash {rest : List Char} (h : Guarded rest) : Guarded ('\\' :: '"' :: '"' :: '"' :: rest)
  | plain {c : Char} {rest : List Char} (hc : c ≠ '\\') (hquotes : ¬ StartsWithQuotes (c :: rest))
      (h : Guarded rest) :
      Guarded (c :: rest)

/-- The backslashes of a line are guarded exactly if the first character is guarded or none, and the
others are. -/
theorem backslashesGuarded_cons_iff (c : Char) (rest : List Char) :
    BackslashesGuarded (c :: rest) ↔ (c = '\\' → StartsWithQuotes rest) ∧
    BackslashesGuarded rest := by
  constructor
  · intro h
    refine ⟨fun hc => h [] rest (by rw [hc, List.nil_append]), fun front behind hrest => ?_⟩
    exact h (c :: front) behind (by rw [hrest, List.cons_append])
  · rintro ⟨hfirst, hrest⟩ front behind hline
    cases front with
    | nil =>
      obtain ⟨rfl, rfl⟩ := List.cons.inj hline
      exact hfirst rfl
    | cons first front =>
      rw [List.cons_append, List.cons.injEq] at hline
      exact hrest front behind hline.2

/-- Every line is made up of three quotes, of backslashes with what they escape, and of other
characters. Behind a backslash stand three quotes that are escaped, one character, or nothing at
all. -/
@[elab_as_elim]
theorem line_induction {motive : List Char → Prop} (nil : motive [])
    (quotes : ∀ rest, motive rest → motive ('"' :: '"' :: '"' :: rest))
    (guarding : ∀ rest, motive rest → motive ('\\' :: '"' :: '"' :: '"' :: rest))
    (escaping : ∀ c rest, ¬ StartsWithQuotes (c :: rest) → motive rest → motive ('\\' :: c :: rest))
    (last : motive ['\\'])
    (plain : ∀ c rest, c ≠ '\\' → ¬ StartsWithQuotes (c :: rest) → motive rest → motive (c :: rest))
    (line : List Char) : motive line := by
  induction hlength : line.length using Nat.strongRecOn generalizing line with
  | _ length ih =>
    have hshorter : ∀ rest : List Char, rest.length < line.length → motive rest := fun rest hrest =>
      ih rest.length (hlength ▸ hrest) rest rfl
    match line with
    | [] => exact nil
    | first :: others =>
      by_cases hquotes : StartsWithQuotes (first :: others)
      · obtain ⟨rest, hline⟩ := hquotes
        rw [hline] at hshorter ⊢
        exact quotes rest (hshorter rest (by simp only [List.length_cons]; omega))
      by_cases hfirst : first = '\\'
      · subst hfirst
        match others with
        | [] => exact last
        | c :: rest =>
          by_cases hguarded : StartsWithQuotes (c :: rest)
          · obtain ⟨rest, hothers⟩ := hguarded
            rw [hothers] at hshorter ⊢
            exact guarding rest (hshorter rest (by simp only [List.length_cons]; omega))
          · exact escaping c rest hguarded (hshorter rest (by simp only [List.length_cons]; omega))
      · exact plain first others hfirst hquotes (hshorter others (Nat.lt_succ_self _))

/-- A line with guarded backslashes is made up like that. -/
theorem BackslashesGuarded.guarded {line : List Char} (h : BackslashesGuarded line) :
    Guarded line := by
  induction line using line_induction with
  | nil => exact .nil
  | quotes rest ih =>
    simp only [backslashesGuarded_cons_iff] at h
    exact .quotes (ih h.2.2.2)
  | guarding rest ih =>
    simp only [backslashesGuarded_cons_iff] at h
    exact .backslash (ih h.2.2.2.2)
  | escaping c rest hquotes ih =>
    exact absurd (((backslashesGuarded_cons_iff _ _).mp h).1 rfl) hquotes
  | last =>
    obtain ⟨rest, hrest⟩ := ((backslashesGuarded_cons_iff _ _).mp h).1 rfl
    exact absurd hrest.symm (List.cons_ne_nil _ _)
  | plain c rest hc hquotes ih =>
    exact .plain hc hquotes (ih ((backslashesGuarded_cons_iff _ _).mp h).2)

/-- So the backslashes of a line that is made up like that are guarded. -/
theorem Guarded.backslashesGuarded {line : List Char} (h : Guarded line) :
    BackslashesGuarded line := by
  have hnil : BackslashesGuarded [] := fun front behind h => absurd h.symm (by simp)
  induction h with
  | nil => exact hnil
  | quotes h ih => simpa [backslashesGuarded_cons_iff] using ih
  | @backslash rest h ih => simpa [backslashesGuarded_cons_iff] using ⟨⟨rest, rfl⟩, ih⟩
  | plain hc hquotes h ih => exact (backslashesGuarded_cons_iff _ _).mpr ⟨fun h => absurd h hc, ih⟩

/-! ## The quotes at the end -/

/-- In a line that is made of quotes, all are at the end. -/
theorem quotesAtEnd_of_forall {line : List Char} (h : ∀ d ∈ line, d = '"') :
    quotesAtEnd line = line.length := by
  rw [quotesAtEnd, List.rtakeWhile_eq_self_iff.mpr (by simpa using h)]

/-- In any other line, the first character makes no difference to the quotes at the end. -/
theorem quotesAtEnd_cons {c : Char} {rest : List Char} (h : ¬ ∀ d ∈ c :: rest, d = '"') :
    quotesAtEnd (c :: rest) = quotesAtEnd rest := by
  rw [List.forall_mem_cons, not_and] at h
  rw [quotesAtEnd, List.rtakeWhile, List.reverse_cons, List.takeWhile_append]
  split
  · next hlength =>
    have hall :=
      List.takeWhile_eq_self_iff.mp ((List.takeWhile_prefix (· = '"')).eq_of_length hlength)
    have hrest : ∀ d ∈ rest, d = '"' := by simpa using hall
    have hc : c ≠ '"' := fun hc => h hc hrest
    rw [quotesAtEnd_of_forall hrest]
    simp [hc]
  · rfl

/-- Three quotes at the start count for nothing in threes. -/
theorem dvd_quotesAtEnd_quotes_iff (rest : List Char) :
    3 ∣ quotesAtEnd ('"' :: '"' :: '"' :: rest) ↔ 3 ∣ quotesAtEnd rest := by
  by_cases hrest : ∀ d ∈ rest, d = '"'
  · rw [quotesAtEnd_of_forall hrest, quotesAtEnd_of_forall (by simpa using hrest)]
    simp only [List.length_cons]
    omega
  · have hskip : ∀ {text : List Char}, (¬ ∀ d ∈ text, d = '"') →
        quotesAtEnd ('"' :: text) = quotesAtEnd text :=
      fun h => quotesAtEnd_cons fun hall => h (List.forall_mem_cons.mp hall).2
    rw [hskip (by simpa using hrest), hskip (by simpa using hrest), hskip hrest]

/-- So do they behind a backslash. -/
theorem dvd_quotesAtEnd_backslash_iff (rest : List Char) :
    3 ∣ quotesAtEnd ('\\' :: '"' :: '"' :: '"' :: rest) ↔ 3 ∣ quotesAtEnd rest := by
  rw [quotesAtEnd_cons fun h => absurd (h '\\' List.mem_cons_self) (by decide),
    dvd_quotesAtEnd_quotes_iff]

/-! ## Reading escaped lines -/

section Reading

variable {named : List Char → Option Nat} {c : Char} {rest line behind : List Char}

/-- Three quotes are escaped one by one. -/
theorem escapeTripleQuotes_quotes (rest : List Char) :
    escapeTripleQuotes ('"' :: '"' :: '"' :: rest) =
    '\\' :: '"' :: '\\' :: '"' :: '\\' :: '"' :: escapeTripleQuotes rest := by
  rw [escapeTripleQuotes]

/-- A character where no three quotes start is left as it is. -/
theorem escapeTripleQuotes_plain (h : ¬ StartsWithQuotes (c :: rest)) :
    escapeTripleQuotes (c :: rest) = c :: escapeTripleQuotes rest := by
  rw [escapeTripleQuotes]
  rintro text rfl rfl
  exact h ⟨text, rfl⟩

/-- Three quotes read back. -/
theorem readBody_escape_quotes (rest behind : List Char) :
    readBody named (escapeTripleQuotes ('"' :: '"' :: '"' :: rest) ++ behind) =
      after (codePoints ['"', '"', '"']) (readBody named (escapeTripleQuotes rest ++ behind)) := by
  simp only [escapeTripleQuotes_quotes, List.cons_append, readBody_escaped (.inl rfl), after_after]
  rfl

/-- So do they with a backslash in front. -/
theorem readBody_escape_backslash (rest behind : List Char) :
    readBody named (escapeTripleQuotes ('\\' :: '"' :: '"' :: '"' :: rest) ++ behind) =
      after (codePoints ['\\', '"', '"', '"'])
        (readBody named (escapeTripleQuotes rest ++ behind)) := by
  have hbackslash : ¬ StartsWithQuotes ('\\' :: '"' :: '"' :: '"' :: rest) := by
    simp [StartsWithQuotes]
  have hquote : ∀ text, ¬ StartsWithQuotes ('"' :: '\\' :: text) := by simp [StartsWithQuotes]
  have hplain : '"' ≠ '\\' := by decide
  simp only [escapeTripleQuotes_plain hbackslash, escapeTripleQuotes_quotes, List.cons_append,
    readBody_escaped (.inr rfl), readBody_plain hplain (hquote _), readBody_escaped
      (.inl rfl), after_after]
  rfl

/-- A character where no three quotes start leaves that so, unless it is one of a few quotes in
front of others. -/
theorem not_startsWithQuotes_escape (hquotes : ¬ StartsWithQuotes (c :: rest))
    (hbehind : behind.head? ≠ some '"' ∨ ∃ d ∈ c :: rest, d ≠ '"') :
    ¬ StartsWithQuotes (c :: (escapeTripleQuotes rest ++ behind)) := by
  rintro ⟨text, htext⟩
  obtain ⟨rfl, hsecond⟩ := List.cons.inj htext
  have hfirst : ∀ {line text : List Char}, escapeTripleQuotes line ++ behind = '"' :: text →
      (line = [] ∧ behind = '"' :: text) ∨
        ∃ others, line = '"' :: others ∧ ¬ StartsWithQuotes line ∧
          escapeTripleQuotes others ++ behind = text := by
    intro line text hline
    cases line with
    | nil => exact .inl ⟨rfl, hline⟩
    | cons d others =>
      by_cases hd : StartsWithQuotes (d :: others)
      · obtain ⟨more, hmore⟩ := hd
        rw [hmore, escapeTripleQuotes_quotes] at hline
        simp at hline
      · rw [escapeTripleQuotes_plain hd, List.cons_append, List.cons.injEq] at hline
        obtain ⟨rfl, hline⟩ := hline
        exact .inr ⟨others, rfl, hd, hline⟩
  rcases hfirst hsecond with ⟨rfl, rfl⟩ | ⟨others, rfl, -, hthird⟩
  · simp at hbehind
  · rcases hfirst hthird with ⟨rfl, rfl⟩ | ⟨more, rfl, -, -⟩
    · simp at hbehind
    · exact hquotes ⟨more, rfl⟩

/-- A character that is neither a backslash nor the first of three quotes reads back as itself. -/
theorem readBody_escape_plain (hc : c ≠ '\\') (hquotes : ¬ StartsWithQuotes (c :: rest))
    (hbehind : behind.head? ≠ some '"' ∨ ∃ d ∈ c :: rest, d ≠ '"') :
    readBody named (escapeTripleQuotes (c :: rest) ++ behind) =
      after (codePoints [c]) (readBody named (escapeTripleQuotes rest ++ behind)) := by
  rw [escapeTripleQuotes_plain hquotes, List.cons_append,
    readBody_plain hc (not_startsWithQuotes_escape hquotes hbehind)]
  rfl

/-- Quotes that are not three or more are one or two. -/
theorem eq_of_forall_quotes (hquotes : ¬ StartsWithQuotes (c :: rest))
    (hall : ∀ d ∈ c :: rest, d = '"') :
    c :: rest = ['"'] ∨ c :: rest = ['"', '"'] := by
  match rest with
  | [] => simpa using hall
  | [_] => simpa using hall
  | _ :: _ :: others =>
    simp only [List.forall_mem_cons] at hall
    obtain ⟨rfl, rfl, rfl, -⟩ := hall
    exact absurd ⟨others, rfl⟩ hquotes

/-- They are all at the end. -/
theorem not_dvd_quotesAtEnd (hquotes : ¬ StartsWithQuotes (c :: rest))
    (hall : ∀ d ∈ c :: rest, d = '"') :
    ¬ 3 ∣ quotesAtEnd (c :: rest) := by
  rcases eq_of_forall_quotes hquotes hall with h | h <;> rw [h] <;> decide

/-- A line reads back if its backslashes are guarded, unless quotes at its end are taken for closing
ones. -/
theorem Guarded.readBody_eq (h : Guarded line)
    (hbehind : behind.head? ≠ some '"' ∨ 3 ∣ quotesAtEnd line) :
    readBody named (escapeTripleQuotes line ++ behind) =
      after (codePoints line) (readBody named behind) := by
  induction h with
  | nil => exact (after_nil _).symm
  | quotes h ih =>
    rw [readBody_escape_quotes, ih (by rwa [dvd_quotesAtEnd_quotes_iff] at hbehind), after_after]
    rfl
  | backslash h ih =>
    rw [readBody_escape_backslash, ih (by rwa [dvd_quotesAtEnd_backslash_iff] at hbehind),
      after_after]
    rfl
  | @plain c rest hc hquotes h ih =>
    by_cases hall : ∀ d ∈ c :: rest, d = '"'
    · have hclear := hbehind.resolve_right (not_dvd_quotesAtEnd hquotes hall)
      rw [readBody_escape_plain hc hquotes (.inl hclear), ih (.inl hclear), after_after]
      rfl
    · have hother : ∃ d ∈ c :: rest, d ≠ '"' := by simpa only [not_forall, exists_prop] using hall
      rw [quotesAtEnd_cons hall] at hbehind
      rw [readBody_escape_plain hc hquotes (.inr hother), ih hbehind, after_after]
      rfl

/-- If quotes are left over at the end of such a line, the literal closes too early, and quotes are
left behind it. -/
theorem Guarded.readBody_early (h : Guarded line) (hleft : ¬ 3 ∣ quotesAtEnd line)
    (behind : List Char) :
    ∃ value rest, readBody named (escapeTripleQuotes line ++ '"' :: '"' :: '"' :: behind) =
      some (value, '"' :: rest) := by
  induction h with
  | nil => exact absurd (Nat.dvd_zero 3) hleft
  | quotes h ih =>
    rw [dvd_quotesAtEnd_quotes_iff] at hleft
    obtain ⟨value, rest, hread⟩ := ih hleft
    exact ⟨_, rest, by rw [readBody_escape_quotes, hread]; rfl⟩
  | backslash h ih =>
    rw [dvd_quotesAtEnd_backslash_iff] at hleft
    obtain ⟨value, rest, hread⟩ := ih hleft
    exact ⟨_, rest, by rw [readBody_escape_backslash, hread]; rfl⟩
  | @plain c rest hc hquotes h ih =>
    by_cases hall : ∀ d ∈ c :: rest, d = '"'
    · have hclose : ∀ rest, readBody named ('"' :: '"' :: '"' :: rest) = some ([], rest) :=
        readBody_quotes
      rcases eq_of_forall_quotes hquotes hall with h | h <;> rw [h]
      · exact ⟨_, behind, hclose _⟩
      · exact ⟨_, '"' :: behind, hclose _⟩
    · have hother : ∃ d ∈ c :: rest, d ≠ '"' := by simpa only [not_forall, exists_prop] using hall
      rw [quotesAtEnd_cons hall] at hleft
      obtain ⟨value, others, hread⟩ := ih hleft
      exact ⟨_, others, by rw [readBody_escape_plain hc hquotes (.inr hother), hread]; rfl⟩

end Reading

/-! ## Counting -/

/-- In a line, every escape that is made of three quotes takes its marks, and every other one is a
mark less to read. So only in a line with guarded backslashes is nothing missing. A backslash
escapes the one in front of the first quote, which then stands for itself. -/
theorem marks_escapeTripleQuotes (line : List Char) {c : Char} (hc : c ≠ '\\') (rest : List Char) :
    marks (escapeTripleQuotes line) + escapes (c :: rest) ≤
        marks line + escapes (escapeTripleQuotes line ++ c :: rest) ∧
      (marks (escapeTripleQuotes line) + escapes (c :: rest) =
          marks line + escapes (escapeTripleQuotes line ++ c :: rest) → Guarded line) := by
  have hquoteMark : isMark '"' = true := by decide
  have hbackslashMark : isMark '\\' = true := by decide
  have hquote : '"' ≠ '\\' := by decide
  have hbackslash : ∀ text, ¬ StartsWithQuotes ('\\' :: text) := by simp [StartsWithQuotes]
  induction line using line_induction with
  | nil => exact ⟨by simp [escapeTripleQuotes, marks], fun _ => .nil⟩
  | quotes more ih =>
    obtain ⟨hle, heq⟩ := ih
    simp only [escapeTripleQuotes_quotes, List.cons_append, escapes, marks_cons, hquoteMark,
      hbackslashMark, if_true]
    exact ⟨by omega, fun h => .quotes (heq (by omega))⟩
  | guarding more ih =>
    obtain ⟨hle, heq⟩ := ih
    simp only [escapeTripleQuotes_plain (hbackslash _), escapeTripleQuotes_quotes,
      List.cons_append, escapes, escapes_cons hquote, marks_cons, hquoteMark,
      hbackslashMark, if_true]
    exact ⟨by omega, fun h => .backslash (heq (by omega))⟩
  | escaping second more hquotes ih =>
    obtain ⟨hle, -⟩ := ih
    simp only [escapeTripleQuotes_plain (hbackslash _), escapeTripleQuotes_plain hquotes,
      List.cons_append, escapes, marks_cons, hbackslashMark, if_true]
    exact ⟨by omega, fun h => by omega⟩
  | last =>
    simp only [escapeTripleQuotes_plain (hbackslash _), escapeTripleQuotes, List.cons_append,
      List.nil_append, escapes, escapes_cons hc, marks_cons, hbackslashMark, if_true]
    exact ⟨by omega, fun h => by omega⟩
  | plain first others hfirst hquotes ih =>
    obtain ⟨hle, heq⟩ := ih
    rw [escapeTripleQuotes_plain hquotes, List.cons_append, escapes_cons hfirst,
      marks_cons, marks_cons]
    exact ⟨by omega, fun h => .plain hfirst hquotes (heq (by omega))⟩

/-! ## Docstrings -/

/-- Whether a list holds others one behind the other. -/
def ContainsInOrder {α : Type} : (parts : List (List α)) → (whole : List α) → Prop
  | [], _ => True
  | part :: parts, whole =>
    ∃ front behind, whole = front ++ (part ++ behind) ∧ ContainsInOrder parts behind

/-- Whether a docstring is, behind its indent, a long literal up to the end of its last line, and
this stands for a text that holds the doc lines in order. -/
def ReadsBack (named : List Char → Option Nat) (doc : List String) : Prop :=
  ∃ literal value, (unlines (docstring doc)).toList = "    ".toList ++ literal ∧
    readLong named literal = some (value, ['\n']) ∧
    ContainsInOrder ((doc.map String.toList).map codePoints) value

/-- What is held has no more marks than what holds it. -/
theorem ContainsInOrder.marks_le {lines : List (List Char)} {value : List Nat}
    (h : ContainsInOrder (lines.map codePoints) value) : marks lines.flatten ≤ codeMarks value := by
  induction lines generalizing value with
  | nil => exact Nat.zero_le _
  | cons line others ih =>
    obtain ⟨front, behind, rfl, hothers⟩ := h
    have hle := ih hothers
    rw [codeMarks_append, codeMarks_append, codeMarks_codePoints, List.flatten_cons, marks_append]
    omega

/-- What holds parts still does with more around it. -/
theorem ContainsInOrder.append {α : Type} {parts : List (List α)} {whole : List α}
    (h : ContainsInOrder parts whole) (front behind : List α) :
    ContainsInOrder parts (front ++ (whole ++ behind)) := by
  induction parts generalizing front whole with
  | nil => trivial
  | cons part parts ih =>
    obtain ⟨before, left, rfl, hleft⟩ := h
    exact ⟨front ++ before, left ++ behind, by simp, by simpa using ih hleft []⟩

/-- A line of a docstring of several lines. -/
def paddedLine (line : String) : String :=
  if docstringLine line = "" then "" else "    " ++ docstringLine line

/-- It is the escaped line behind spaces. -/
theorem toList_paddedLine (line : String) :
    ∃ width, (paddedLine line).toList = List.replicate width ' ' ++
      escapeTripleQuotes line.toList := by
  unfold paddedLine
  split
  · next hempty => exact ⟨0, by simpa [docstringLine] using congrArg String.toList hempty.symm⟩
  · exact ⟨4, by simp [docstringLine]⟩

/-- The text of a docstring of one line. -/
theorem toList_docstring_single (line : String) : (unlines (docstring [line])).toList =
    "    ".toList ++ '"' :: '"' :: '"' ::
      (escapeTripleQuotes line.toList ++ ['"', '"', '"', '\n']) := by
  simp [docstring, docstringLine, unlines, String.join_cons]

/-- The text of any other docstring. -/
theorem toList_docstring {doc : List String} (h : ∀ line, doc ≠ [line]) :
    (unlines (docstring doc)).toList =
    "    ".toList ++ '"' :: '"' :: '"' :: ('\n' :: (unlines (doc.map paddedLine)).toList ++
      [' ', ' ', ' ', ' ', '"', '"', '"', '\n']) := by
  have hdocstring : docstring doc = "    \"\"\"" :: doc.map paddedLine ++ ["    \"\"\""] := by
    match doc with
    | [] => rfl
    | [line] => exact absurd rfl (h line)
    | _ :: _ :: _ => rfl
  rw [hdocstring, List.cons_append, Text.toList_unlines_cons, Text.toList_unlines_append,
    Text.toList_unlines_cons]
  simp [unlines]

section Lines

variable {named : List Char → Option Nat} {doc : List String}

/-- Spaces read back as themselves. -/
theorem readBody_spaces (width : Nat) (behind : List Char) :
    readBody named (List.replicate width ' ' ++ behind) =
      after (List.replicate width 32) (readBody named behind) := by
  induction width with
  | zero => exact (after_nil _).symm
  | succ width ih =>
    rw [List.replicate_succ, List.cons_append, readBody_plain (by decide)
      (by simp [StartsWithQuotes]), ih, after_after]
    rfl

/-- Lines with guarded backslashes read back in order. -/
theorem exists_readBody_paddedLines (h : ∀ line ∈ doc, Guarded line.toList) :
    ∃ value, ContainsInOrder ((doc.map String.toList).map codePoints) value ∧
      ∀ behind, readBody named ((unlines (doc.map paddedLine)).toList ++ behind) =
        after value (readBody named behind) := by
  induction doc with
  | nil => exact ⟨[], trivial, fun behind => (after_nil _).symm⟩
  | cons line others ih =>
    rw [List.forall_mem_cons] at h
    obtain ⟨value, hcontains, hread⟩ := ih h.2
    obtain ⟨width, hline⟩ := toList_paddedLine line
    refine ⟨List.replicate width 32 ++ (codePoints line.toList ++ 10 :: value),
      ⟨_, _, rfl, by simpa using hcontains.append [10] []⟩, fun behind => ?_⟩
    have hfeed : readBody named ('\n' :: ((unlines (others.map paddedLine)).toList ++ behind)) =
        after (10 :: value) (readBody named behind) := by
      rw [readBody_plain (by decide) (by simp [StartsWithQuotes]), hread, after_after]
      rfl
    rw [List.map_cons, Text.toList_unlines_cons, hline, List.append_assoc, List.append_assoc,
      readBody_spaces, List.cons_append, h.1.readBody_eq (.inl (by simp)), hfeed, after_after,
      after_after, List.append_assoc]

/-- So the marks of lines are those of a docstring, up to the escapes that it has, and nothing is
missing only if the backslashes of all of them are guarded. -/
theorem marks_paddedLines (doc : List String) (c : Char) (rest : List Char) :
    marks (unlines (doc.map paddedLine)).toList + escapes (c :: rest) ≤
        marks (doc.map String.toList).flatten +
          escapes ((unlines (doc.map paddedLine)).toList ++ c :: rest) ∧
      (marks (unlines (doc.map paddedLine)).toList + escapes (c :: rest) =
          marks (doc.map String.toList).flatten +
            escapes ((unlines (doc.map paddedLine)).toList ++ c :: rest) →
        ∀ line ∈ doc, Guarded line.toList) := by
  have hspaces : ∀ width, marks (List.replicate width ' ') = 0 := fun width => by
    rw [marks, List.countP_replicate]
    exact if_neg (by decide)
  have hskip : ∀ width text, escapes (List.replicate width ' ' ++ text) = escapes text := by
    intro width text
    induction width with
    | zero => simp
    | succ width ih => rw [List.replicate_succ, List.cons_append, escapes_cons (by decide), ih]
  induction doc with
  | nil => exact ⟨by simp [unlines, marks], by simp⟩
  | cons line others ih =>
    obtain ⟨width, hline⟩ := toList_paddedLine line
    obtain ⟨hle, heq⟩ := marks_escapeTripleQuotes line.toList (c := '\n') (by decide)
      ((unlines (others.map paddedLine)).toList ++ c :: rest)
    have hfeed : isMark '\n' = false := by decide
    have hplain : '\n' ≠ '\\' := by decide
    rw [escapes_cons hplain] at hle heq
    simp only [List.map_cons, List.flatten_cons, Text.toList_unlines_cons, hline,
      List.append_assoc, marks_append, marks_cons, hspaces, hskip, List.cons_append, hfeed,
      Bool.false_eq_true, if_false]
    refine ⟨by omega, fun h => List.forall_mem_cons.mpr ⟨heq (by omega), ih.2 (by omega)⟩⟩

end Lines

/-- Where a literal reads back up to the end of its line, it has no null character and no carriage
return, and as many marks as the lines that it holds and its escapes. -/
theorem marks_of_readLong {named : List Char → Option Nat} (lines : List (List Char))
    {body tail : List Char} {value : List Nat}
    (hread : readLong named ('"' :: '"' :: '"' :: (body ++ tail)) = some (value, ['\n']))
    (hcontains : ContainsInOrder (lines.map codePoints) value) (htail : marks tail = 3)
    (hbody : marks body ≤ marks lines.flatten + escapes (body ++ tail)) :
    '\x00' ∉ body ∧ '\r' ∉ body ∧ marks body = marks lines.flatten + escapes (body ++ tail) := by
  unfold readLong at hread
  split at hread
  · contradiction
  next hnull =>
  have hfeeds : withLineFeeds ('"' :: '"' :: '"' :: (body ++ tail)) =
      '"' :: '"' :: '"' :: withLineFeeds (body ++ tail) := by
    simp [withLineFeeds]
  rw [hfeeds] at hread
  have hcount := codeMarks_readBody hread
  have hlines := hcontains.marks_le
  have hreturns := marks_withLineFeeds (body ++ tail)
  have hend : marks ['\n'] = 0 ∧ escapes ['\n'] = 0 := by decide
  rw [escapes_withLineFeeds, hend.1, hend.2] at hcount
  rw [marks_append, htail] at hreturns
  have hnone : (body ++ tail).count '\r' = 0 := by omega
  rw [List.count_eq_zero, List.mem_append, not_or] at hnone
  simp only [List.mem_cons, List.mem_append, not_or] at hnull
  exact ⟨hnull.2.2.2.1, hnone.1, by omega⟩

/-- A source without null characters and carriage returns is read as it stands. -/
theorem readLong_eq {named : List Char → Option Nat} {text : List Char} (hnull : '\x00' ∉ text)
    (hreturn : '\r' ∉ text) : readLong named ('"' :: '"' :: '"' :: text) = readBody named text := by
  have hfeeds : withLineFeeds ('"' :: '"' :: '"' :: text) = '"' :: '"' :: '"' :: text :=
    withLineFeeds_of_return_notMem (by simpa using hreturn)
  rw [readLong, if_neg (by simpa using hnull), hfeeds]
  rfl

/-- Escaping leaves the characters of a line in it, and adds backslashes only. -/
theorem mem_escapeTripleQuotes_iff {c : Char} (hc : c ≠ '\\') (line : List Char) :
    c ∈ escapeTripleQuotes line ↔ c ∈ line := by
  fun_induction escapeTripleQuotes line with
  | case1 => exact Iff.rfl
  | case2 rest ih => simp [hc, ih]
  | case3 first rest hquotes ih => simp [ih]

/-- So do the lines of a docstring, which add spaces and line feeds as well. -/
theorem mem_paddedLines_iff {c : Char} (hc : isMark c) (hbackslash : c ≠ '\\') (doc : List String) :
    c ∈ (unlines (doc.map paddedLine)).toList ↔ ∃ line ∈ doc, c ∈ line.toList := by
  obtain ⟨hspace, hfeed⟩ : c ≠ ' ' ∧ c ≠ '\n' := by simpa [isMark] using hc
  induction doc with
  | nil => simp [unlines]
  | cons line others ih =>
    obtain ⟨width, hline⟩ := toList_paddedLine line
    rw [List.map_cons, Text.toList_unlines_cons, hline]
    simp [hspace, hfeed, ih, mem_escapeTripleQuotes_iff hbackslash]

/-- A docstring of one line reads back exactly if the line may be kept and its quotes at the end
come in threes. -/
theorem readsBack_single_iff (named : List Char → Option Nat) (line : String) :
    ReadsBack named [line] ↔ Kept line.toList ∧ 3 ∣ quotesAtEnd line.toList := by
  have hnull := mem_escapeTripleQuotes_iff (c := '\x00') (by decide) line.toList
  have hreturn := mem_escapeTripleQuotes_iff (c := '\r') (by decide) line.toList
  have hliteral : '\x00' ∉ line.toList → '\r' ∉ line.toList →
      readLong named ('"' :: '"' :: '"' ::
        (escapeTripleQuotes line.toList ++ ['"', '"', '"', '\n'])) =
        readBody named (escapeTripleQuotes line.toList ++ ['"', '"', '"', '\n']) := by
    intro hnullLine hreturnLine
    exact readLong_eq (by simpa [hnull] using hnullLine) (by simpa [hreturn] using hreturnLine)
  constructor
  · rintro ⟨literal, value, htext, hread, hcontains⟩
    rw [toList_docstring_single] at htext
    obtain rfl := List.append_cancel_left htext
    obtain ⟨hle, hguarded⟩ :=
      marks_escapeTripleQuotes line.toList (c := '"') (by decide) ['"', '"', '\n']
    have htail : marks ['"', '"', '"', '\n'] = 3 ∧ escapes ['"', '"', '"', '\n'] = 0 := by decide
    rw [htail.2] at hle hguarded
    obtain ⟨hnullFree, hreturnFree, hmarks⟩ := marks_of_readLong [line.toList]
      hread hcontains htail.1 (by simpa using hle)
    have hguarded := hguarded (by simpa using hmarks)
    rw [hnull] at hnullFree
    rw [hreturn] at hreturnFree
    refine ⟨⟨hguarded.backslashesGuarded, hreturnFree, hnullFree⟩, ?_⟩
    by_contra hleft
    rw [hliteral hnullFree hreturnFree] at hread
    obtain ⟨early, rest, hearly⟩ := hguarded.readBody_early hleft ['\n']
    rw [hearly] at hread
    simp at hread
  · rintro ⟨hkept, hquotes⟩
    refine ⟨_, codePoints line.toList, toList_docstring_single line, ?_, [], [], by simp, trivial⟩
    rw [hliteral hkept.null_notMem hkept.return_notMem,
      hkept.guarded.guarded.readBody_eq (.inr hquotes), readBody_quotes]
    simp [after]

/-- Any other docstring reads back exactly if all its lines may be kept. -/
theorem readsBack_iff_of_ne (named : List Char → Option Nat) {doc : List String}
    (h : ∀ line, doc ≠ [line]) :
    ReadsBack named doc ↔ ∀ line ∈ doc, Kept line.toList := by
  have hnull := mem_paddedLines_iff (c := '\x00') (by decide) (by decide) doc
  have hreturn := mem_paddedLines_iff (c := '\r') (by decide) (by decide) doc
  constructor
  · rintro ⟨literal, value, htext, hread, hcontains⟩
    rw [toList_docstring h] at htext
    obtain rfl := List.append_cancel_left htext
    obtain ⟨hle, hguarded⟩ := marks_paddedLines doc ' ' [' ', ' ', ' ', '"', '"', '"', '\n']
    have htail : marks [' ', ' ', ' ', ' ', '"', '"', '"', '\n'] = 3 ∧
        escapes [' ', ' ', ' ', ' ', '"', '"', '"', '\n'] = 0 := by decide
    have hfeed : ∀ text, marks ('\n' :: text) = marks text := fun text => by
      rw [marks_cons, if_neg (by decide), Nat.add_zero]
    have hplain : '\n' ≠ '\\' := by decide
    rw [htail.2] at hle hguarded
    obtain ⟨hnullFree, hreturnFree, hmarks⟩ := marks_of_readLong (doc.map String.toList)
      hread hcontains htail.1 (by rw [hfeed, List.cons_append, escapes_cons hplain]; exact hle)
    rw [hfeed, List.cons_append, escapes_cons hplain] at hmarks
    have hlines := hguarded hmarks
    rw [List.mem_cons, not_or, hnull] at hnullFree
    rw [List.mem_cons, not_or, hreturn] at hreturnFree
    exact fun line hline => ⟨(hlines line hline).backslashesGuarded,
      fun hmem => hreturnFree.2 ⟨line, hline, hmem⟩, fun hmem => hnullFree.2 ⟨line, hline, hmem⟩⟩
  · intro hkept
    have hnullFree : '\x00' ∉ (unlines (doc.map paddedLine)).toList := by
      rw [hnull]
      exact fun ⟨line, hline, hmem⟩ => (hkept line hline).null_notMem hmem
    have hreturnFree : '\r' ∉ (unlines (doc.map paddedLine)).toList := by
      rw [hreturn]
      exact fun ⟨line, hline, hmem⟩ => (hkept line hline).return_notMem hmem
    obtain ⟨value, hcontains, hread⟩ :=
      @exists_readBody_paddedLines named doc fun line hline => (hkept line hline).guarded.guarded
    have hquotes : ¬ StartsWithQuotes ('\n' :: ((unlines (doc.map paddedLine)).toList ++
        [' ', ' ', ' ', ' ', '"', '"', '"', '\n'])) := by simp [StartsWithQuotes]
    have htail : readBody named [' ', ' ', ' ', ' ', '"', '"', '"', '\n'] =
        after (List.replicate 4 32) (readBody named ['"', '"', '"', '\n']) := readBody_spaces 4 _
    refine ⟨_, 10 :: (value ++ List.replicate 4 32), toList_docstring h, ?_, ?_⟩
    · rw [readLong_eq (by simpa using hnullFree) (by simpa using hreturnFree), List.cons_append,
        readBody_plain (by decide) hquotes, hread, htail, readBody_quotes]
      simp [after]
    · simpa using hcontains.append [10] (List.replicate 4 32)

/-- A docstring is one long literal that holds its lines in order exactly if all of them may be
kept, and the quotes at the end of a single line come in threes. -/
theorem readsBack_docstring_iff (named : List Char → Option Nat) (doc : List String) :
    ReadsBack named doc ↔
      (∀ line ∈ doc, Kept line.toList) ∧ ∀ line, doc = [line] → 3 ∣ quotesAtEnd line.toList := by
  by_cases hsingle : ∃ line, doc = [line]
  · obtain ⟨line, rfl⟩ := hsingle
    rw [readsBack_single_iff]
    simp
  · rw [not_exists] at hsingle
    rw [readsBack_iff_of_ne named hsingle]
    exact (and_iff_left fun line hline => absurd hline (hsingle line)).symm

/-- A line that ends with a quote closes its docstring too early. -/
theorem not_readsBack_quoteAtEnd : ¬ ReadsBack (fun _ => none) ["Says \"hi\""] := by
  rw [readsBack_single_iff]
  exact fun h => absurd h.2 (by decide)

end SchemaBindings.Bindings.PythonPackage
