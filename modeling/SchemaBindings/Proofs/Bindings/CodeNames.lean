import SchemaBindings.Proofs.Bindings.TextDefaults
import SchemaBindings.Proofs.Naming.Identifiers
import SchemaBindings.Proofs.Number.Text

/-!
# The names in a line of code

A line of code names things by words, or by several words with dots between them, of which the first
one says where to look for the others. What is in a string literal names nothing. Numbers look like
names, but start with a digit.

A part of a line is scanned with what follows it at hand, so that no name is cut in two: what the
part names is named in front of the rest, whatever that is, as long as it does not go on with a
name.
-/

namespace SchemaBindings.Bindings.Code

open SchemaBindings.Naming (IsWord)
open SchemaBindings.Number (IsDecimal)
open SchemaBindings.Schema (Avoids IsDigits isNamePart isNamePart_iff signed startsWithDigit)

/-! ## Scanning -/

/-- Where a line is scanned: outside of literals, in a literal, or there behind a backslash. -/
inductive Place where
  | plain
  | literal
  | escape
deriving DecidableEq

/-- Whether a character is a part of a name with dots. -/
def isPathPart (c : Char) : Bool :=
  isNamePart c || c = '.'

/-- Whether a character neither is a part of a name nor opens a literal. -/
def isMark (c : Char) : Bool :=
  !isPathPart c && c ≠ '"'

/-- A run that is complete, if it has begun. -/
def completed (run : List Char) : List (List Char) :=
  if run.isEmpty then [] else [run]

/-- The maximal runs of parts of names that are outside of literals. In front of the text stands the
run `run`, of which no character may be missing. A backslash in a literal takes the next character
along. -/
def runsFrom : Place → List Char → List Char → List (List Char)
  | _, run, [] => completed run
  | .plain, run, c :: rest =>
    if c = '"' then completed run ++ runsFrom .literal [] rest
    else if isPathPart c then runsFrom .plain (run ++ [c]) rest
    else completed run ++ runsFrom .plain [] rest
  | .literal, _, c :: rest =>
    runsFrom (if c = '\\' then .escape else if c = '"' then .plain else .literal) [] rest
  | .escape, _, _ :: rest => runsFrom .literal [] rest

/-- The words of a run. -/
def wordsOf (run : List Char) : List String :=
  (run.splitOn '.').map String.ofList

/-- The names in a text, each as its words. -/
def paths (text : List Char) : List (List String) :=
  (runsFrom .plain [] text).map wordsOf

/-- The words that occur in a line. -/
def words (line : String) : List String :=
  (paths line.toList).flatten

/-- What a name of two words refers to: a module and something in it. A number does not. -/
def reference? : List String → Option (String × String)
  | [outer, name] => if startsWithDigit outer.toList then none else some (outer, name)
  | _ => none

/-- The references to other modules in a line. -/
def references (line : String) : List (String × String) :=
  (paths line.toList).filterMap reference?

/-! ## Parts of a line -/

/-- Whether a part of a line has the given names, in front of whatever does not go on with a
name. -/
def HasPaths (text : List Char) (found : List (List String)) : Prop :=
  ∀ rest, Avoids isPathPart rest → paths (text ++ rest) = found ++ paths rest

/-- Behind a run, a line goes on as it would without it. -/
theorem runsFrom_of_avoids {run rest : List Char} (h : Avoids isPathPart rest) :
    runsFrom .plain run rest = completed run ++ runsFrom .plain [] rest := by
  cases rest with
  | nil => simp [runsFrom, completed]
  | cons c rest =>
    have hc : isPathPart c = false := h c rfl
    rw [runsFrom, runsFrom, hc]
    split <;> rfl

/-- A run is read to its end. -/
theorem runsFrom_append {run more : List Char} (h : ∀ c ∈ more, isPathPart c = true)
    (rest : List Char) :
    runsFrom .plain run (more ++ rest) = runsFrom .plain (run ++ more) rest := by
  induction more generalizing run with
  | nil => rw [List.nil_append, List.append_nil]
  | cons c more ih =>
    rw [List.forall_mem_cons] at h
    have hquote : c ≠ '"' := by
      rintro rfl
      exact absurd h.1 (by decide)
    rw [List.cons_append, runsFrom, if_neg hquote, if_pos h.1, ih h.2, List.append_assoc,
      List.singleton_append]

/-- The end of a line does not go on with a name. -/
theorem avoids_nil : Avoids isPathPart [] := by
  simp [Avoids]

/-- A mark does not go on with a name. -/
theorem avoids_mark {c : Char} (h : isMark c = true) (rest : List Char) :
    Avoids isPathPart (c :: rest) := by
  intro other hother
  obtain rfl := Option.some.inj hother
  simpa using (Bool.and_eq_true_iff.mp h).1

/-- A text that does not go on with a name does not do so either if it is followed by another
one. -/
theorem avoids_append {text rest : List Char} (htext : Avoids isPathPart text)
    (hrest : Avoids isPathPart rest) :
    Avoids isPathPart (text ++ rest) := by
  cases text with
  | nil => exact hrest
  | cons c text => exact htext

/-- The names of a part are those of the whole line if nothing follows. -/
theorem HasPaths.paths_eq {text : List Char} {found : List (List String)}
    (h : HasPaths text found) :
    paths text = found := by
  have hall := h [] avoids_nil
  rwa [List.append_nil, show paths [] = [] from rfl, List.append_nil] at hall

/-- Nothing has no names. -/
theorem HasPaths.nil : HasPaths [] [] :=
  fun _ _ => rfl

/-- A mark names nothing. -/
theorem HasPaths.mark {c : Char} (hc : isMark c = true) {text : List Char}
    {found : List (List String)} (h : HasPaths text found) : HasPaths (c :: text) found := by
  intro rest hrest
  obtain ⟨hpart, hquote⟩ := Bool.and_eq_true_iff.mp hc
  rw [← h rest hrest, List.cons_append, paths, paths, runsFrom, if_neg (by simpa using hquote),
    if_neg (by simpa using hpart)]
  rfl

/-- Two parts have the names of both, unless the second one goes on with a name. -/
theorem HasPaths.append {text more : List Char} {found others : List (List String)}
    (h : HasPaths text found) (hmore : HasPaths more others) (hstart : Avoids isPathPart more) :
    HasPaths (text ++ more) (found ++ others) := by
  intro rest hrest
  rw [List.append_assoc, h _ (avoids_append hstart hrest), hmore rest hrest, List.append_assoc]

/-- A run is one name. -/
theorem HasPaths.run {run : List Char} (hne : run ≠ []) (h : ∀ c ∈ run, isPathPart c = true) :
    HasPaths run [wordsOf run] := by
  intro rest hrest
  rw [paths, runsFrom_append h, List.nil_append, runsFrom_of_avoids hrest, completed,
    if_neg (by simpa using hne)]
  rfl

/-- A word is one name. -/
theorem HasPaths.word {word : String} (h : IsWord word) : HasPaths word.toList [[word]] := by
  have hdot : '.' ∉ word.toList := fun hmem => absurd (h.2 '.' hmem) (by decide)
  have hne : word.toList ≠ [] := by simpa using h.1
  have hrun := HasPaths.run hne fun c hc => by simp [isPathPart, h.2 c hc]
  rwa [wordsOf, List.splitOn_eq_singleton hdot, List.map_singleton, String.ofList_toList] at hrun

/-- Two words with a dot between them are one name. -/
theorem HasPaths.qualified {outer name : String} (houter : IsWord outer) (hname : IsWord name) :
    HasPaths (outer.toList ++ '.' :: name.toList) [[outer, name]] := by
  have hdot {word : String} (h : IsWord word) : '.' ∉ word.toList :=
    fun hmem => absurd (h.2 '.' hmem) (by decide)
  have hpart {word : String} (h : IsWord word) : ∀ c ∈ word.toList, isPathPart c = true :=
    fun c hc => by simp [isPathPart, h.2 c hc]
  have hne : outer.toList ++ '.' :: name.toList ≠ [] := by simp
  have hrun := HasPaths.run hne
    (List.forall_mem_append.mpr ⟨hpart houter, List.forall_mem_cons.mpr ⟨by decide, hpart hname⟩⟩)
  rwa [wordsOf, List.splitOn_append_cons_self, List.splitOn_eq_singleton (hdot houter),
    List.splitOn_eq_singleton (hdot hname), List.singleton_append, List.map_cons,
    List.map_singleton, String.ofList_toList, String.ofList_toList] at hrun

/-- What is written of a character in a literal is scanned in the literal. -/
theorem runsFrom_literal_of_writtenAs {c : Char} {form : List Char} (h : WrittenAs c form)
    (rest : List Char) :
    runsFrom .literal [] (form ++ rest) = runsFrom .literal [] rest := by
  have hplain {text : List Char} (htext : ∀ other ∈ text, other ∉ markedChars) (rest : List Char) :
      runsFrom .literal [] (text ++ rest) = runsFrom .literal [] rest := by
    induction text with
    | nil => rfl
    | cons other text ih =>
      rw [List.forall_mem_cons, notMem_markedChars_iff] at htext
      obtain ⟨⟨hquote, hbackslash, -⟩, hmore⟩ := htext
      rw [List.cons_append, runsFrom, if_neg hbackslash, if_neg hquote, ih hmore]
  cases h with
  | plain hc =>
    have hsingle : ∀ other ∈ [c], other ∉ markedChars := by simpa using hc
    exact hplain hsingle rest
  | @escaped selector more _ hmore =>
    rw [List.cons_append, List.cons_append, runsFrom, if_pos rfl, runsFrom]
    exact hplain hmore rest

/-- A string literal names nothing. -/
theorem HasPaths.literal (content : String) : HasPaths (PythonPackage.quote content).toList [] := by
  intro rest _
  have hbody : ∀ content : List Char,
      runsFrom .literal [] (content.flatMap PythonPackage.escapeChar ++ '"' :: rest) =
      runsFrom .plain [] rest := by
    intro content
    induction content with
    | nil => rfl
    | cons c content ih =>
      rw [List.flatMap_cons, List.append_assoc,
        runsFrom_literal_of_writtenAs (PythonPackage.writtenAs_escapeChar c), ih]
  have hquote : (PythonPackage.quote content).toList = PythonPackage.quoteChars content.toList :=
    String.toList_ofList
  rw [hquote, PythonPackage.quoteChars, List.append_assoc, List.singleton_append, List.cons_append,
    paths, runsFrom, if_pos rfl, hbody]
  rfl

/-! ## Code around names -/

/-- Whether a text has the given names, and what follows it cannot go on with the last one: it has
no quotes and ends with a mark. -/
def Opens (text : String) (found : List (List String)) : Prop :=
  '"' ∉ text.toList ∧ text.toList.getLast?.any isMark = true ∧ paths text.toList = found

/-- For a given text, this is seen by scanning it. -/
instance (text : String) (found : List (List String)) : Decidable (Opens text found) :=
  inferInstanceAs (Decidable (_ ∧ _ ∧ _))

/-- Whether, in addition, the text does not go on with a name itself. -/
def Joins (text : String) (found : List (List String)) : Prop :=
  Opens text found ∧ text.toList.head?.any isMark = true

/-- Whether a text joins names can be decided. -/
instance (text : String) (found : List (List String)) : Decidable (Joins text found) :=
  inferInstanceAs (Decidable (_ ∧ _))

/-- Behind a text that ends with a mark, scanning starts anew. -/
theorem runsFrom_of_closed {text : List Char} (hquote : '"' ∉ text)
    (hlast : text.getLast?.any isMark = true) (run rest : List Char) :
    runsFrom .plain run (text ++ rest) = runsFrom .plain run text ++ runsFrom .plain [] rest := by
  induction text generalizing run with
  | nil => exact absurd hlast Bool.false_ne_true
  | cons c text ih =>
    rw [List.mem_cons, not_or, eq_comm] at hquote
    rw [List.cons_append, runsFrom, runsFrom, if_neg hquote.1, if_neg hquote.1]
    cases text with
    | nil =>
      have hpart : isPathPart c = false := by simpa using (Bool.and_eq_true_iff.mp hlast).1
      rw [hpart, if_neg Bool.false_ne_true, if_neg Bool.false_ne_true]
      rw [List.nil_append, show runsFrom .plain [] [] = [] from rfl, List.append_nil]
    | cons next text =>
      rw [List.getLast?_cons_cons] at hlast
      split
      · exact ih hquote.2 hlast _
      · rw [ih hquote.2 hlast, List.append_assoc]

/-- What stands behind a text that ends with a mark adds its names to those of the text. -/
theorem HasPaths.opened {opening : String} {first found : List (List String)} {text : List Char}
    (hopening : Opens opening first) (h : HasPaths text found) :
    HasPaths (opening.toList ++ text) (first ++ found) := by
  intro rest hrest
  obtain ⟨hquote, hlast, rfl⟩ := hopening
  rw [List.append_assoc, paths, runsFrom_of_closed hquote hlast, List.map_append]
  change paths opening.toList ++ paths (text ++ rest) = _
  rw [h rest hrest, List.append_assoc]

/-- What stands behind a part and a text that keeps both apart adds its names to those of the part
and the text. -/
theorem HasPaths.joined {separator : String} {between found others : List (List String)}
    {text more : List Char} (h : HasPaths text found) (hseparator : Joins separator between)
    (hmore : HasPaths more others) :
    HasPaths (text ++ (separator.toList ++ more)) (found ++ (between ++ others)) := by
  obtain ⟨hopens, hfirst⟩ := hseparator
  refine h.append (.opened hopens hmore) ?_
  cases hchars : separator.toList with
  | nil => simp [hchars] at hfirst
  | cons c rest =>
    rw [hchars, List.head?_cons] at hfirst
    exact avoids_mark hfirst _

/-- A text that keeps apart may also stand at the end. -/
theorem HasPaths.closed {closing : String} {last found : List (List String)} {text : List Char}
    (h : HasPaths text found) (hclosing : Joins closing last) :
    HasPaths (text ++ closing.toList) (found ++ last) := by
  have hjoined := h.joined hclosing .nil
  rwa [List.append_nil, List.append_nil] at hjoined

/-! ## Numbers -/

/-- Whether a name may be that of a number: it has no capital letters and refers to nothing. -/
structure IsNumber (path : List String) : Prop where
  small : ∀ word ∈ path, ∀ c ∈ word.toList, c.isUpper = false
  reference : reference? path = none

/-- Whether a character may occur in a number. -/
def isNumberPart (c : Char) : Bool :=
  c.isDigit || c = '.' || c = 'e'

/-- The parts of a number are parts of names, and no capital letters. -/
theorem isPathPart_of_isNumberPart {c : Char} (h : isNumberPart c = true) :
    isPathPart c = true ∧ c.isUpper = false := by
  rw [isNumberPart, Bool.or_eq_true, Bool.or_eq_true, decide_eq_true_eq, decide_eq_true_eq] at h
  rcases h with (h | rfl) | rfl
  · have hpart : isNamePart c = true := (isNamePart_iff c).mpr (.inr h)
    have hsmall : c.isDigit = true → c.isUpper = false :=
      Naming.forall_isNamePart (P := fun c => c.isDigit = true → c.isUpper = false)
        (by decide) hpart
    exact ⟨by simp [isPathPart, hpart], hsmall h⟩
  · decide
  · decide

/-- A run that starts with a digit and has no other characters is a number. -/
theorem isNumber_wordsOf {run : List Char} (hdigit : startsWithDigit run = true)
    (h : ∀ c ∈ run, isNumberPart c = true) : IsNumber (wordsOf run) := by
  constructor
  · intro word hword c hc
    obtain ⟨part, hpart, rfl⟩ := List.mem_map.mp hword
    rw [String.toList_ofList] at hc
    exact (isPathPart_of_isNumberPart (h c (Text.mem_of_mem_splitOn hpart hc))).2
  · cases run with
    | nil => exact absurd hdigit (by decide)
    | cons first rest =>
      have hdot : first ≠ '.' := by
        rintro rfl
        have hdot : '.'.isDigit = true := hdigit
        exact absurd hdot (by decide)
      obtain ⟨head, others, hparts⟩ := List.exists_cons_of_ne_nil (List.splitOn_ne_nil '.' rest)
      rw [wordsOf, List.splitOn_cons_eq_if_modifyHead, if_neg (by simpa using hdot), hparts,
        List.modifyHead_cons, List.map_cons]
      have hfirst : startsWithDigit (String.ofList (first :: head)).toList = true := by
        rw [String.toList_ofList]
        exact hdigit
      match others.map String.ofList with
      | [] => rfl
      | [name] => exact if_pos hfirst
      | _ :: _ :: _ => rfl

/-- A run that starts with a digit and is made of what numbers may have names nothing but numbers.
-/
theorem HasPaths.number {run : List Char} (hdigit : startsWithDigit run = true)
    (h : ∀ c ∈ run, isNumberPart c = true) :
    ∃ found, HasPaths run found ∧ ∀ path ∈ found, IsNumber path := by
  have hne : run ≠ [] := by
    rintro rfl
    exact absurd hdigit (by decide)
  refine ⟨_, .run hne fun c hc => (isPathPart_of_isNumberPart (h c hc)).1, ?_⟩
  simpa using isNumber_wordsOf hdigit h

/-- Digits start with a digit and have no other characters. -/
theorem number_of_isDigits {digits : List Char} (h : IsDigits digits) (more : List Char) :
    startsWithDigit (digits ++ more) = true ∧ ∀ c ∈ digits, isNumberPart c = true := by
  obtain ⟨first, rest, rfl⟩ := List.exists_cons_of_ne_nil h.1
  exact ⟨h.2 first List.mem_cons_self, fun c hc => by simp [isNumberPart, h.2 c hc]⟩

/-- A minus sign is a mark. -/
theorem HasPaths.signed {text : List Char} {found : List (List String)} (h : HasPaths text found)
    (negative : Bool) :
    HasPaths (signed negative text) found := by
  cases negative with
  | true => exact HasPaths.mark (by decide) h
  | false => exact h

/-- A number with an exponent is one number, or two with a minus sign between them. -/
theorem HasPaths.exponent {mantissa exponent : List Char} (hdigit : startsWithDigit mantissa = true)
    (h : ∀ c ∈ mantissa, isNumberPart c = true) (negative : Bool) (hexponent : IsDigits exponent) :
    ∃ found, HasPaths (mantissa ++ 'e' :: Schema.signed negative exponent) found ∧
      ∀ path ∈ found, IsNumber path := by
  have hstart : ∀ more, startsWithDigit (mantissa ++ more) = true := by
    cases mantissa with
    | nil => exact absurd hdigit (by decide)
    | cons first rest => exact fun more => hdigit
  cases negative with
  | false =>
    refine HasPaths.number (hstart _) ?_
    exact List.forall_mem_append.mpr
      ⟨h, List.forall_mem_cons.mpr ⟨by decide, (number_of_isDigits hexponent []).2⟩⟩
  | true =>
    have hparts : ∀ c ∈ mantissa ++ ['e'], isNumberPart c = true :=
      List.forall_mem_append.mpr ⟨h, List.forall_mem_singleton.mpr (by decide)⟩
    obtain ⟨found, hfound, hnumbers⟩ := HasPaths.number (hstart _) hparts
    obtain ⟨hdigits, hparts⟩ := number_of_isDigits hexponent []
    rw [List.append_nil] at hdigits
    obtain ⟨others, hothers, hmore⟩ := HasPaths.number hdigits hparts
    have happend :=
      hfound.append (HasPaths.mark (c := '-') (by decide) hothers) (avoids_mark (by decide) _)
    rw [List.append_assoc] at happend
    exact ⟨_, happend, List.forall_mem_append.mpr ⟨hnumbers, hmore⟩⟩

/-- A decimal names nothing but numbers. -/
theorem HasPaths.decimal {magnitude : List Char} (h : IsDecimal magnitude) :
    ∃ found, HasPaths magnitude found ∧ ∀ path ∈ found, IsNumber path := by
  have hpoint {whole fraction : List Char} (hwhole : IsDigits whole)
      (hfraction : IsDigits fraction) :
      ∀ c ∈ whole ++ '.' :: fraction, isNumberPart c = true :=
    List.forall_mem_append.mpr ⟨(number_of_isDigits hwhole []).2,
      List.forall_mem_cons.mpr ⟨by decide, (number_of_isDigits hfraction []).2⟩⟩
  cases h with
  | point hwhole hfraction =>
    exact HasPaths.number (number_of_isDigits hwhole _).1 (hpoint hwhole hfraction)
  | exponent hwhole negative hexponent =>
    obtain ⟨hdigit, hparts⟩ := number_of_isDigits hwhole []
    rw [List.append_nil] at hdigit
    exact HasPaths.exponent hdigit hparts negative hexponent
  | pointAndExponent hwhole hfraction negative hexponent =>
    exact HasPaths.exponent (number_of_isDigits hwhole _).1 (hpoint hwhole hfraction)
      negative hexponent

/-! ## Statements -/

/-- A line of code, with the names that it is written with and the reference to another module that
may be among them. -/
structure Statement where
  line : String
  paths : List (List String)
  reference? : Option (String × String)

/-- The words that a statement is written with. -/
def Statement.words (statement : Statement) : List String :=
  statement.paths.flatten

/-- Whether scanning the line finds what it is written with. -/
structure Statement.Scans (statement : Statement) : Prop where
  words_eq : Code.words statement.line = statement.words
  references_eq : references statement.line = statement.reference?.toList

/-- Scanning the line finds what a statement is written with if the names of the statement are those
of the line. -/
theorem scans_of_hasPaths {statement : Statement}
    (h : HasPaths statement.line.toList statement.paths)
    (hreference : statement.paths.filterMap Code.reference? = statement.reference?.toList) :
    statement.Scans := by
  constructor
  · rw [words, h.paths_eq, Statement.words]
  · rw [references, h.paths_eq, hreference]

end SchemaBindings.Bindings.Code
