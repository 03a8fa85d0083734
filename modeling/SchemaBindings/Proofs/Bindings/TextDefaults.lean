import SchemaBindings.Bindings.PythonPackage
import SchemaBindings.Bindings.RustModules
import SchemaBindings.Proofs.Bindings.RustLiterals

/-!
# Default texts

Python and Rust write a default text between quotes, one character after the other: a character
stands for itself, or for it stands a backslash with what it selects. The quote, the backslash and
the two characters that end lines always get a backslash. So the literal is a single line, no quote
in it closes it early, and each language reads it as the text that it was written for, whatever the
text holds.
-/

namespace SchemaBindings.Bindings

open SchemaBindings.Bindings.PythonLiteral (after codePoints)
open SchemaBindings.Graph (Field FieldType)
open SchemaBindings.Text (escapeVisible hexDigits isControl quoteVisible quoted)

/-! ## Texts between quotes -/

/-- The characters that do not stand for themselves between quotes. -/
def markedChars : List Char := ['"', '\\', '\n', '\r']

/-- A character that is not marked is none of them. -/
theorem notMem_markedChars_iff {c : Char} :
    c ∉ markedChars ↔ c ≠ '"' ∧ c ≠ '\\' ∧ c ≠ '\n' ∧ c ≠ '\r' := by
  simp [markedChars]

/-- Whether a quote in a text stands behind no backslash that takes it. -/
def HasBareQuote : List Char → Prop
  | [] => False
  | '\\' :: _ :: rest => HasBareQuote rest
  | '"' :: _ => True
  | _ :: rest => HasBareQuote rest

/-- Whether a literal is a single line between two quotes of which no other one closes it. -/
def IsOneLine (literal : List Char) : Prop :=
  ∃ inner, literal = '"' :: inner ++ ['"'] ∧ '\n' ∉ inner ∧ '\r' ∉ inner ∧ ¬ HasBareQuote inner

/-- How a character is written between quotes: as it is if it is not marked, or as a backslash with
a character that ends no line and others that are not marked. -/
inductive WrittenAs (c : Char) : List Char → Prop
  | plain (h : c ∉ markedChars) : WrittenAs c [c]
  | escaped {selector : Char} {more : List Char} (hselector : selector ≠ '\n' ∧ selector ≠ '\r')
      (hmore : ∀ other ∈ more, other ∉ markedChars) : WrittenAs c ('\\' :: selector :: more)

/-- What is not marked is no bare quote. -/
theorem hasBareQuote_plain_append {text : List Char} (h : ∀ c ∈ text, c ∉ markedChars)
    (rest : List Char) :
    HasBareQuote (text ++ rest) ↔ HasBareQuote rest := by
  induction text with
  | nil => rfl
  | cons c text ih =>
    rw [List.forall_mem_cons, notMem_markedChars_iff] at h
    obtain ⟨⟨hquote, hbackslash, -⟩, hmore⟩ := h
    rw [List.cons_append, HasBareQuote, ih hmore]
    · exact fun _ _ hc => absurd hc hbackslash
    · exact hquote

/-- How a character is written brings no bare quote. -/
theorem WrittenAs.hasBareQuote_append {c : Char} {form : List Char} (h : WrittenAs c form)
    (rest : List Char) :
    HasBareQuote (form ++ rest) ↔ HasBareQuote rest := by
  cases h with
  | plain h => exact hasBareQuote_plain_append (by simpa using h) rest
  | escaped _ hmore => exact hasBareQuote_plain_append hmore rest

/-- How a character is written does not start with a quote. -/
theorem WrittenAs.exists_first {c : Char} {form : List Char} (h : WrittenAs c form) :
    ∃ first more, form = first :: more ∧ first ≠ '"' := by
  cases h with
  | plain h => exact ⟨c, [], rfl, fun hc => h (hc ▸ by decide)⟩
  | escaped _ _ => exact ⟨'\\', _, rfl, by decide⟩

/-- How a character is written does not end a line. -/
theorem WrittenAs.notMem {c : Char} {form : List Char} (h : WrittenAs c form) {ending : Char}
    (hending : ending = '\n' ∨ ending = '\r') : ending ∉ form := by
  have hmarked : ending ∈ markedChars := by rcases hending with rfl | rfl <;> decide
  have hbackslash : ending ≠ '\\' := by rcases hending with rfl | rfl <;> decide
  cases h with
  | plain h => simpa using fun hc : ending = c => h (hc ▸ hmarked)
  | @escaped selector more hselector hmore =>
    have hother : ending ≠ selector := by
      rcases hending with rfl | rfl
      · exact hselector.1.symm
      · exact hselector.2.symm
    simpa [hbackslash, hother] using fun hmem => hmore ending hmem hmarked

section Quoting

variable {escape : Char → List Char} (hescape : ∀ c, WrittenAs c (escape c))

include hescape

/-- A text that is written so between quotes is a literal of a single line. -/
theorem isOneLine_of_writtenAs (content : List Char) :
    IsOneLine ('"' :: content.flatMap escape ++ ['"']) := by
  have hending : ∀ ending : Char, ending = '\n' ∨ ending = '\r' →
      ending ∉ content.flatMap escape := by
    intro ending h hmem
    obtain ⟨c, -, hc⟩ := List.mem_flatMap.mp hmem
    exact (hescape c).notMem h hc
  refine ⟨_, rfl, hending _ (.inl rfl), hending _ (.inr rfl), ?_⟩
  induction content with
  | nil => exact id
  | cons c content ih =>
    rw [List.flatMap_cons, (hescape c).hasBareQuote_append]
    refine ih fun ending h hmem => hending ending h ?_
    rw [List.flatMap_cons]
    exact List.mem_append_right _ hmem

omit hescape

/-- A reader that reads each character as it is written, and stops at a quote, reads a text between
quotes. -/
theorem read_flatMap {read : List Char → Option (List Nat × List Char)}
    (hquote : ∀ rest, read ('"' :: rest) = some ([], rest))
    (hchar : ∀ c rest, read (escape c ++ rest) = after [c.toNat] (read rest))
    (content rest : List Char) :
    read (content.flatMap escape ++ '"' :: rest) = some (codePoints content, rest) := by
  induction content with
  | nil => exact hquote rest
  | cons c content ih =>
    rw [List.flatMap_cons, List.append_assoc, hchar, ih]
    rfl

end Quoting

/-- A code is written with characters that are not marked. -/
theorem notMem_markedChars_of_hexDigits {n : Nat} : ∀ c ∈ hexDigits n, c ∉ markedChars := by
  obtain ⟨digits, hwritten, -⟩ := RustLiteral.exists_writtenWith_hexDigits n
  have hmarked : markedChars.all (fun c => PythonLiteral.digitValue? 16 c = none) =
      true := by decide
  intro c hc hmem
  exact RustLiteral.notMem_of_writtenWith hwritten
    (of_decide_eq_true (List.all_eq_true.mp hmarked c hmem)) hc

/-! ## Python -/

namespace PythonPackage

open SchemaBindings.Bindings.PythonLiteral

/-- The two hexadecimal digits of a control. -/
def controlDigits (c : Char) : List Char :=
  (if c.toNat < 16 then ['0'] else []) ++ hexDigits c.toNat

/-- The two hexadecimal digits of a control are read as its code. A code below sixteen has a single
digit, and gets a zero in front. -/
theorem readHex_controlDigits {c : Char} (h : isControl c = true) (rest : List Char) :
    readHex 2 (controlDigits c ++ rest) = some ([c.toNat], rest) := by
  have hsmall : c.toNat < 160 := by
    simp only [isControl, Bool.or_eq_true, Bool.and_eq_true, decide_eq_true_eq] at h
    omega
  obtain ⟨digits, hwritten, hvalue⟩ := RustLiteral.exists_writtenWith_hexDigits c.toNat
  have hpadded : ∃ padded, RustLiteral.WrittenWith 16 (controlDigits c) padded ∧
      PythonLiteral.valueOf 16 padded = c.toNat := by
    unfold controlDigits
    split
    · exact ⟨0 :: digits, .cons (by decide) hwritten, by rw [RustLiteral.valueOf_zero_cons, hvalue]⟩
    · exact ⟨digits, hwritten, hvalue⟩
  have hlength : (controlDigits c).length = 2 := by
    have hmost : (hexDigits c.toNat).length ≤ 2 :=
      (Nat.length_toDigits_le_iff (by decide) (by decide)).mpr (by omega)
    have hleast : (hexDigits c.toNat).length ≤ 1 ↔ c.toNat < 16 :=
      Nat.length_toDigits_le_iff (by decide) (by decide)
    have hsome : 0 < (hexDigits c.toNat).length := Nat.length_toDigits_pos
    unfold controlDigits
    split
    · simp only [List.length_append, List.length_singleton]
      omega
    · simp only [List.nil_append]
      omega
  obtain ⟨padded, hall, hcode⟩ := hpadded
  have htaken := RustLiteral.takeDigits_of_writtenWith hall rest
  rw [hlength] at htaken
  have hcount : padded.length = 2 := by rw [← hall.length_eq, hlength]
  rw [readHex, htaken]
  simp only [hcount, hcode, true_and]
  exact if_pos (Nat.lt_trans hsmall (by decide))

/-- Every character is written as itself or with a backslash. -/
theorem writtenAs_escapeChar (c : Char) : WrittenAs c (escapeChar c) := by
  have hshort : ∀ selector, selector ≠ '\n' ∧ selector ≠ '\r' → WrittenAs c ['\\', selector] :=
    fun selector h => .escaped h (by simp)
  unfold escapeChar
  split
  · exact hshort _ (by decide)
  · exact hshort _ (by decide)
  · exact hshort _ (by decide)
  · exact hshort _ (by decide)
  · exact hshort _ (by decide)
  · next hquote hbackslash hfeed hreturn _ =>
    split
    · have hdigits : ∀ other ∈ controlDigits c, other ∉ markedChars := by
        rw [controlDigits, List.forall_mem_append]
        refine ⟨?_, notMem_markedChars_of_hexDigits⟩
        split
        · exact List.forall_mem_singleton.mpr (by decide)
        · exact List.forall_mem_nil _
      exact .escaped (by decide) hdigits
    · exact .plain (notMem_markedChars_iff.mpr ⟨hquote, hbackslash, hfeed, hreturn⟩)

/-- Every character is read as it was written. -/
theorem readQuoted_escapeChar (named : List Char → Option Nat) (c : Char) (rest : List Char) :
    readQuoted named (escapeChar c ++ rest) = after [c.toNat] (readQuoted named rest) := by
  unfold escapeChar
  split
  · exact readQuoted_escape rfl
  · exact readQuoted_escape rfl
  · exact readQuoted_escape rfl
  · exact readQuoted_escape rfl
  · exact readQuoted_escape rfl
  · next hquote hbackslash hfeed hreturn _ =>
    split
    · next hcontrol => exact readQuoted_escape (readHex_controlDigits hcontrol rest)
    · exact readQuoted_plain (notMem_markedChars_iff.mpr ⟨hquote, hbackslash, hfeed, hreturn⟩) rest

/-- A null character is a control, so it is not written. -/
theorem null_notMem_quoteChars (content : List Char) : '\x00' ∉ quoteChars content := by
  have hchar : ∀ c, '\x00' ∉ escapeChar c := by
    intro c
    have hdigits : '\x00' ∉ hexDigits c.toNat := by
      obtain ⟨digits, hwritten, -⟩ := RustLiteral.exists_writtenWith_hexDigits c.toNat
      exact RustLiteral.notMem_of_writtenWith hwritten (by decide)
    unfold escapeChar
    split
    · decide
    · decide
    · decide
    · decide
    · decide
    · split
      · simp [hdigits]
      · next hcontrol =>
        rw [List.mem_singleton]
        rintro rfl
        exact hcontrol (by decide)
  simp [quoteChars, hchar]

/-- No three quotes stand at the start of a literal, so Python reads it as a short one. -/
theorem readString_quoteChars (named : List Char → Option Nat) (content : List Char) :
    readString named (quoteChars content) = some (codePoints content, []) := by
  have hquote : ∀ rest, readQuoted named ('"' :: rest) = some ([], rest) := readQuoted_quote
  have hread := read_flatMap hquote (readQuoted_escapeChar named) content []
  have hreturn : '\r' ∉ quoteChars content := by
    obtain ⟨inner, hinner, -, hreturn, -⟩ := isOneLine_of_writtenAs writtenAs_escapeChar content
    rw [quoteChars, hinner]
    simpa using hreturn
  rw [readString, if_neg (null_notMem_quoteChars content), withLineFeeds_of_return_notMem hreturn,
    quoteChars, List.cons_append]
  cases content with
  | nil => exact hread
  | cons c content =>
    obtain ⟨first, more, hform, hfirst⟩ := (writtenAs_escapeChar c).exists_first
    rw [List.flatMap_cons, hform] at hread ⊢
    simpa [hfirst] using hread

/-- The literal for a default text stands in what the attribute of its field is set to. -/
theorem quote_infix_initialiser (content : String) (field : Field) (renamed : Bool) :
    ∃ initialiser, initialiserOf { field with default? := some (.text content) } renamed =
        some initialiser ∧
      (quote content).toList <:+: initialiser.text.toList := by
  cases renamed with
  | false => exact ⟨_, rfl, List.infix_refl _⟩
  | true =>
    have htext : (Initialiser.field (some (.string content)) field.name).text =
        "Field(default=" ++ quote content ++ ", alias=" ++ quote field.name ++ ")" := rfl
    refine ⟨.field (some (.string content)) field.name, rfl, ?_⟩
    rw [htext]
    simp only [String.toList_append, List.append_assoc]
    exact ⟨_, _, List.append_assoc _ _ _⟩

end PythonPackage

/-! ## Rust -/

namespace RustModules

open SchemaBindings.Bindings.RustLiteral

/-- Every character is written as itself or with a backslash. -/
theorem writtenAs_escapeVisible (c : Char) : WrittenAs c (escapeVisible c) := by
  have hshort : ∀ selector, selector ≠ '\n' ∧ selector ≠ '\r' → WrittenAs c ['\\', selector] :=
    fun selector h => .escaped h (by simp)
  unfold escapeVisible
  split
  · exact hshort _ (by decide)
  · exact hshort _ (by decide)
  · exact hshort _ (by decide)
  · exact hshort _ (by decide)
  · exact hshort _ (by decide)
  · exact hshort _ (by decide)
  · next hquote hbackslash hfeed hreturn _ _ =>
    split
    · exact .plain (notMem_markedChars_iff.mpr ⟨hquote, hbackslash, hfeed, hreturn⟩)
    · have hbraced : ∀ other ∈ '\x7b' :: hexDigits c.toNat ++ ['\x7d'], other ∉ markedChars := by
        rw [List.forall_mem_append, List.forall_mem_cons]
        exact ⟨⟨by decide, notMem_markedChars_of_hexDigits⟩,
          List.forall_mem_singleton.mpr (by decide)⟩
      exact .escaped (by decide) hbraced

/-- Every character is read as it was written. -/
theorem readBody_escapeVisible (c : Char) (rest : List Char) :
    readBody (escapeVisible c ++ rest) = after [c.toNat] (readBody rest) := by
  unfold escapeVisible
  split
  · exact readBody_escape rfl
  · exact readBody_escape rfl
  · exact readBody_escape rfl
  · exact readBody_escape rfl
  · exact readBody_escape rfl
  · exact readBody_escape rfl
  · next hquote hbackslash hfeed hreturn _ _ =>
    split
    · exact readBody_plain (notMem_markedChars_iff.mpr ⟨hquote, hbackslash, hfeed, hreturn⟩) rest
    · have hcode := readCode_hexDigits c rest
      have hescape : readEscape ('u' :: '\x7b' :: hexDigits c.toNat ++ ['\x7d'] ++ rest) =
          some ([c.toNat], rest) := by
        simpa [readEscape] using hcode
      exact readBody_escape hescape

/-- A literal reads back whatever stands behind it. -/
theorem readString_quoteVisible (content rest : List Char) :
    readString (quoteVisible content ++ rest) = some (codePoints content, rest) := by
  have hread := read_flatMap readBody_quote readBody_escapeVisible content rest
  rw [quoteVisible, List.append_assoc, List.cons_append, readString]
  exact hread

/-- The literal for a text is read as that text. -/
theorem readString_quoted (content : String) :
    readString (quoted content).toList = some (codePoints content.toList, []) := by
  rw [quoted, String.toList_ofList, ← List.append_nil (quoteVisible content.toList)]
  exact readString_quoteVisible content.toList []

/-- The literal for a default text stands in the body of the function that gives it. -/
theorem quoted_infix_defaultExpr (content : String) (field : Field) :
    (quoted content).toList <:+: (defaultExpr field (.text content)).text.toList := by
  have hvalue : (quoted content).toList <:+:
      (valueExpr field.type (.text content)).text.toList := by
    unfold valueExpr
    split
    · refine ⟨"serde_json::Value::from(".toList, ")".toList, ?_⟩
      simp only [← String.toList_append]
      rfl
    · refine ⟨[], ".to_string()".toList, ?_⟩
      rw [List.nil_append, ← String.toList_append]
      rfl
  unfold defaultExpr
  dsimp only
  split
  · refine hvalue.trans ⟨"Some(".toList, ")".toList, ?_⟩
    simp only [← String.toList_append]
    rfl
  · exact hvalue

end RustModules

/-! ## Defaults -/

/-- Whatever a text holds, the literals for it in Python and in Rust are single lines that are read
as that text and leave nothing. Where it is the default of a field, the one stands in what the
attribute is set to, and the other in the body of the default function. -/
theorem textDefaults_readBack (named : List Char → Option Nat) (content : String) :
    (IsOneLine (PythonPackage.quote content).toList ∧
      PythonLiteral.readString named (PythonPackage.quote content).toList =
        some (codePoints content.toList, []) ∧
      ∀ names namespacePath (field : Field), ∃ initialiser,
        (PythonPackage.attributeOf names namespacePath
          { field with default? := some (.text content) }).initialiser? = some initialiser ∧
        (PythonPackage.quote content).toList <:+: initialiser.text.toList) ∧
    (IsOneLine (quoted content).toList ∧
      RustLiteral.readString (quoted content).toList = some (codePoints content.toList, []) ∧
      ∀ names namespacePath (field : Field), ∃ function,
        (RustModules.structField names namespacePath
          { field with default? := some (.text content) }).missing = .computed function ∧
        (quoted content).toList <:+: function.body.text.toList) := by
  have hpython : (PythonPackage.quote content).toList = PythonPackage.quoteChars content.toList :=
    String.toList_ofList
  have hrust : (quoted content).toList = quoteVisible content.toList := String.toList_ofList
  refine ⟨⟨?_, ?_, fun names namespacePath field => ?_⟩, ?_, ?_,
    fun names namespacePath field => ?_⟩
  · rw [hpython]
    exact isOneLine_of_writtenAs PythonPackage.writtenAs_escapeChar content.toList
  · rw [hpython]
    exact PythonPackage.readString_quoteChars named content.toList
  · exact PythonPackage.quote_infix_initialiser content field _
  · rw [hrust]
    exact isOneLine_of_writtenAs RustModules.writtenAs_escapeVisible content.toList
  · exact RustModules.readString_quoted content
  · exact ⟨_, rfl, RustModules.quoted_infix_defaultExpr content field⟩

end SchemaBindings.Bindings
