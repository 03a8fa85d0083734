import SchemaBindings.Proofs.Schema.Faults
import SchemaBindings.Proofs.Schema.Printing
import SchemaBindings.Proofs.Text.Lines
import SchemaBindings.Proofs.Text.Split

/-!
# The lines of doc comments

The lexer makes doc tokens of single lines without the blanks at their ends, whatever the source is,
and what the grammar takes as the doc comment of a declaration or of a field are such lines. So the
doc comments of a parsed file can be taken apart into lines again, each of which ends as it did in
the source.
-/

namespace SchemaBindings.Schema

open SchemaBindings.Text (SingleLine trim)

/-! ## Tokens -/

/-- Whether the doc tokens among some are single lines without blanks at their ends. -/
def Documented (tokens : Tokens) : Prop :=
  ∀ token ∈ tokens, ∀ line, token.value = .doc line → SingleLine line ∧
    trim line.toList = line.toList

/-- A doc comment that is read is a single line without blanks at its ends. -/
theorem trimmed_of_readToken {first : Char} {rest : List Char} {line : String}
    (h : (readToken first rest).value = .ok (.doc line)) :
    SingleLine line ∧ trim line.toList = line.toList := by
  unfold readToken at h
  split at h
  · simp at h
  · split at h
    · cases htext : (readText rest).value <;> simp [htext, Except.map] at h
    · split at h
      · simp only [readDoc, Except.ok.injEq, Token.doc.injEq] at h
        obtain rfl := h
        rw [Text.singleLine_ofList_iff, String.toList_ofList]
        refine ⟨fun hfeed => ?_, Text.trim_trim _⟩
        simpa using List.mem_takeWhile_imp (List.mem_of_mem_drop (Text.mem_of_mem_trim hfeed))
      · split at h
        · rcases number_of_readNumber h with ⟨_, hvalue⟩ | ⟨_, hvalue⟩ <;> simp at hvalue
        · split at h
          · rcases number_of_readNumber h with ⟨_, hvalue⟩ | ⟨_, hvalue⟩ <;> simp at hvalue
          · split at h <;> simp at h

/-- The doc tokens of a source are such lines. -/
theorem documented_lex (source : List Char) : Documented (lex source).tokens := by
  intro token htoken line hline
  obtain ⟨item, hitem, hvalue⟩ := List.mem_filterMap.mp htoken
  split at hvalue
  · next value hok =>
    obtain rfl := Option.some.inj hvalue
    obtain ⟨first, rest, -, hread⟩ := readToken_of_mem_lex hitem
    rw [hok, show value = .doc line from hline] at hread
    exact trimmed_of_readToken hread.symm
  · contradiction

/-- Tokens have the doc tokens of both their parts. -/
theorem documented_append_iff (tokens others : Tokens) :
    Documented (tokens ++ others) ↔ Documented tokens ∧ Documented others :=
  List.forall_mem_append

/-- Tokens have the doc token of the first and those of the others. -/
theorem documented_cons_iff (token : Located Token) (others : Tokens) :
    Documented (token :: others) ↔
      (∀ line, token.value = .doc line → SingleLine line ∧ trim line.toList = line.toList) ∧
        Documented others :=
  List.forall_mem_cons

/-! ## Declarations -/

/-- Single lines that are joined to a doc comment are its lines. -/
theorem linesOf_joinDocs {lines : List String} (h : ∀ line ∈ lines, SingleLine line) :
    linesOf (joinDocs lines) = lines := by
  cases lines with
  | nil => rfl
  | cons line others =>
    have hfree : ∀ chars ∈ (line :: others).map String.toList, '\n' ∉ chars := by
      simpa [SingleLine] using h
    have hid : String.ofList ∘ String.toList = id := funext fun _ => String.ofList_toList
    rw [joinDocs, linesOf, Option.elim_some, partsOf, String.toList_intercalate]
    · exact (congrArg (List.map String.ofList)
        (List.splitOn_intercalate '\n' hfree (List.cons_ne_nil line.toList _))).trans (by
          rw [List.map_map, hid, List.map_id])
    · exact List.cons_ne_nil line others

namespace Grammar

/-- Doc comment lines are joined to a trimmed doc comment. -/
theorem Docs.trimmed {tokens : Tokens} {lines : List String} (h : Docs tokens lines)
    (hdocumented : Documented tokens) :
    Trimmed (joinDocs lines) := by
  have hlines : ∀ line ∈ lines, SingleLine line ∧ trim line.toList = line.toList := by
    induction h with
    | nil => simp
    | cons place line hdocs ih =>
      rw [documented_cons_iff] at hdocumented
      exact List.forall_mem_cons.mpr ⟨hdocumented.1 line rfl, ih hdocumented.2⟩
  rw [Trimmed, linesOf_joinDocs fun line hline => (hlines line hline).1]
  exact fun line hline => (hlines line hline).2

/-- Fields have trimmed doc comments. -/
theorem Field.trimmed {file : String} {tokens : Tokens} {field : Schema.Field}
    (h : Field file tokens field) (hdocumented : Documented tokens) : Trimmed field.doc? := by
  cases h with
  | mk place colon name hdocs htype hoptional hdefault hvalidators hdifferent =>
    rw [documented_append_iff] at hdocumented
    exact hdocs.trimmed hdocumented.1

/-- All fields that are read have trimmed doc comments. -/
theorem Fields.trimmed {file : String} {tokens : Tokens} {fields : List Schema.Field}
    (h : Fields file tokens fields) (hdocumented : Documented tokens) :
    ∀ field ∈ fields, Trimmed field.doc? := by
  induction h with
  | last hfield => simpa using hfield.trimmed hdocumented
  | lastComma comma hfield hdocs =>
    rw [documented_append_iff] at hdocumented
    simpa using hfield.trimmed hdocumented.1
  | cons comma hfield hothers ih =>
    rw [documented_append_iff, documented_cons_iff] at hdocumented
    exact List.forall_mem_cons.mpr ⟨hfield.trimmed hdocumented.1, ih hdocumented.2.2⟩

/-- Declarations and their fields have trimmed doc comments. -/
theorem Declaration.trimmed {file namespacePath : String} {tokens : Tokens} {declaration : TypeDecl}
    (h : Declaration file namespacePath tokens declaration) (hdocumented : Documented tokens) :
    Trimmed declaration.doc? ∧ ∀ field ∈ declaration.fields, Trimmed field.doc? := by
  cases h with
  | mk position place opening closing name hdocs hword hbody =>
    simp only [documented_append_iff, documented_cons_iff] at hdocumented
    obtain ⟨hdocsDocumented, -, -, -, hbodyDocumented, -⟩ := hdocumented
    refine ⟨hdocs.trimmed hdocsDocumented, ?_⟩
    cases hbody with
    | empty hdocs => simp
    | fields hfields => exact hfields.trimmed hbodyDocumented

/-- All declarations that are read, and their fields, have trimmed doc comments. -/
theorem Declarations.trimmed {file namespacePath : String} {tokens : Tokens}
    {declarations : List TypeDecl} (h : Declarations file namespacePath tokens declarations)
    (hdocumented : Documented tokens) :
    ∀ declaration ∈ declarations,
      Trimmed declaration.doc? ∧ ∀ field ∈ declaration.fields, Trimmed field.doc? := by
  induction h with
  | nil => simp
  | cons hdeclaration hothers ih =>
    rw [documented_append_iff] at hdocumented
    exact List.forall_mem_cons.mpr ⟨hdeclaration.trimmed hdocumented.1, ih hdocumented.2⟩

/-- All declarations of a file, and their fields, have trimmed doc comments. -/
theorem File.trimmed {file : String} {tokens : Tokens} {schema : SchemaFile}
    (h : File file tokens schema) (hdocumented : Documented tokens) :
    ∀ declaration ∈ schema.declarations,
      Trimmed declaration.doc? ∧ ∀ field ∈ declaration.fields, Trimmed field.doc? := by
  cases h with
  | mk hheader hdeclarations htrailing =>
    rw [documented_append_iff, documented_append_iff] at hdocumented
    exact hdeclarations.trimmed hdocumented.2.1

end Grammar

/-- The doc comments of a parsed file are trimmed. -/
theorem trimmed_of_parse {path source : String} {schema : SchemaFile}
    (h : parse path source = .ok schema) :
    ∀ declaration ∈ schema.declarations,
      Trimmed declaration.doc? ∧ ∀ field ∈ declaration.fields, Trimmed field.doc? :=
  (derived_of_parse h).2.trimmed (documented_lex source.toList)

end SchemaBindings.Schema
