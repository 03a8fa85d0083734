import SchemaBindings.Proofs.Schema.Grammar
import SchemaBindings.Proofs.Schema.Lexing

/-!
# The names in a schema are identifiers

The lexer makes name tokens of identifiers only, whatever the source is, and every name that the
grammar takes into a declaration is that of a token. So all names of a parsed file are identifiers,
its namespace is made of identifiers with dots between them, and all its places are in the file.
-/

namespace SchemaBindings.Schema

open SchemaBindings.Text (Position isBlank)

/-! ## Tokens -/

/-- What stands in front of a token is skipped, so a token does not start with a blank. -/
theorem isBlank_of_splitTrivia {inComment : Bool} {text rest : List Char} {first : Char}
    (h : (splitTrivia inComment text).2 = first :: rest) : isBlank first = false := by
  induction text generalizing inComment with
  | nil => simp [splitTrivia] at h
  | cons c text ih =>
    cases inComment with
    | true => exact ih h
    | false =>
      simp only [splitTrivia] at h
      split at h
      · exact ih h
      · next hblank =>
        split at h
        · exact ih h
        · obtain rfl : c = first := (List.cons.inj h).1
          simpa using hblank

/-- The content of a piece is what is read from a character that is not blank. -/
theorem content_of_mem_pieces {text : List Char} {piece : Piece} (h : piece ∈ (pieces text).1) :
    ∃ first rest, isBlank first = false ∧ piece.content = (readToken first rest).value := by
  fun_induction pieces text with
  | case1 => exact absurd h List.not_mem_nil
  | case2 text first rest hsplit reading others trailing hpieces ih =>
    rw [hpieces] at ih
    rcases List.mem_cons.mp h with rfl | h
    · exact ⟨first, rest, isBlank_of_splitTrivia hsplit, rfl⟩
    · exact ih h

/-- The content of an item is that of a piece. -/
theorem exists_piece_of_mem_locate {position : Position} {all : List Piece}
    {item : Located (Except LexicalFault Token)} (h : item ∈ locate position all) :
    ∃ piece ∈ all, piece.content = item.value := by
  induction all generalizing position with
  | nil => exact absurd h List.not_mem_nil
  | cons piece others ih =>
    rcases List.mem_cons.mp h with rfl | h
    · exact ⟨piece, List.mem_cons_self, rfl⟩
    · obtain ⟨other, hother, hcontent⟩ := ih h
      exact ⟨other, List.mem_cons_of_mem _ hother, hcontent⟩

/-- Every item of a source is read from a character that is not blank. -/
theorem readToken_of_mem_lex {source : List Char} {item : Located (Except LexicalFault Token)}
    (h : item ∈ (lex source).items) :
    ∃ first rest, isBlank first = false ∧ item.value = (readToken first rest).value := by
  obtain ⟨piece, hpiece, hcontent⟩ := exists_piece_of_mem_locate h
  rw [← hcontent]
  exact content_of_mem_pieces hpiece

/-- Numbers are all that is read as a number. -/
theorem number_of_readNumber {negative : Bool} {text : List Char} {token : Token}
    (h : (readNumber negative text).value = .ok token) :
    (∃ value, token = .integer value) ∨ ∃ value, token = .float value := by
  have hinteger : ∀ {digits}, integerToken negative digits = .ok token →
      ∃ value, token = .integer value := by
    intro digits h
    simp only [integerToken] at h
    split at h
    · exact ⟨_, (Except.ok.inj h).symm⟩
    · contradiction
  unfold readNumber at h
  dsimp only at h
  split at h
  · split at h
    · exact .inr ⟨_, (Except.ok.inj h).symm⟩
    · exact .inl (hinteger h)
  · exact .inl (hinteger h)

/-- A name that is read is what was taken: a letter or underscore, then letters, digits and
underscores. -/
theorem taken_of_readToken {first : Char} {rest : List Char} {word : String}
    (h : (readToken first rest).value = .ok (.name word)) :
    word.toList = first :: (readToken first rest).taken ∧ isNameStart first = true ∧
      ∀ c ∈ (readToken first rest).taken, isNamePart c = true := by
  unfold readToken at h ⊢
  split at h
  · simp at h
  · split at h
    · cases htext : (readText rest).value <;> simp [htext, Except.map] at h
    · split at h
      · simp [readDoc] at h
      · split at h
        · simpa using number_of_readNumber h
        · split at h
          · simpa using number_of_readNumber h
          · next hquote hdoc hminus hdigit =>
            split at h
            · next hstart =>
              obtain rfl : String.ofList (first :: (readWhile isNamePart rest).value) =
                word := by simpa using h
              simp only [if_neg hquote, if_neg hdoc, if_neg hminus, if_neg hdigit, if_pos hstart]
              exact ⟨String.toList_ofList, hstart, fun c hc => List.mem_takeWhile_imp hc⟩
            · simp at h

/-- A name that is read is an identifier. -/
theorem isIdentifier_of_readToken {first : Char} {rest : List Char} {word : String}
    (h : (readToken first rest).value = .ok (.name word)) : IsIdentifier word :=
  ⟨first, _, taken_of_readToken h⟩

/-- Whether the name tokens among some are identifiers. -/
def Named (tokens : Tokens) : Prop :=
  ∀ token ∈ tokens, ∀ word, token.value = .name word → IsIdentifier word

/-- The name tokens of a source are identifiers. -/
theorem named_lex (source : List Char) : Named (lex source).tokens := by
  intro token htoken word hword
  obtain ⟨item, hitem, hvalue⟩ := List.mem_filterMap.mp htoken
  split at hvalue
  · next value hok =>
    obtain rfl := Option.some.inj hvalue
    obtain ⟨first, rest, -, hread⟩ := readToken_of_mem_lex hitem
    rw [hok, show value = .name word from hword] at hread
    exact isIdentifier_of_readToken hread.symm
  · contradiction

/-- The tokens at the end of some have no other names. -/
theorem Named.suffix {ahead left : Tokens} (h : Named ahead) (hleft : left <:+ ahead) :
    Named left :=
  fun token htoken => h token (hleft.subset htoken)

/-- Tokens have the names of both their parts. -/
theorem named_append_iff (tokens others : Tokens) :
    Named (tokens ++ others) ↔ Named tokens ∧ Named others :=
  List.forall_mem_append

/-- Tokens have the name of the first and those of the others. -/
theorem named_cons_iff (token : Located Token) (others : Tokens) :
    Named (token :: others) ↔ (∀ word, token.value = .name word → IsIdentifier word) ∧
    Named others :=
  List.forall_mem_cons

/-! ## Declarations -/

/-- Whether a path is made of identifiers. The root namespace is made of none. -/
def IsNamespace (namespacePath : String) : Prop :=
  ∃ segments : List String, (∀ segment ∈ segments, IsIdentifier segment) ∧
    namespacePath = dotted segments

/-- Whether the names in a reference are identifiers. -/
inductive TypeRef.Spelled : TypeRef → Prop
  | named {qualifier : List String} {name : String}
      (hqualifier : ∀ segment ∈ qualifier, IsIdentifier segment)
      (hname : IsIdentifier name) : Spelled (.named qualifier name)
  | list {element : TypeRef} (helement : Spelled element) : Spelled (.list element)

/-- Whether a field of a file has an identifier as name and its type is written with identifiers. -/
structure Field.Spelled (file : String) (field : Field) : Prop where
  name : IsIdentifier field.name
  type : field.type.Spelled
  file_eq : field.span.file = file

/-- Whether a declaration of a file has an identifier as name, and so have its namespace and its
fields. -/
structure TypeDecl.Spelled (file : String) (declaration : TypeDecl) : Prop where
  name : IsIdentifier declaration.name
  namespacePath : IsNamespace declaration.namespacePath
  fields : ∀ field ∈ declaration.fields, field.Spelled file
  file_eq : declaration.span.file = file

namespace Grammar

/-- The segments of a dotted name are identifiers. -/
theorem Segments.spelled {tokens : Tokens} {segments : List String} (h : Segments tokens segments)
    (hnamed : Named tokens) : ∀ segment ∈ segments, IsIdentifier segment := by
  induction h with
  | nil => simp
  | cons dot place segment _ ih =>
    rw [named_cons_iff, named_cons_iff] at hnamed
    exact List.forall_mem_cons.mpr ⟨hnamed.2.1 segment rfl, ih hnamed.2.2⟩

/-- All segments of a path are identifiers. -/
theorem Path.spelled {tokens : Tokens} {segments : List String} (h : Path tokens segments)
    (hnamed : Named tokens) : ∀ segment ∈ segments, IsIdentifier segment := by
  cases h with
  | mk place first hsegments =>
    rw [named_cons_iff] at hnamed
    exact List.forall_mem_cons.mpr ⟨hnamed.1 first rfl, hsegments.spelled hnamed.2⟩

/-- References are written with identifiers. -/
theorem Reference.spelled {tokens : Tokens} {type : TypeRef} (h : Reference tokens type)
    (hnamed : Named tokens) :
    type.Spelled := by
  induction h with
  | named hpath =>
    have hall := List.forall_mem_append.mp (hpath.spelled hnamed)
    exact .named hall.1 (hall.2 _ (List.mem_singleton_self _))
  | list opening closing _ ih =>
    rw [named_cons_iff, named_append_iff] at hnamed
    exact .list (ih hnamed.2.1)

/-- Fields are written with identifiers. -/
theorem Field.spelled {file : String} {tokens : Tokens} {field : Schema.Field}
    (h : Field file tokens field) (hnamed : Named tokens) : field.Spelled file := by
  cases h with
  | mk place colon name hdocs htype hoptional hdefault hvalidators hdifferent =>
    simp only [named_append_iff, named_cons_iff] at hnamed
    obtain ⟨-, hname, -, htypeNamed, -⟩ := hnamed
    exact ⟨hname name rfl, htype.spelled htypeNamed, rfl⟩

/-- All fields that are read are written with identifiers. -/
theorem Fields.spelled {file : String} {tokens : Tokens} {fields : List Schema.Field}
    (h : Fields file tokens fields) (hnamed : Named tokens) :
    ∀ field ∈ fields, field.Spelled file := by
  induction h with
  | last hfield => simpa using hfield.spelled hnamed
  | lastComma comma hfield hdocs =>
    rw [named_append_iff] at hnamed
    simpa using hfield.spelled hnamed.1
  | cons comma hfield hothers ih =>
    rw [named_append_iff, named_cons_iff] at hnamed
    exact List.forall_mem_cons.mpr ⟨hfield.spelled hnamed.1, ih hnamed.2.2⟩

/-- Declarations are written with identifiers. -/
theorem Declaration.spelled {file namespacePath : String} {tokens : Tokens} {declaration : TypeDecl}
    (h : Declaration file namespacePath tokens declaration) (hnamespace : IsNamespace namespacePath)
    (hnamed : Named tokens) : declaration.Spelled file := by
  cases h with
  | mk position place opening closing name hdocs hword hbody =>
    simp only [named_append_iff, named_cons_iff] at hnamed
    obtain ⟨-, -, hname, -, hbodyNamed, -⟩ := hnamed
    refine ⟨hname name rfl, hnamespace, ?_, rfl⟩
    cases hbody with
    | empty hdocs => simp
    | fields hfields => exact hfields.spelled hbodyNamed

/-- All declarations that are read are written with identifiers. -/
theorem Declarations.spelled {file namespacePath : String} {tokens : Tokens}
    {declarations : List TypeDecl} (h : Declarations file namespacePath tokens declarations)
    (hnamespace : IsNamespace namespacePath) (hnamed : Named tokens) :
    ∀ declaration ∈ declarations, declaration.Spelled file := by
  induction h with
  | nil => simp
  | cons hdeclaration hothers ih =>
    rw [named_append_iff] at hnamed
    exact List.forall_mem_cons.mpr ⟨hdeclaration.spelled hnamespace hnamed.1, ih hnamed.2⟩

/-- A namespace line names a namespace. -/
theorem Header.isNamespace {tokens : Tokens} {namespacePath? : Option String}
    (h : Header tokens namespacePath?) (hnamed : Named tokens) :
    IsNamespace (namespacePath?.getD "") := by
  cases h with
  | absent => exact ⟨[], by simp, rfl⟩
  | present place closing hdocs hpath =>
    simp only [named_append_iff, named_cons_iff] at hnamed
    exact ⟨_, hpath.spelled hnamed.2.2.1, rfl⟩

/-- The declarations of a file are written with identifiers. -/
theorem File.spelled {file : String} {tokens : Tokens} {schema : SchemaFile}
    (h : File file tokens schema) (hnamed : Named tokens) :
    ∀ declaration ∈ schema.declarations, declaration.Spelled file := by
  cases h with
  | mk hheader hdeclarations htrailing =>
    rw [named_append_iff, named_append_iff] at hnamed
    exact hdeclarations.spelled (hheader.isNamespace hnamed.1) hnamed.2.1

end Grammar

end SchemaBindings.Schema
