import SchemaBindings.Proofs.Schema.Grammar
import SchemaBindings.Proofs.Schema.Layout
import SchemaBindings.Proofs.Schema.Spans

/-!
# The tokens of schema files

A schema file is printed as a list of tokens: the namespace line if there is a namespace, and the
declarations with their doc comments, one line each. The grammar derives the file from these tokens,
wherever they stand, up to the places of declarations and fields.
-/

namespace SchemaBindings.Schema

open SchemaBindings.Text (Position trim)

/-! ## Printing -/

/-- The parts of a text between separators. -/
def partsOf (separator : Char) (text : String) : List String :=
  (text.toList.splitOn separator).map String.ofList

/-- The lines of a doc comment. -/
def linesOf (doc? : Option String) : List String :=
  doc?.elim [] (partsOf '\n')

/-- The segments of the path of a namespace. -/
def segmentsOf (path : String) : List String :=
  if path = "" then [] else partsOf '.' path

/-- Names with dots between them. -/
def pathTokens : List String → List Token
  | [] => []
  | first :: segments =>
    .name first :: segments.flatMap fun segment => [.symbol .dot, .name segment]

/-- The tokens of a type. -/
def TypeRef.tokens : TypeRef → List Token
  | .named qualifier name => pathTokens (qualifier ++ [name])
  | .list element => .symbol .leftBracket :: (element.tokens ++ [.symbol .rightBracket])

/-- The token of a literal. -/
def Literal.token : Literal → Token
  | .integer value => .integer value
  | .float value => .float value
  | .text content => .text content
  | .boolean value => .name (booleanWord value)

/-- The tokens of a doc comment. -/
def docTokens (doc? : Option String) : List Token :=
  (linesOf doc?).map .doc

/-- The tokens of a question mark or of nothing. -/
def optionalTokens (optional : Bool) : List Token :=
  if optional then [.symbol .question] else []

/-- The tokens of a default value or of nothing. -/
def defaultTokens (default? : Option Literal) : List Token :=
  default?.elim [] fun literal => [.symbol .equals, literal.token]

/-- The tokens of validators. -/
def validatorTokens (validators : List Validator) : List Token :=
  validators.flatMap fun validator => [.symbol .at, .name validator.word]

/-- The tokens of a field. -/
def Field.tokens (field : Field) : List Token :=
  docTokens field.doc? ++ .name field.name :: .symbol .colon ::
    (field.type.tokens ++ (optionalTokens field.optional ++
      (defaultTokens field.default? ++ validatorTokens field.validators)))

/-- The tokens of fields, with commas between them. -/
def fieldsTokens : List Field → List Token
  | [] => []
  | [field] => field.tokens
  | field :: next :: others => field.tokens ++ .symbol .comma :: fieldsTokens (next :: others)

/-- The tokens of a declaration. -/
def TypeDecl.tokens (declaration : TypeDecl) : List Token :=
  docTokens declaration.doc? ++ .name "type" :: .name declaration.name :: .symbol .leftBrace ::
    (fieldsTokens declaration.fields ++ [.symbol .rightBrace])

/-- The tokens of a namespace line, which the root namespace does not have. -/
def headerTokens (path : String) : List Token :=
  if path = "" then []
    else .name "namespace" :: (pathTokens (segmentsOf path) ++ [.symbol .semicolon])

/-- The tokens of a schema file. -/
def SchemaFile.tokens (file : SchemaFile) : List Token :=
  headerTokens file.namespacePath ++ file.declarations.flatMap TypeDecl.tokens

/-! ## Files that can be printed -/

/-- The segments of the name that a type is made from. -/
def TypeRef.segments : TypeRef → List String
  | .named qualifier name => qualifier ++ [name]
  | .list element => element.segments

/-- A default value that can be written: integers have 64 bits, and numbers with a point are the
value of some digits on either side of it. -/
def Literal.Printable : Literal → Prop
  | .integer value => fitsInt64 value = true
  | .float value => ∃ negative whole fraction,
    IsDigits whole ∧ IsDigits fraction ∧ value = decimalValue negative whole fraction
  | .text _ => True
  | .boolean _ => True

/-- A doc comment whose lines have no blanks at their ends. -/
def Trimmed (doc? : Option String) : Prop :=
  ∀ line ∈ linesOf doc?, trim line.toList = line.toList

/-- A field that can be printed. -/
structure Field.Printable (field : Field) : Prop where
  name : IsIdentifier field.name
  type : ∀ segment ∈ field.type.segments, IsIdentifier segment
  default : ∀ literal ∈ field.default?, literal.Printable
  validators_distinct : field.validators.Nodup
  doc : Trimmed field.doc?

/-- A declaration of a file that can be printed. -/
structure TypeDecl.Printable (file : SchemaFile) (declaration : TypeDecl) : Prop where
  name : IsIdentifier declaration.name
  not_builtIn : ∀ kind : Primitive, kind.word ≠ declaration.name
  same_namespace : declaration.namespacePath = file.namespacePath
  fields : ∀ field ∈ declaration.fields, field.Printable
  doc : Trimmed declaration.doc?

/-- A schema file that can be printed. -/
structure SchemaFile.Printable (file : SchemaFile) : Prop where
  segments : ∀ segment ∈ segmentsOf file.namespacePath, IsIdentifier segment
  declarations : ∀ declaration ∈ file.declarations, declaration.Printable file

/-! ## Parts of texts -/

/-- A text is its parts with the separator between them. -/
theorem intercalate_partsOf (separator : Char) (text : String) :
    String.intercalate (String.singleton separator) (partsOf separator text) = text := by
  rw [← String.toList_inj, String.toList_intercalate, partsOf, List.map_map,
    String.toList_singleton]
  have hparts : (String.toList ∘ String.ofList) = id := by
    funext chars
    exact String.toList_ofList
  rw [hparts, List.map_id]
  exact List.intercalate_splitOn separator

/-- A text has at least one part. -/
theorem partsOf_ne_nil (separator : Char) (text : String) : partsOf separator text ≠ [] := by
  simp [partsOf, List.splitOn_ne_nil]

/-- The lines of a doc comment make it up. -/
theorem joinDocs_linesOf (doc? : Option String) : joinDocs (linesOf doc?) = doc? := by
  cases doc? with
  | none => rfl
  | some doc =>
    have hjoin := intercalate_partsOf '\n' doc
    rw [linesOf, Option.elim_some]
    cases hparts : partsOf '\n' doc with
    | nil => exact absurd hparts (partsOf_ne_nil _ _)
    | cons line lines =>
      rw [hparts] at hjoin
      exact congrArg some hjoin

/-- The segments of the path of a namespace make it up. -/
theorem dotted_segmentsOf (path : String) : dotted (segmentsOf path) = path := by
  unfold segmentsOf
  split
  · next h => rw [h]; rfl
  · exact intercalate_partsOf '.' path

/-! ## Deriving what was printed -/

/-- Printed doc comment lines are derived. -/
theorem docs_of_values {tokens : Tokens} {lines : List String}
    (h : tokens.map Located.value = lines.map .doc) : Grammar.Docs tokens lines := by
  induction lines generalizing tokens with
  | nil =>
    obtain rfl := List.map_eq_nil_iff.mp h
    exact .nil
  | cons line lines ih =>
    obtain ⟨⟨place, value⟩, rest, rfl, rfl, hrest⟩ := List.map_eq_cons_iff.mp h
    exact .cons place line (ih hrest)

/-- Printed segments are derived. -/
theorem segments_of_values {tokens : Tokens} {segments : List String}
    (h : tokens.map Located.value = segments.flatMap fun segment => [.symbol .dot, .name segment]) :
    Grammar.Segments tokens segments := by
  induction segments generalizing tokens with
  | nil =>
    obtain rfl := List.map_eq_nil_iff.mp h
    exact .nil
  | cons segment segments ih =>
    obtain ⟨⟨dot, value⟩, behindDot, rfl, rfl, hdot⟩ := List.map_eq_cons_iff.mp h
    obtain ⟨⟨place, value⟩, rest, rfl, rfl, hrest⟩ := List.map_eq_cons_iff.mp hdot
    exact .cons dot place segment (ih hrest)

/-- A printed path is derived. -/
theorem path_of_values {tokens : Tokens} {segments : List String} (hne : segments ≠ [])
    (h : tokens.map Located.value = pathTokens segments) : Grammar.Path tokens segments := by
  cases segments with
  | nil => contradiction
  | cons first segments =>
    obtain ⟨⟨place, value⟩, rest, rfl, rfl, hrest⟩ := List.map_eq_cons_iff.mp h
    exact .mk place first (segments_of_values hrest)

/-- A printed type is derived. -/
theorem reference_of_values {tokens : Tokens} {type : TypeRef}
    (h : tokens.map Located.value = type.tokens) :
    Grammar.Reference tokens type := by
  induction type generalizing tokens with
  | named qualifier name => exact .named (path_of_values (by simp) h)
  | list element ih =>
    obtain ⟨⟨opening, value⟩, rest, rfl, rfl, hrest⟩ := List.map_eq_cons_iff.mp h
    obtain ⟨inner, last, rfl, hinner, hlast⟩ := List.map_eq_append_iff.mp hrest
    obtain ⟨⟨closing, value⟩, rfl, rfl⟩ := List.map_eq_singleton_iff.mp hlast
    exact .list opening closing (ih hinner)

/-- A printed literal is that literal. -/
theorem isLiteral_token (literal : Literal) : Grammar.IsLiteral literal.token literal := by
  cases literal with
  | integer value => exact .integer value
  | float value => exact .float value
  | text content => exact .text content
  | boolean value =>
    cases value with
    | true => exact .yes
    | false => exact .no

/-- A printed question mark or nothing is derived. -/
theorem optionality_of_values {tokens : Tokens} {optional : Bool}
    (h : tokens.map Located.value = optionalTokens optional) :
    Grammar.Optionality tokens optional := by
  cases optional with
  | false =>
    obtain rfl := List.map_eq_nil_iff.mp h
    exact .absent
  | true =>
    obtain ⟨⟨place, value⟩, rfl, rfl⟩ := List.map_eq_singleton_iff.mp h
    exact .present place

/-- A printed default value or nothing is derived. -/
theorem default_of_values {tokens : Tokens} {default? : Option Literal}
    (h : tokens.map Located.value = defaultTokens default?) : Grammar.Default tokens default? := by
  cases default? with
  | none =>
    obtain rfl := List.map_eq_nil_iff.mp h
    exact .absent
  | some literal =>
    obtain ⟨⟨equals, value⟩, rest, rfl, rfl, hrest⟩ := List.map_eq_cons_iff.mp h
    obtain ⟨⟨place, value⟩, rfl, rfl⟩ := List.map_eq_singleton_iff.mp hrest
    exact .present equals place (isLiteral_token literal)

/-- Printed validators are derived. -/
theorem validators_of_values {tokens : Tokens} {validators : List Validator}
    (h : tokens.map Located.value = validatorTokens validators) :
    Grammar.Validators tokens validators := by
  induction validators generalizing tokens with
  | nil =>
    obtain rfl := List.map_eq_nil_iff.mp h
    exact .nil
  | cons validator validators ih =>
    obtain ⟨⟨mark, value⟩, behindMark, rfl, rfl, hmark⟩ := List.map_eq_cons_iff.mp h
    obtain ⟨⟨place, value⟩, rest, rfl, rfl, hrest⟩ := List.map_eq_cons_iff.mp hmark
    exact .cons mark place validator (ih hrest)

/-- A printed field is derived, at the place of its name. -/
theorem field_of_values {tokens : Tokens} {field : Field} (hdifferent : field.validators.Nodup)
    (h : tokens.map Located.value = field.tokens) (file : String) :
    ∃ derived, Grammar.Field file tokens derived ∧ derived.withoutSpan = field.withoutSpan := by
  obtain ⟨docs, behindDocs, rfl, hdocs, hname⟩ := List.map_eq_append_iff.mp h
  obtain ⟨⟨place, value⟩, behindName, rfl, rfl, hcolon⟩ := List.map_eq_cons_iff.mp hname
  obtain ⟨⟨colon, value⟩, behindColon, rfl, rfl, hparts⟩ := List.map_eq_cons_iff.mp hcolon
  obtain ⟨type, behindType, rfl, htype, hparts⟩ := List.map_eq_append_iff.mp hparts
  obtain ⟨optional, behindOptional, rfl, hoptional, hparts⟩ := List.map_eq_append_iff.mp hparts
  obtain ⟨default, validators, rfl, hdefault, hvalidators⟩ := List.map_eq_append_iff.mp hparts
  refine ⟨_, .mk place colon field.name (docs_of_values hdocs) (reference_of_values htype)
    (optionality_of_values hoptional) (default_of_values hdefault)
    (validators_of_values hvalidators) hdifferent, ?_⟩
  rw [joinDocs_linesOf]
  rfl

/-- Printed fields, at least one, are derived in their order. -/
theorem fields_of_values {tokens : Tokens} {first : Field} {others : List Field}
    (hdifferent : ∀ field ∈ first :: others, field.validators.Nodup)
    (h : tokens.map Located.value = fieldsTokens (first :: others)) (file : String) :
    ∃ derived, Grammar.Fields file tokens derived ∧
      derived.map Field.withoutSpan = (first :: others).map Field.withoutSpan := by
  induction others generalizing tokens first with
  | nil =>
    obtain ⟨field, hfield, hsame⟩ := field_of_values (hdifferent first List.mem_cons_self) h file
    exact ⟨[field], .last hfield, congrArg (fun f => [f]) hsame⟩
  | cons next others ih =>
    obtain ⟨head, behindField, rfl, hhead, hcomma⟩ := List.map_eq_append_iff.mp h
    obtain ⟨⟨comma, value⟩, rest, rfl, rfl, hrest⟩ := List.map_eq_cons_iff.mp hcomma
    obtain ⟨field, hfield, hsame⟩ :=
      field_of_values (hdifferent first List.mem_cons_self) hhead file
    obtain ⟨fields, hfields, hothers⟩ :=
      ih (fun f hf => hdifferent f (List.mem_cons_of_mem first hf)) hrest
    refine ⟨field :: fields, .cons comma hfield hfields, ?_⟩
    rw [List.map_cons, hsame, hothers]
    rfl

/-- Printed fields are derived as a body. -/
theorem body_of_values {tokens : Tokens} {fields : List Field}
    (hdifferent : ∀ field ∈ fields, field.validators.Nodup)
    (h : tokens.map Located.value = fieldsTokens fields) (file : String) :
    ∃ derived, Grammar.Body file tokens derived ∧
      derived.map Field.withoutSpan = fields.map Field.withoutSpan := by
  cases fields with
  | nil =>
    obtain rfl := List.map_eq_nil_iff.mp h
    exact ⟨[], .empty .nil, rfl⟩
  | cons first others =>
    obtain ⟨derived, hfields, hsame⟩ := fields_of_values hdifferent h file
    exact ⟨derived, .fields hfields, hsame⟩

/-- A printed declaration is derived, at the place of the word that starts it. -/
theorem declaration_of_values {tokens : Tokens} {file : SchemaFile} {declaration : TypeDecl}
    (hprintable : declaration.Printable file) (h : tokens.map Located.value = declaration.tokens)
    (path : String) :
    ∃ derived, Grammar.Declaration path file.namespacePath tokens derived ∧
      derived.withoutSpans = declaration.withoutSpans := by
  obtain ⟨docs, behindDocs, rfl, hdocs, htype⟩ := List.map_eq_append_iff.mp h
  obtain ⟨⟨position, value⟩, behindType, rfl, rfl, hname⟩ := List.map_eq_cons_iff.mp htype
  obtain ⟨⟨place, value⟩, behindName, rfl, rfl, hopening⟩ := List.map_eq_cons_iff.mp hname
  obtain ⟨⟨opening, value⟩, behindOpening, rfl, rfl, hinner⟩ := List.map_eq_cons_iff.mp hopening
  obtain ⟨body, last, rfl, hbody, hlast⟩ := List.map_eq_append_iff.mp hinner
  obtain ⟨⟨closing, value⟩, rfl, rfl⟩ := List.map_eq_singleton_iff.mp hlast
  obtain ⟨fields, hfields, hsame⟩ :=
    body_of_values (fun field hfield => (hprintable.fields field hfield).validators_distinct)
      hbody path
  refine ⟨_, .mk position place opening closing declaration.name (docs_of_values hdocs)
    hprintable.not_builtIn hfields, ?_⟩
  rw [TypeDecl.withoutSpans, joinDocs_linesOf, hsame, ← hprintable.same_namespace]
  rfl

/-- Printed declarations are derived in their order. -/
theorem declarations_of_values {tokens : Tokens} {file : SchemaFile} {declarations : List TypeDecl}
    (hprintable : ∀ declaration ∈ declarations, declaration.Printable file)
    (h : tokens.map Located.value = declarations.flatMap TypeDecl.tokens) (path : String) :
    ∃ derived, Grammar.Declarations path file.namespacePath tokens derived ∧
      derived.map TypeDecl.withoutSpans = declarations.map TypeDecl.withoutSpans := by
  induction declarations generalizing tokens with
  | nil =>
    obtain rfl := List.map_eq_nil_iff.mp h
    exact ⟨[], .nil, rfl⟩
  | cons declaration declarations ih =>
    rw [List.flatMap_cons] at h
    obtain ⟨head, rest, rfl, hhead, hrest⟩ := List.map_eq_append_iff.mp h
    obtain ⟨first, hfirst, hsame⟩ :=
      declaration_of_values (hprintable declaration List.mem_cons_self) hhead path
    obtain ⟨others, hothers, hmap⟩ :=
      ih (fun other hother => hprintable other (List.mem_cons_of_mem declaration hother)) hrest
    refine ⟨first :: others, .cons hfirst hothers, ?_⟩
    rw [List.map_cons, hsame, hmap]
    rfl

/-- A printed namespace line is derived. -/
theorem header_of_values {tokens : Tokens} {path : String}
    (h : tokens.map Located.value = headerTokens path) :
    ∃ namespacePath?, Grammar.Header tokens namespacePath? ∧ namespacePath?.getD "" = path := by
  unfold headerTokens at h
  split at h
  · next hroot =>
    obtain rfl := List.map_eq_nil_iff.mp h
    exact ⟨none, .absent, hroot.symm⟩
  · next hroot =>
    have hne : segmentsOf path ≠ [] := by
      rw [segmentsOf, if_neg hroot]
      exact partsOf_ne_nil '.' path
    obtain ⟨⟨place, value⟩, rest, rfl, rfl, hrest⟩ := List.map_eq_cons_iff.mp h
    obtain ⟨segments, last, rfl, hsegments, hlast⟩ := List.map_eq_append_iff.mp hrest
    obtain ⟨⟨closing, value⟩, rfl, rfl⟩ := List.map_eq_singleton_iff.mp hlast
    exact ⟨_, .present place closing .nil (path_of_values hne hsegments), dotted_segmentsOf path⟩

/-- A printed schema file is derived, up to the places in it. -/
theorem file_of_values {tokens : Tokens} {file : SchemaFile}
    (hprintable : file.Printable) (h : tokens.map Located.value = file.tokens) :
    ∃ derived, Grammar.File file.path tokens derived ∧
      derived.withoutSpans = file.withoutSpans := by
  obtain ⟨header, rest, rfl, hheader, hrest⟩ := List.map_eq_append_iff.mp h
  obtain ⟨namespacePath?, hheader, hpath⟩ := header_of_values hheader
  obtain ⟨declarations, hdeclarations, hsame⟩ :=
    declarations_of_values hprintable.declarations hrest file.path
  rw [← hpath] at hdeclarations
  have hfile := Grammar.File.mk hheader hdeclarations .nil
  rw [List.append_nil] at hfile
  refine ⟨_, hfile, ?_⟩
  rw [SchemaFile.withoutSpans, hpath, hsame]
  rfl

end SchemaBindings.Schema
