import SchemaBindings.Project.Schemas
import SchemaBindings.Proofs.Graph.Knots
import SchemaBindings.Proofs.Schema.Faults
import SchemaBindings.Proofs.Text.SingleLine

/-!
# Which diagnostics are single lines

Each problem of a project has a line of its own in the diagnostics. What these lines quote is
written in a single line: identifiers, paths of namespaces, numbers, and texts between quotes with
their line feeds escaped. The one exception is the fault of an unknown escape, which quotes the
character behind a backslash as it stands: where this is a line feed, the report has two lines.
-/

namespace SchemaBindings

open SchemaBindings.Text (SingleLine singleLine_append_iff singleLine_intercalate
  singleLine_literal)

namespace Schema

/-! ## What is quoted -/

/-- An identifier is a single line. -/
theorem IsIdentifier.singleLine {word : String} (h : IsIdentifier word) : SingleLine word := by
  obtain ⟨first, rest, hword, hfirst, hrest⟩ := h
  have hpart : ∀ c ∈ word.toList, isNamePart c = true := by
    rw [hword]
    exact List.forall_mem_cons.mpr ⟨(isNamePart_iff first).mpr (Or.inl hfirst), hrest⟩
  exact fun hmem => absurd (hpart '\n' hmem) (by decide)

/-- Segments joined by dots are a single line if each of them is. -/
theorem singleLine_dotted {segments : List String} (h : ∀ segment ∈ segments, SingleLine segment) :
    SingleLine (dotted segments) :=
  singleLine_intercalate (singleLine_literal (by decide)) h

/-- The path of a namespace is a single line. -/
theorem IsNamespace.singleLine {namespacePath : String} (h : IsNamespace namespacePath) :
    SingleLine namespacePath := by
  obtain ⟨segments, hsegments, rfl⟩ := h
  exact singleLine_dotted fun segment hsegment => (hsegments segment hsegment).singleLine

/-- A place in a file is shown in a single line if the name of the file is one. -/
theorem Span.singleLine_shown {span : Span} (h : SingleLine span.file) : SingleLine span.shown :=
  (((h.append (singleLine_literal (by decide))).append (Text.singleLine_nat _)).append
    (singleLine_literal (by decide))).append (Text.singleLine_nat _)

/-- A type is shown in a single line. -/
theorem TypeRef.Spelled.singleLine_shown {type : TypeRef} (h : type.Spelled) :
    SingleLine type.shown := by
  induction h with
  | named hqualifier hname =>
    refine singleLine_dotted fun segment hsegment => ?_
    rcases List.mem_append.mp hsegment with hsegment | hsegment
    · exact (hqualifier segment hsegment).singleLine
    · exact List.mem_singleton.mp hsegment ▸ hname.singleLine
  | list _ ih => exact ih.between (by decide) (by decide)

/-- A truth value is written in a single line. -/
theorem singleLine_booleanWord (value : Bool) : SingleLine (booleanWord value) := by
  cases value
  · exact (singleLine_literal (by decide) : SingleLine "false")
  · exact (singleLine_literal (by decide) : SingleLine "true")

/-- A literal is shown in a single line. -/
theorem Literal.singleLine_shown (literal : Literal) : SingleLine literal.shown := by
  cases literal with
  | integer value => exact Text.singleLine_int value
  | float value => exact Text.singleLine_binary64 value
  | text content => exact Text.singleLine_quoted content
  | boolean value => exact singleLine_booleanWord value

/-- A validator is shown in a single line. -/
theorem Validator.singleLine_shown (validator : Validator) : SingleLine validator.shown := by
  cases validator <;> decide

/-- A punctuation mark is shown in a single line. -/
theorem Symbol.singleLine_shown (mark : Symbol) : SingleLine mark.shown := by
  cases mark <;> decide

/-- What the grammar allows is shown in a single line. -/
theorem Expectation.singleLine_shown (what : Expectation) : SingleLine what.shown := by
  cases what with
  | symbol mark => exact mark.singleLine_shown
  | _ => exact singleLine_literal (by decide)

/-- A token is shown in a single line if it is no name or the name is an identifier. -/
theorem singleLine_shownOrEnd {found : Option Token}
    (h : ∀ word, found = some (.name word) → IsIdentifier word) :
    SingleLine (shownOrEnd found) := by
  cases found with
  | none => exact (singleLine_literal (by decide) : SingleLine "end of file")
  | some token =>
    cases token with
    | name word => exact (h word rfl).singleLine.between (by decide) (by decide)
    | integer value => exact (Text.singleLine_int value).between (by decide) (by decide)
    | float value => exact (Text.singleLine_binary64 value).between (by decide) (by decide)
    | text content => exact (singleLine_literal (by decide) : SingleLine "string literal")
    | doc line => exact (singleLine_literal (by decide) : SingleLine "doc comment")
    | symbol mark => exact mark.singleLine_shown

/-! ## Faults -/

/-- A fault of the lexer is described in a single line unless it is a line feed behind a
backslash. -/
theorem LexicalFault.Quotes.singleLine_message {fault : LexicalFault} (h : fault.Quotes)
    (hescape : fault ≠ .unknownEscape '\n') : SingleLine fault.message := by
  have hquoted : ∀ c : Char, c ≠ '\n' → SingleLine (toString c) := by
    intro c hc
    exact singleLine_literal (by simpa using hc.symm)
  cases h with
  | @unexpectedCharacter c hblank =>
    have hc : c ≠ '\n' := by
      rintro rfl
      exact absurd hblank (by decide)
    exact (hquoted c hc).between (by decide) (by decide)
  | unterminatedText =>
    exact (singleLine_literal (by decide) : SingleLine "unterminated string literal")
  | unknownEscape c =>
    have hc : c ≠ '\n' := fun heq => hescape (heq ▸ rfl)
    exact (hquoted c hc).between (by decide) (by decide)
  | @integerTooLarge negative digits hdigits =>
    have hsigned : '\n' ∉ signed negative digits := by
      intro hmem
      have hmem' : '\n' ∈ digits := by cases negative <;> simpa [signed] using hmem
      exact absurd (hdigits '\n' hmem') (by decide)
    exact (singleLine_literal hsigned).between (by decide) (by decide)

/-- A line feed behind a backslash is not described in a single line. -/
theorem not_singleLine_unknownEscape : ¬ SingleLine (LexicalFault.unknownEscape '\n').message := by
  decide

/-- A fault of the grammar is described in a single line. -/
theorem SyntaxFault.Spelled.singleLine_message {fault : SyntaxFault} (h : fault.Spelled) :
    SingleLine fault.message := by
  cases h with
  | expected what hfound =>
    exact (what.singleLine_shown.between (by decide) (by decide)).append
      (singleLine_shownOrEnd hfound)
  | misplacedNamespace hname => exact hname.singleLine.between (by decide) (by decide)
  | builtInTypeName hname => exact hname.singleLine.between (by decide) (by decide)
  | unclosedAtEnd hname =>
    exact (hname.singleLine.between (by decide) (by decide)).append (singleLine_literal (by decide))
  | unclosedAtDeclaration hname => exact hname.singleLine.between (by decide) (by decide)
  | repeatedValidator validator => exact validator.singleLine_shown.between (by decide) (by decide)
  | unknownValidator hname =>
    refine (hname.singleLine.between (by decide) (by decide)).append ?_
    refine singleLine_intercalate (singleLine_literal (by decide)) fun text htext => ?_
    obtain ⟨validator, -, rfl⟩ := List.mem_map.mp htext
    exact validator.singleLine_shown

/-- An error is reported in a single line if its file is named in one and its fault described in
one. -/
theorem SyntaxError.singleLine_shown {error : SyntaxError} (hfile : SingleLine error.span.file)
    (hmessage : SingleLine error.fault.message) : SingleLine error.shown :=
  ((Span.singleLine_shown hfile).append (singleLine_literal (by decide))).append hmessage

end Schema

namespace Graph

open SchemaBindings.Schema (SchemaFile Span TypeDecl TypeRef)

/-! ## Errors among declarations -/

/-- Whether a declaration is written with identifiers, in a file that is named in a single line. -/
def Plain (declaration : TypeDecl) : Prop :=
  ∃ file, SingleLine file ∧ declaration.Spelled file

/-- Whether a field is written with identifiers, in a file that is named in a single line. -/
def PlainField (field : Schema.Field) : Prop :=
  ∃ file, SingleLine file ∧ field.Spelled file

/-- The fields of a plain declaration are plain. -/
theorem Plain.field {declaration : TypeDecl} (h : Plain declaration) {field : Schema.Field}
    (hfield : field ∈ declaration.fields) : PlainField field := by
  obtain ⟨file, hfile, hspelled⟩ := h
  exact ⟨file, hfile, hspelled.fields field hfield⟩

/-- The place of a plain declaration is in a file that is named in a single line. -/
theorem Plain.span {declaration : TypeDecl} (h : Plain declaration) :
    SingleLine declaration.span.file := by
  obtain ⟨file, hfile, hspelled⟩ := h
  exact hspelled.file_eq ▸ hfile

/-- The place of a plain field is in a file that is named in a single line. -/
theorem PlainField.span {field : Schema.Field} (h : PlainField field) :
    SingleLine field.span.file := by
  obtain ⟨file, hfile, hspelled⟩ := h
  exact hspelled.file_eq ▸ hfile

/-- The type of a plain field is written with identifiers. -/
theorem PlainField.spelled {field : Schema.Field} (h : PlainField field) : field.type.Spelled := by
  obtain ⟨file, -, hspelled⟩ := h
  exact hspelled.type

/-- The identity of a plain declaration is shown in a single line. -/
theorem Plain.singleLine_shown {declaration : TypeDecl} (h : Plain declaration) :
    SingleLine (declaredId declaration).shown := by
  obtain ⟨file, -, hspelled⟩ := h
  unfold TypeId.shown
  split
  · exact hspelled.name.singleLine
  · exact (hspelled.namespacePath.singleLine.append (singleLine_literal (by decide))).append
      hspelled.name.singleLine

/-- The identity of a plain field is shown in a single line if that of its owner is. -/
theorem PlainField.singleLine_shown {field : Schema.Field} (h : PlainField field) {owner : TypeId}
    (howner : SingleLine owner.shown) : SingleLine (FieldId.shown ⟨owner, field.name⟩) := by
  obtain ⟨file, -, hspelled⟩ := h
  exact (howner.append (singleLine_literal (by decide))).append hspelled.name.singleLine

/-- An error is reported in a single line if its place is in a file that is named in one and it is
described in one. -/
theorem GraphError.singleLine_shown {error : GraphError} (hfile : SingleLine error.span.file)
    (hmessage : SingleLine error.message) : SingleLine error.shown :=
  ((Span.singleLine_shown hfile).append (singleLine_literal (by decide))).append hmessage

/-- A repeated definition is described in a single line. -/
theorem singleLine_duplicateMessage {kind name : String} {first : Span} (hkind : SingleLine kind)
    (hname : SingleLine name) (hfirst : SingleLine first.file) :
    SingleLine (duplicateMessage kind name first) :=
  (((((singleLine_literal (by decide)).append hkind).append (singleLine_literal (by decide))).append
    hname).append (singleLine_literal (by decide))).append (Span.singleLine_shown hfirst) |>.append
      (singleLine_literal (by decide))

/-- Repeated fields are reported in single lines. -/
theorem singleLine_of_mem_duplicateFields {owner : TypeId} (howner : SingleLine owner.shown)
    {earlier fields : List Schema.Field} (hearlier : ∀ field ∈ earlier, PlainField field)
    (hfields : ∀ field ∈ fields, PlainField field) {error : GraphError}
    (h : error ∈ duplicateFields owner earlier fields) : SingleLine error.shown := by
  induction fields generalizing earlier with
  | nil => exact absurd h List.not_mem_nil
  | cons field rest ih =>
    rw [List.forall_mem_cons] at hfields
    rcases List.mem_append.mp h with h | h
    · split at h
      · next first hfound =>
        obtain rfl := List.mem_singleton.mp h
        have hfirst := hearlier first (List.mem_of_find?_eq_some hfound)
        exact GraphError.singleLine_shown hfields.1.span (singleLine_duplicateMessage
          (singleLine_literal (by decide)) (hfields.1.singleLine_shown howner) hfirst.span)
      · exact absurd h List.not_mem_nil
    · refine ih (List.forall_mem_append.mpr ⟨hearlier, ?_⟩) hfields.2 h
      simpa using hfields.1

/-- Repeated types are reported in single lines. -/
theorem singleLine_of_mem_duplicates {earlier declarations : List TypeDecl}
    (hearlier : ∀ declaration ∈ earlier, Plain declaration)
    (hdeclarations : ∀ declaration ∈ declarations, Plain declaration) {error : GraphError}
    (h : error ∈ duplicates earlier declarations) : SingleLine error.shown := by
  induction declarations generalizing earlier with
  | nil => exact absurd h List.not_mem_nil
  | cons declaration rest ih =>
    rw [List.forall_mem_cons] at hdeclarations
    rcases List.mem_append.mp h with h | h
    · rcases List.mem_append.mp h with h | h
      · split at h
        · next first hfound =>
          obtain rfl := List.mem_singleton.mp h
          have hfirst := hearlier first (List.mem_of_find?_eq_some hfound)
          exact GraphError.singleLine_shown hdeclarations.1.span (singleLine_duplicateMessage
            (singleLine_literal (by decide)) hdeclarations.1.singleLine_shown hfirst.span)
        · exact absurd h List.not_mem_nil
      · exact singleLine_of_mem_duplicateFields hdeclarations.1.singleLine_shown (by simp)
          (fun field hfield => hdeclarations.1.field hfield) h
    · refine ih (List.forall_mem_append.mpr ⟨hearlier, ?_⟩) hdeclarations.2 h
      simpa using hdeclarations.1

/-- What a reference means is shown in a single line, if the known types are. -/
theorem singleLine_shown_of_means {declared : TypeId → Prop}
    (hdeclared : ∀ id, declared id → SingleLine id.shown) {namespacePath : String}
    {reference : TypeRef} {type : FieldType} (h : Means declared namespacePath reference type) :
    SingleLine type.shown := by
  induction h with
  | primitive kind => cases kind <;> exact singleLine_literal (by decide)
  | own name hword hown => exact hdeclared _ hown
  | root name hword hown hroot => exact hdeclared _ hroot
  | qualified first others name hname => exact hdeclared _ hname
  | list element type _ ih => exact ih.between (by decide) (by decide)

/-- A reference that means nothing is written with identifiers if the whole is. -/
theorem spelled_of_resolve {known : List TypeId} {namespacePath : String}
    {reference missing : TypeRef} (hspelled : reference.Spelled)
    (h : resolve known namespacePath reference = .error missing) :
    missing.Spelled := by
  induction hspelled with
  | @named qualifier name hqualifier hname =>
    unfold resolve at h
    split at h
    · contradiction
    · split at h
      · contradiction
      · exact Except.error.inj h ▸ .named hqualifier hname
  | @list element _ ih =>
    unfold resolve at h
    cases helement : resolve known namespacePath element with
    | ok type => simp [helement] at h
    | error other =>
      obtain rfl : other = missing := by simpa [helement] using h
      exact ih helement

/-- A default that does not fit is described in a single line. -/
theorem singleLine_unfitDefaultMessage {value field type : String} (hvalue : SingleLine value)
    (hfield : SingleLine field) (htype : SingleLine type) :
    SingleLine (unfitDefaultMessage value field type) :=
  ((((hvalue.between (by decide) (by decide)).append hfield).append
    (singleLine_literal (by decide))).append htype).append (singleLine_literal (by decide))

/-- Fields are reported in single lines. -/
theorem singleLine_of_mem_fieldErrors {known : List TypeId}
    (hknown : ∀ id ∈ known, SingleLine id.shown) {owner : TypeId} (howner : SingleLine owner.shown)
    {field : Schema.Field} (hfield : PlainField field) {error : GraphError}
    (h : error ∈ fieldErrors known owner field) : SingleLine error.shown := by
  have hid := hfield.singleLine_shown howner
  obtain ⟨missing, hresolve, rfl⟩ | ⟨type, hresolve, hcases⟩ := cases_of_mem_fieldErrors h
  · have hmissing := (spelled_of_resolve hfield.spelled hresolve).singleLine_shown
    exact GraphError.singleLine_shown hfield.span
      (((hid.between (by decide) (by decide)).append hmissing).append
        (singleLine_literal (by decide)))
  have htype := singleLine_shown_of_means hknown (means_of_resolve_eq _ _ _ _ hresolve)
  obtain ⟨value, rfl⟩ | ⟨validator, rfl⟩ | ⟨value, rfl⟩ := hcases
  · exact GraphError.singleLine_shown hfield.span
      (singleLine_unfitDefaultMessage value.singleLine_shown hid htype)
  · exact GraphError.singleLine_shown hfield.span
      (((((validator.singleLine_shown.between (by decide) (by decide)).append hid).append
        (singleLine_literal (by decide))).append htype).append (singleLine_literal (by decide)))
  · exact GraphError.singleLine_shown hfield.span
      (singleLine_unfitDefaultMessage (Text.singleLine_int _) hid
      ((htype.append (singleLine_literal (by decide))).append
        (Schema.Validator.singleLine_shown .port)))

/-- The types of a knot are shown in single lines. -/
theorem Knot.singleLine_shown {files : List SchemaFile}
    (hplain : ∀ declaration ∈ declarationsOf files, Plain declaration) {knot : Set TypeId}
    (h : Knot files knot) {id : TypeId} (hid : id ∈ knot) : SingleLine id.shown := by
  obtain ⟨a, -, hknot⟩ := h.component
  obtain ⟨declaration, hmem, rfl⟩ := ((hknot id).mp hid).1
  exact (hplain declaration hmem).singleLine_shown

/-- Types that contain themselves are reported in single lines. -/
theorem ReportsKnot.singleLine_shown {files : List SchemaFile}
    (hplain : ∀ declaration ∈ declarationsOf files, Plain declaration) {knot : Set TypeId}
    (hknot : Knot files knot) {error : GraphError} (h : ReportsKnot files knot error) :
    SingleLine error.shown := by
  cases h with
  | intro least way span hmem hleast hinside hsimple hchain hspan =>
    obtain ⟨declaration, hdeclaration, -, field, hfield, rfl, -⟩ := hspan
    have hleastLine := hknot.singleLine_shown hplain hmem
    have hmembers : ∀ id ∈ least :: way ++ [least], SingleLine id.shown := by
      intro id hid
      simp only [List.cons_append, List.mem_cons, List.mem_append, List.not_mem_nil,
        or_false] at hid
      rcases hid with rfl | hid | rfl
      · exact hleastLine
      · exact hknot.singleLine_shown hplain (hinside id hid)
      · exact hleastLine
    have hfieldPlain := (hplain declaration (mem_of_mem_firstDeclarations hdeclaration)).field
      ((firstBy_sublist Schema.Field.name declaration.fields).subset hfield)
    refine GraphError.singleLine_shown hfieldPlain.span
      (((hleastLine.between (by decide) (by decide)).append ?_).append
        (singleLine_literal (by decide)))
    refine singleLine_intercalate (singleLine_literal (by decide)) fun text htext => ?_
    obtain ⟨id, hid, rfl⟩ := List.mem_map.mp htext
    exact hmembers id hid

/-- Whatever is wrong with declarations that are written with identifiers, in files that are named
in single lines, is reported in single lines. -/
theorem singleLine_of_build {files : List SchemaFile}
    (hplain : ∀ declaration ∈ declarationsOf files, Plain declaration) {errors : List GraphError}
    (h : build files = .error errors) {error : GraphError} (herror : error ∈ errors) :
    SingleLine error.shown := by
  have herrors := buildErrors_eq files
  rw [buildErrors, h] at herrors
  dsimp only at herrors
  rw [herrors] at herror
  rcases List.mem_append.mp herror with herror | herror
  · rcases List.mem_append.mp herror with herror | herror
    · exact singleLine_of_mem_duplicates (by simp) hplain herror
    · obtain ⟨declaration, hdeclaration, herror⟩ := List.mem_flatMap.mp herror
      obtain ⟨field, hfield, herror⟩ := List.mem_flatMap.mp herror
      have hdeclarationPlain := hplain declaration (mem_of_mem_firstDeclarations hdeclaration)
      have hknown : ∀ id ∈ knownIds files, SingleLine id.shown := by
        intro id hid
        obtain ⟨other, hother, rfl⟩ := List.mem_map.mp hid
        exact (hplain other (mem_of_mem_firstDeclarations hother)).singleLine_shown
      exact singleLine_of_mem_fieldErrors hknown hdeclarationPlain.singleLine_shown
        (hdeclarationPlain.field
          ((firstBy_sublist Schema.Field.name declaration.fields).subset hfield)) herror
  · obtain ⟨knots, hknots, -, hreports⟩ := containmentErrors_report files
    obtain ⟨knot, hknot, hreport⟩ := exists_of_forall₂ hreports herror
    exact hreport.singleLine_shown hplain ((hknots knot).mp hknot)

end Graph

namespace Project

open SchemaBindings.Schema (Located LexicalFault SyntaxError)

/-! ## Errors of sources -/

/-- The errors of all sources. -/
def sourceErrors (sources : List (String × String)) : List SyntaxError :=
  sources.flatMap fun source =>
    match Schema.parse source.1 source.2 with
    | .error errors => errors
    | .ok _ => []

/-- Parsing fails with the errors of all sources, if there are any. -/
theorem parseAll_eq (sources : List (String × String)) :
    parseAll sources =
      if (sourceErrors sources).isEmpty then
        .ok ((sources.map fun source => Schema.parse source.1 source.2).filterMap Except.toOption)
      else .error (.badSyntax (sourceErrors sources)) := by
  rw [parseAll, List.flatMap_map]
  rfl

/-- An error of some sources is one of those that parsing a source fails with. -/
theorem mem_sourceErrors_iff (sources : List (String × String)) (error : SyntaxError) :
    error ∈ sourceErrors sources ↔
      ∃ source ∈ sources, ∃ errors, Schema.parse source.1 source.2 = .error errors ∧
        error ∈ errors := by
  rw [sourceErrors, List.mem_flatMap]
  refine exists_congr fun source => and_congr_right fun _ => ?_
  cases Schema.parse source.1 source.2 with
  | error errors => simp
  | ok file => simp

/-- Where all sources are parsed, there is one file for each. -/
theorem files_of_parseAll {sources : List (String × String)} {files : List Schema.SchemaFile}
    (h : parseAll sources = .ok files) :
    List.Forall₂ (fun source file => Schema.parse source.1 source.2 = .ok file) sources files := by
  rw [parseAll_eq] at h
  split at h
  · next hnone =>
    obtain rfl := Except.ok.inj h
    rw [List.filterMap_map]
    refine Graph.forall₂_filterMap fun source hsource => ?_
    cases hparse : Schema.parse source.1 source.2 with
    | ok file => exact ⟨file, by rw [Function.comp_apply, hparse]; rfl, rfl⟩
    | error errors =>
      obtain ⟨error, herror⟩ := List.exists_mem_of_ne_nil errors (Schema.ne_nil_of_parse hparse)
      have hmem :=
        (mem_sourceErrors_iff sources error).mpr ⟨source, hsource, errors, hparse, herror⟩
      rw [List.isEmpty_iff.mp hnone] at hmem
      contradiction
  · contradiction

/-- A graph of sources is built of files, one for each source. -/
theorem files_of_graphOfSources {sources : List (String × String)} {graph : TypeGraph}
    (h : graphOfSources sources = .ok graph) : ∃ files, Graph.build files = .ok graph ∧
      List.Forall₂ (fun source file => Schema.parse source.1 source.2 = .ok file)
        sources files := by
  rw [graphOfSources] at h
  cases hparsed : parseAll sources with
  | error error => simp [hparsed, bind, Except.bind] at h
  | ok files =>
    refine ⟨files, ?_, files_of_parseAll hparsed⟩
    rw [hparsed] at h
    dsimp only [bind, Except.bind] at h
    split at h
    · next other hbuild =>
      obtain rfl := Except.ok.inj h
      exact hbuild
    · contradiction

/-- The graph of a single source is built of its file. -/
theorem graphOfSources_singleton {path source : String} {file : Schema.SchemaFile}
    {graph : TypeGraph} (hparse : Schema.parse path source = .ok file)
    (hbuild : Graph.build [file] = .ok graph) :
    graphOfSources [(path, source)] = .ok graph := by
  have hparsed : parseAll [(path, source)] = .ok [file] := by
    simp [parseAll, hparse, Except.toOption]
  rw [graphOfSources, hparsed]
  dsimp only [bind, Except.bind]
  rw [hbuild]
  rfl

/-- What making a graph of sources fails with: the errors of the sources, or those of their
declarations. -/
theorem graphOfSources_error_cases {sources : List (String × String)} {error : ProjectError}
    (h : graphOfSources sources = .error error) :
    (error = .badSyntax (sourceErrors sources) ∧ sourceErrors sources ≠ []) ∨
      ∃ files errors, error = .badSchema errors ∧ sourceErrors sources = [] ∧
        Graph.build files = .error errors ∧
        ∀ file ∈ files, ∃ source ∈ sources, Schema.parse source.1 source.2 = .ok file := by
  rw [graphOfSources] at h
  cases hempty : (sourceErrors sources).isEmpty with
  | false =>
    rw [parseAll_eq, hempty] at h
    have hne : sourceErrors sources ≠ [] := by simpa using hempty
    exact Or.inl ⟨(Except.error.inj h).symm, hne⟩
  | true =>
    have hparsed := parseAll_eq sources
    rw [hempty, if_pos rfl] at hparsed
    refine Or.inr ⟨(sources.map fun source => Schema.parse source.1 source.2).filterMap
      Except.toOption, ?_⟩
    rw [hparsed] at h
    dsimp only [bind, Except.bind] at h
    split at h
    · contradiction
    · next errors hbuild =>
      exact ⟨errors, (Except.error.inj h).symm, by simpa using hempty, hbuild, fun file hfile =>
        Graph.exists_of_forall₂ (files_of_parseAll hparsed) hfile⟩

/-- The report of a fault of the lexer in a named file. -/
def lexicalReport (path : String) (fault : Located LexicalFault) : String :=
  SyntaxError.shown ⟨⟨path, fault.position⟩, .lexical fault.value⟩

/-- An error of sources that are named in single lines is reported in one, or it is a line feed
behind a backslash. -/
theorem singleLine_or_escape {sources : List (String × String)}
    (hpaths : ∀ source ∈ sources, SingleLine source.1) {error : SyntaxError}
    (h : error ∈ sourceErrors sources) :
    SingleLine error.shown ∨ ∃ source ∈ sources, ∃ fault ∈ (Schema.lex source.2.toList).faults,
      fault.value = .unknownEscape '\n' ∧ error.shown = lexicalReport source.1 fault := by
  obtain ⟨source, hsource, errors, hparse, herror⟩ := (mem_sourceErrors_iff sources error).mp h
  have hpath := hpaths source hsource
  rcases (Schema.mem_iff_of_parse hparse error).mp herror with ⟨fault, hfault, rfl⟩ |
    ⟨fault, hfault, rfl⟩
  · by_cases hescape : fault.value = .unknownEscape '\n'
    · exact Or.inr ⟨source, hsource, fault, hfault, hescape, rfl⟩
    · exact Or.inl (Schema.SyntaxError.singleLine_shown hpath
        ((Schema.quotes_of_mem_faults hfault).singleLine_message hescape))
  · have hspelled := Schema.faultsSpelled_readContents (Schema.named_lex source.2.toList) source.1
      (Schema.lex source.2.toList).finish none false fault hfault
    exact Or.inl (Schema.SyntaxError.singleLine_shown hpath hspelled.singleLine_message)

/-- A fault of the lexer is among the errors of the sources. -/
theorem mem_sourceErrors_of_fault {sources : List (String × String)} {source : String × String}
    (hsource : source ∈ sources) {fault : Located LexicalFault}
    (hfault : fault ∈ (Schema.lex source.2.toList).faults) :
    (⟨⟨source.1, fault.position⟩, .lexical fault.value⟩ : SyntaxError) ∈ sourceErrors sources := by
  cases hparse : Schema.parse source.1 source.2 with
  | ok file =>
    rw [(Schema.spelled_of_parse hparse).1] at hfault
    exact absurd hfault List.not_mem_nil
  | error errors =>
    exact (mem_sourceErrors_iff sources _).mpr ⟨source, hsource, errors, hparse,
      (Schema.mem_iff_of_parse hparse _).mpr (Or.inl ⟨fault, hfault, rfl⟩)⟩

/-- The declarations of parsed files are written with identifiers, in files that are named in single
lines if the sources are. -/
theorem plain_of_parse {sources : List (String × String)}
    (hpaths : ∀ source ∈ sources, SingleLine source.1) {files : List Schema.SchemaFile}
    (hfiles : ∀ file ∈ files, ∃ source ∈ sources, Schema.parse source.1 source.2 = .ok file) :
    ∀ declaration ∈ Graph.declarationsOf files, Graph.Plain declaration := by
  intro declaration hdeclaration
  obtain ⟨file, hfile, hmem⟩ := List.mem_flatMap.mp hdeclaration
  obtain ⟨source, hsource, hparse⟩ := hfiles file hfile
  exact ⟨source.1, hpaths source hsource, (Schema.spelled_of_parse hparse).2 declaration hmem⟩

/-- Whatever the sources are, if they are named in single lines: the lines of the diagnostics that
are no single lines are exactly the reports of line feeds behind a backslash in text literals. -/
theorem diagnostics_not_singleLine_iff (sources : List (String × String))
    (hpaths : ∀ source ∈ sources, SingleLine source.1) (error : ProjectError)
    (h : graphOfSources sources = .error error) (line : String) :
    (line ∈ error.diagnostics ∧ ¬ SingleLine line) ↔
      ∃ source ∈ sources, ∃ fault ∈ (Schema.lex source.2.toList).faults,
        fault.value = .unknownEscape '\n' ∧ line = lexicalReport source.1 fault := by
  have hbroken : ∀ path (fault : Located LexicalFault), fault.value = .unknownEscape '\n' →
      ¬ SingleLine (lexicalReport path fault) := by
    intro path fault hescape hline
    rw [lexicalReport, SyntaxError.shown, hescape, singleLine_append_iff] at hline
    exact Schema.not_singleLine_unknownEscape hline.2
  rcases graphOfSources_error_cases h with ⟨rfl, -⟩ | ⟨files, errors, rfl, hnone, hbuild, hfiles⟩
  · constructor
    · intro hline
      obtain ⟨hmem, hnot⟩ := hline
      obtain ⟨cause, hcause, rfl⟩ := List.mem_map.mp hmem
      exact (singleLine_or_escape hpaths hcause).resolve_left hnot
    · intro hescape
      obtain ⟨source, hsource, fault, hfault, hvalue, rfl⟩ := hescape
      exact ⟨List.mem_map_of_mem (mem_sourceErrors_of_fault hsource hfault),
        hbroken source.1 fault hvalue⟩
  · constructor
    · intro hline
      obtain ⟨hmem, hnot⟩ := hline
      obtain ⟨cause, hcause, rfl⟩ := List.mem_map.mp hmem
      exact absurd (Graph.singleLine_of_build (plain_of_parse hpaths hfiles) hbuild hcause) hnot
    · intro hescape
      obtain ⟨source, hsource, fault, hfault, -, -⟩ := hescape
      have hmem := mem_sourceErrors_of_fault hsource hfault
      rw [hnone] at hmem
      exact absurd hmem List.not_mem_nil

/-- A source with a text literal in which a line feed stands behind a backslash. -/
def brokenText : String :=
  "type A \x7b s: string = \"a\\\n, b: int \x7d"

/-- A file with that source. -/
def brokenEscape : List (String × String) :=
  [("a.ath", brokenText)]

/-- The line feed is among the errors. -/
theorem mem_sourceErrors_brokenEscape :
    (⟨⟨"a.ath", ⟨1, 22⟩⟩, .lexical (.unknownEscape '\n')⟩ : SyntaxError) ∈
      sourceErrors brokenEscape := by
  have hfaults : (Schema.lex brokenText.toList).faults = [⟨⟨1, 22⟩, .unknownEscape '\n'⟩] := by cbv
  have hsource : ("a.ath", brokenText) ∈ brokenEscape := List.mem_singleton_self _
  have hfault : (⟨⟨1, 22⟩, .unknownEscape '\n'⟩ : Located LexicalFault) ∈
      (Schema.lex brokenText.toList).faults := by
    rw [hfaults]
    exact List.mem_singleton_self _
  exact mem_sourceErrors_of_fault hsource hfault

/-- Sources with a line feed behind a backslash make no graph. -/
theorem graphOfSources_brokenEscape : graphOfSources brokenEscape =
    .error (.badSyntax (sourceErrors brokenEscape)) := by
  have hsome : (sourceErrors brokenEscape).isEmpty = false := by
    simpa using List.ne_nil_of_mem mem_sourceErrors_brokenEscape
  rw [graphOfSources, parseAll_eq, hsome]
  rfl

/-- The report of the line feed is one of the diagnostics and no single line, although the file is
named in one. -/
theorem exists_diagnostic_of_two_lines : ∃ error, graphOfSources brokenEscape = .error error ∧
    (∀ source ∈ brokenEscape, SingleLine source.1) ∧
      "a.ath:1:22: unknown escape \x60\\\n\x60" ∈ error.diagnostics ∧
        ¬ SingleLine "a.ath:1:22: unknown escape \x60\\\n\x60" :=
  ⟨_, graphOfSources_brokenEscape, by decide,
    List.mem_map.mpr ⟨_, mem_sourceErrors_brokenEscape, by decide +kernel⟩, by decide +kernel⟩

/-- Apart from it, the diagnostics are single lines. -/
theorem diagnostics_brokenEscape : ∃ error, graphOfSources brokenEscape = .error error ∧
    ∀ line, (line ∈ error.diagnostics ∧ ¬ SingleLine line) ↔
      ∃ source ∈ brokenEscape, ∃ fault ∈ (Schema.lex source.2.toList).faults,
        fault.value = .unknownEscape '\n' ∧ line = lexicalReport source.1 fault :=
  ⟨_, graphOfSources_brokenEscape, diagnostics_not_singleLine_iff brokenEscape (by decide) _
    graphOfSources_brokenEscape⟩

end Project

end SchemaBindings
