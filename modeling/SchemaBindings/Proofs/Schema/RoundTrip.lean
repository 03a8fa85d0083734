import SchemaBindings.Proofs.Schema.Lexing
import SchemaBindings.Proofs.Schema.Parsing
import SchemaBindings.Proofs.Schema.Printing
import SchemaBindings.Proofs.Text.Split

/-!
# Parsing undoes printing

The tokens of a printable schema file can be written as a text, and every such text is parsed to the
same file up to places: the lexer gives back the tokens, and the grammar derives the file from them.
-/

namespace SchemaBindings.Schema

/-! ## Tokens that can be spelled -/

/-- Whether there is a way to write a token. -/
def Spellable (token : Token) : Prop :=
  ∃ text, Spells token text

/-- Punctuation marks can be written. -/
theorem spellable_symbol (mark : Symbol) : Spellable (.symbol mark) :=
  ⟨_, .symbol mark⟩

/-- Identifiers can be written. -/
theorem IsIdentifier.spellable {word : String} (h : IsIdentifier word) : Spellable (.name word) :=
  ⟨_, .name h⟩

/-- The words of validators are identifiers. -/
theorem isIdentifier_word (validator : Validator) : IsIdentifier validator.word := by
  cases validator with
  | number => decide
  | string => decide
  | url => decide
  | port => decide

/-- Integers of 64 bits can be written. -/
theorem spellable_integer {value : Int} (h : fitsInt64 value = true) :
    Spellable (.integer value) := by
  have hvalue := integerOf_toDigits value
  have hspells := Spells.integer (value < 0) (isDigits_toDigits value.natAbs) (by rwa [hvalue])
  rw [hvalue] at hspells
  exact ⟨_, hspells⟩

/-- Printable literals can be written. -/
theorem Literal.Printable.spellable {literal : Literal} (h : literal.Printable) :
    Spellable literal.token := by
  cases literal with
  | integer value => exact spellable_integer h
  | float value =>
    obtain ⟨negative, whole, fraction, hwhole, hfraction, rfl⟩ := h
    exact ⟨_, .float negative hwhole hfraction⟩
  | text content => exact ⟨_, .text content⟩
  | boolean value =>
    cases value with
    | true =>
      have hword : IsIdentifier "true" := by decide
      exact hword.spellable
    | false =>
      have hword : IsIdentifier "false" := by decide
      exact hword.spellable

/-- Lines of doc comments that have no blanks at their ends can be written. -/
theorem Trimmed.spellable {doc? : Option String} (h : Trimmed doc?) :
    ∀ token ∈ docTokens doc?, Spellable token := by
  intro token htoken
  obtain ⟨line, hline, rfl⟩ := List.mem_map.mp htoken
  refine ⟨_, .doc ?_ (h line hline)⟩
  cases doc? with
  | none => simp [linesOf] at hline
  | some doc =>
    obtain ⟨part, hpart, rfl⟩ := List.mem_map.mp hline
    rw [String.toList_ofList]
    exact Text.not_mem_of_mem_splitOn hpart

/-- Paths of identifiers can be written. -/
theorem spellable_pathTokens {segments : List String}
    (h : ∀ segment ∈ segments, IsIdentifier segment) :
    ∀ token ∈ pathTokens segments, Spellable token := by
  cases segments with
  | nil => simp [pathTokens]
  | cons first segments =>
    obtain ⟨hfirst, hsegments⟩ := List.forall_mem_cons.mp h
    simp only [pathTokens, List.forall_mem_cons, List.mem_flatMap, forall_exists_index, and_imp]
    refine ⟨hfirst.spellable, fun token segment hsegment htoken => ?_⟩
    rcases List.mem_pair.mp htoken with rfl | rfl
    · exact spellable_symbol .dot
    · exact (hsegments segment hsegment).spellable

/-- Types made from identifiers can be written. -/
theorem spellable_typeTokens {type : TypeRef}
    (h : ∀ segment ∈ type.segments, IsIdentifier segment) :
    ∀ token ∈ type.tokens, Spellable token := by
  induction type with
  | named qualifier name => exact spellable_pathTokens h
  | list element ih =>
    simp only [TypeRef.tokens, List.forall_mem_cons, List.forall_mem_append]
    exact ⟨spellable_symbol .leftBracket, ih h, spellable_symbol .rightBracket,
      List.forall_mem_nil _⟩

/-- Printable fields can be written. -/
theorem Field.Printable.spellable {field : Field} (h : field.Printable) :
    ∀ token ∈ field.tokens, Spellable token := by
  simp only [Field.tokens, List.forall_mem_append, List.forall_mem_cons]
  refine ⟨h.doc.spellable, h.name.spellable, spellable_symbol .colon,
    spellable_typeTokens h.type, ?_, ?_, ?_⟩
  · cases field.optional with
    | true => simpa [optionalTokens] using spellable_symbol .question
    | false => simp [optionalTokens]
  · have hdefault := h.default
    cases hvalue : field.default? with
    | none => simp [defaultTokens]
    | some literal =>
      have hliteral := (hdefault literal hvalue).spellable
      simpa [defaultTokens] using ⟨spellable_symbol .equals, hliteral⟩
  · intro token htoken
    obtain ⟨validator, _, htoken⟩ := List.mem_flatMap.mp htoken
    rcases List.mem_pair.mp htoken with rfl | rfl
    · exact spellable_symbol .at
    · exact (isIdentifier_word validator).spellable

/-- Printable fields with commas between them can be written. -/
theorem spellable_fieldsTokens {fields : List Field} (h : ∀ field ∈ fields, field.Printable) :
    ∀ token ∈ fieldsTokens fields, Spellable token := by
  induction fields with
  | nil => simp [fieldsTokens]
  | cons field others ih =>
    obtain ⟨hfield, hothers⟩ := List.forall_mem_cons.mp h
    cases others with
    | nil => exact hfield.spellable
    | cons next others =>
      simp only [fieldsTokens, List.forall_mem_append, List.forall_mem_cons]
      exact ⟨hfield.spellable, spellable_symbol .comma, ih hothers⟩

/-- Printable declarations can be written. -/
theorem TypeDecl.Printable.spellable {file : SchemaFile} {declaration : TypeDecl}
    (h : declaration.Printable file) : ∀ token ∈ declaration.tokens, Spellable token := by
  have htype : IsIdentifier "type" := by decide
  simp only [TypeDecl.tokens, List.forall_mem_append, List.forall_mem_cons]
  exact ⟨h.doc.spellable, htype.spellable, h.name.spellable, spellable_symbol .leftBrace,
    spellable_fieldsTokens h.fields, spellable_symbol .rightBrace, List.forall_mem_nil _⟩

/-- All tokens of a printable schema file can be written. -/
theorem SchemaFile.Printable.spellable {file : SchemaFile} (h : file.Printable) :
    ∀ token ∈ file.tokens, Spellable token := by
  have hword : IsIdentifier "namespace" := by decide
  rw [SchemaFile.tokens, List.forall_mem_append]
  constructor
  · unfold headerTokens
    split
    · simp
    · simp only [List.forall_mem_append, List.forall_mem_cons]
      exact ⟨hword.spellable, spellable_pathTokens h.segments, spellable_symbol .semicolon,
        List.forall_mem_nil _⟩
  · intro token htoken
    obtain ⟨declaration, hdeclaration, htoken⟩ := List.mem_flatMap.mp htoken
    exact (h.declarations declaration hdeclaration).spellable token htoken

/-- A line feed continues no token. -/
theorem ends_lineFeed (token : Token) (rest : List Char) : Ends token ('\n' :: rest) := by
  cases token with
  | name word => simp [Ends, Avoids, isNamePart]
  | integer value => simp [Ends, Avoids]
  | float value => simp [Ends, Avoids]
  | text content => trivial
  | doc line => simp [Ends]
  | symbol mark => trivial

/-- Tokens that can be written one by one can be written together, each on a line of its own. -/
theorem exists_layout {tokens : List Token} (h : ∀ token ∈ tokens, Spellable token) :
    ∃ text, Layout tokens ('\n' :: text) := by
  have hfeed : Trivia ['\n'] := .blank rfl .nil
  induction tokens with
  | nil => exact ⟨[], .nil (.closed hfeed)⟩
  | cons token tokens ih =>
    obtain ⟨⟨text, hspells⟩, htokens⟩ := List.forall_mem_cons.mp h
    obtain ⟨behind, hbehind⟩ := ih htokens
    exact ⟨_, .cons hfeed hspells (ends_lineFeed token behind) hbehind⟩

/-! ## The round trip -/

/-- A printable schema file can be written as a text, and every text that it can be written as,
whatever blanks and plain comments stand between its tokens, is parsed to the same file up to
places. -/
theorem parse_of_layout (file : SchemaFile) (hprintable : file.Printable) :
    (∃ text, Layout file.tokens text) ∧
      ∀ text, Layout file.tokens text →
        ∃ parsed, parse file.path (String.ofList text) = .ok parsed ∧
          parsed.withoutSpans = file.withoutSpans := by
  constructor
  · obtain ⟨text, hlayout⟩ := exists_layout hprintable.spellable
    exact ⟨_, hlayout⟩
  · intro text hlayout
    obtain ⟨hfaults, htokens⟩ := hlayout.lex
    obtain ⟨derived, hderived, hsame⟩ := file_of_values hprintable htokens
    refine ⟨derived, parse_of_derived ?_ ?_, hsame⟩
    · rwa [String.toList_ofList]
    · rwa [String.toList_ofList]

/-- A file with a namespace, a doc comment, a default value and a validator. -/
def sampleFile : SchemaFile where
  path := "a.schema"
  namespacePath := "n"
  declarations := [{
    name := "T"
    namespacePath := "n"
    fields := [{
      name := "x"
      type := .named [] "float"
      optional := true
      default? := some (.float (decimalValue true ['1'] ['5']))
      validators := [.number]
      doc? := some "Doc"
      span := .nowhere }]
    doc? := none
    span := .nowhere }]

/-- One of the texts for that file. -/
def sampleText : List Char :=
  "namespace n;// a\ntype T\x7b\n/// Doc \n\tx:float?=-1.5@number\x7d////".toList

/-- An identifier is spelled by its characters. -/
theorem spells_name (word : String) (text : List Char) (hword : word.toList = text)
    (h : IsIdentifier word) : Spells (.name word) text :=
  hword ▸ .name h

/-- The sample can be printed. -/
theorem sampleFile_printable : sampleFile.Printable := by
  have hn : IsIdentifier "n" := by decide
  have hT : IsIdentifier "T" := by decide
  have hx : IsIdentifier "x" := by decide
  have hfloat : IsIdentifier "float" := by decide
  have hsegments : segmentsOf sampleFile.namespacePath = ["n"] := by decide
  constructor
  · rw [hsegments]
    simpa using hn
  · simp only [sampleFile, List.forall_mem_singleton]
    refine ⟨hT, fun kind => by cases kind <;> decide, rfl, ?_,
      fun line hline => by simp [linesOf] at hline⟩
    simp only [List.forall_mem_singleton]
    refine ⟨hx, by simpa [TypeRef.segments] using hfloat, ?_, by decide, fun line hline => ?_⟩
    · intro literal h
      cases h
      exact ⟨true, ['1'], ['5'], by decide, by decide, rfl⟩
    · have hlines : linesOf (some "Doc") = ["Doc"] := by decide
      rw [hlines, List.mem_singleton] at hline
      rw [hline]
      decide

/-- What a text starts with may keep it from continuing a name. -/
theorem avoids_cons {p : Char → Bool} {c : Char} (h : p c = false) (rest : List Char) :
    Avoids p (c :: rest) := by
  intro d h
  cases h
  exact h

/-- The text spells the tokens of the sample. -/
theorem layout_sampleText : Layout sampleFile.tokens sampleText := by
  have htokens : sampleFile.tokens =
      [.name "namespace", .name "n", .symbol .semicolon, .name "type", .name "T",
        .symbol .leftBrace, .doc "Doc", .name "x", .symbol .colon, .name "float", .symbol .question,
      .symbol .equals, .float (decimalValue true ['1'] ['5']), .symbol .at, .name "number",
      .symbol .rightBrace] := by decide
  have hblank : Trivia [' '] := .blank rfl .nil
  have hblanks : Trivia [' ', '\n', '\t'] := .blank rfl (.blank rfl (.blank rfl .nil))
  have hfeed : Trivia ['\n'] := .blank rfl .nil
  have hcomment : Trivia ('/' :: '/' :: ([' ', 'a'] ++ ['\n'])) := .comment rfl (by decide) .nil
  have hend : TrailingTrivia ['/', '/', '/', '/'] := .comment .nil rfl (by decide)
  have hlayout :=
    Layout.cons .nil (spells_name "namespace" ['n', 'a', 'm', 'e', 's', 'p', 'a', 'c', 'e']
      rfl (by decide)) (by exact avoids_cons rfl _) <|
    .cons hblank (spells_name "n" ['n'] rfl (by decide)) (by exact avoids_cons rfl _) <|
    .cons .nil (.symbol .semicolon) trivial <|
    .cons hcomment (spells_name "type" ['t', 'y', 'p', 'e'] rfl (by decide))
      (by exact avoids_cons rfl _) <|
    .cons hblank (spells_name "T" ['T'] rfl (by decide)) (by exact avoids_cons rfl _) <|
    .cons .nil (.symbol .leftBrace) trivial <|
    .cons hfeed (@Spells.doc "Doc" (by decide) (by decide)) (List.all_eq_true.mp rfl) <|
    .cons hblanks (spells_name "x" ['x'] rfl (by decide)) (by exact avoids_cons rfl _) <|
    .cons .nil (.symbol .colon) trivial <|
    .cons .nil (spells_name "float" ['f', 'l', 'o', 'a', 't'] rfl (by decide))
      (by exact avoids_cons rfl _) <|
    .cons .nil (.symbol .question) trivial <|
    .cons .nil (.symbol .equals) trivial <|
    .cons .nil (@Spells.float true ['1'] ['5'] (by decide) (by decide))
      (by exact avoids_cons rfl _) <|
    .cons .nil (.symbol .at) trivial <|
    .cons .nil (spells_name "number" ['n', 'u', 'm', 'b', 'e', 'r'] rfl (by decide))
      (by exact avoids_cons rfl _) <|
    .cons .nil (.symbol .rightBrace) trivial (.nil hend)
  rw [htokens]
  exact hlayout

/-- The text of the sample is parsed to the sample up to places. -/
theorem parse_sampleText :
    sampleFile.Printable ∧ Layout sampleFile.tokens sampleText ∧
      ∃ parsed, parse "a.schema" (String.ofList sampleText) = .ok parsed ∧
        parsed.withoutSpans = sampleFile.withoutSpans :=
  ⟨sampleFile_printable, layout_sampleText,
    (parse_of_layout sampleFile sampleFile_printable).2 sampleText layout_sampleText⟩

end SchemaBindings.Schema
