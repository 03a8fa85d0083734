import SchemaBindings.Proofs.Bindings.DefaultFunctions
import SchemaBindings.Proofs.Bindings.PythonPackage
import SchemaBindings.Proofs.Bindings.Spans
import SchemaBindings.Proofs.Project.Diagnostics
import SchemaBindings.Proofs.Schema.FloatLiterals
import SchemaBindings.Proofs.Schema.RoundTrip

/-!
# Default values that are no literals

An infinite number has no literal in Python and in Rust: its text is a name that nothing declares.
The default values of a graph are those that its sources declare, so one of them comes out as such a
name exactly if a source holds a literal with a point that is too large.
-/

namespace SchemaBindings.Bindings

open SchemaBindings.Graph (Field FieldType TypeNode)
open SchemaBindings.Number (Binary64 exists_text_eq_signed isFinite_ofInt toList_toString_int)
open SchemaBindings.Schema (FloatLiteral IsDigits Layout Literal Located Overflows SchemaFile Span
  Spells Token Trivia avoids_cons decimalValue decimalValue_eq_infinite_iff exists_infinite_iff
  fitsInt64 fits_of_mem_lex isDigits_toDigits lex mem_numberDefaults_iff mem_numbersOf_iff
  numbers_of_parse parse_of_derived signed signed_append spells_name)

/-! ## Default values of sources -/

/-- The default values of a built graph are those that its files declare. -/
theorem exists_declared_default_iff {files : List Schema.SchemaFile} {graph : TypeGraph}
    (h : Graph.build files = .ok graph) (literal : Literal) :
    (∃ type ∈ graph.types, ∃ field ∈ type.fields, field.default? = some literal) ↔
      ∃ file ∈ files, ∃ declaration ∈ file.declarations, ∃ field ∈ declaration.fields,
        field.default? = some literal := by
  have hperm :=
    Graph.firstDeclarations_perm
      ((Graph.build_eq_ok_iff_wellFormed files graph).mp h).1.types_distinct
  have htypes := Graph.translates_of_build h
  constructor
  · rintro ⟨type, htype, field, hfield, hdefault⟩
    obtain ⟨declaration, hdeclaration, hsame⟩ := Graph.exists_of_forall₂ htypes htype
    obtain ⟨file, hfile, hdeclared⟩ := List.mem_flatMap.mp (hperm.mem_iff.mp hdeclaration)
    obtain ⟨sources, hsources, hfields⟩ := hsame.fields
    obtain ⟨source, hsource, htranslates⟩ := Graph.exists_of_forall₂ hfields hfield
    exact ⟨file, hfile, declaration, hdeclared, source, hsources.mem_iff.mp hsource,
      htranslates.default_eq ▸ hdefault⟩
  · rintro ⟨file, hfile, declaration, hdeclared, source, hsource, hdefault⟩
    have hdeclaration := hperm.mem_iff.mpr (List.mem_flatMap.mpr ⟨file, hfile, hdeclared⟩)
    obtain ⟨type, htype, hsame⟩ := Graph.exists_of_forall₂ htypes.flip hdeclaration
    obtain ⟨sources, hsources, hfields⟩ := hsame.fields
    obtain ⟨field, hfield, htranslates⟩ :=
      Graph.exists_of_forall₂ hfields.flip (hsources.mem_iff.mpr hsource)
    exact ⟨type, htype, field, hfield, htranslates.default_eq.trans hdefault⟩

/-- The numbers that are default values in a graph are those of the tokens of its sources. -/
theorem exists_default_iff {sources : List (String × String)} {graph : TypeGraph}
    (h : Project.graphOfSources sources = .ok graph) {literal : Literal}
    (hnumber : literal.number? = some literal) :
    (∃ type ∈ graph.types, ∃ field ∈ type.fields, field.default? = some literal) ↔
      ∃ source ∈ sources, ∃ token ∈ (lex source.2.toList).tokens, token.value.number? =
        some literal := by
  obtain ⟨files, hbuild, hfiles⟩ := Project.files_of_graphOfSources h
  have hnumbers : ∀ {source : String × String} {file}, Schema.parse source.1 source.2 = .ok file →
      ((∃ token ∈ (lex source.2.toList).tokens, token.value.number? = some literal) ↔
        ∃ declaration ∈ file.declarations, ∃ field ∈ declaration.fields, field.default? =
          some literal) := by
    intro source file hparse
    rw [← mem_numbersOf_iff, numbers_of_parse hparse, List.mem_flatMap]
    simp only [mem_numberDefaults_iff hnumber]
  rw [exists_declared_default_iff hbuild]
  constructor
  · rintro ⟨file, hfile, hdefault⟩
    obtain ⟨source, hsource, hparse⟩ := Graph.exists_of_forall₂ hfiles hfile
    exact ⟨source, hsource, (hnumbers hparse).mpr hdefault⟩
  · rintro ⟨source, hsource, htoken⟩
    obtain ⟨file, hfile, hparse⟩ := Graph.exists_of_forall₂ hfiles.flip hsource
    exact ⟨file, hfile, (hnumbers hparse).mp htoken⟩

/-- The integers among them fit 64 bits. -/
theorem fits_of_graphOfSources {sources : List (String × String)} {graph : TypeGraph}
    (h : Project.graphOfSources sources = .ok graph) {type : TypeNode} (htype : type ∈ graph.types)
    {field : Field} (hfield : field ∈ type.fields) {value : Int}
    (hdefault : field.default? = some (.integer value)) :
    fitsInt64 value = true := by
  obtain ⟨source, -, token, htoken, hnumber⟩ :=
    (@exists_default_iff sources graph h (.integer value) rfl).mp
    ⟨type, htype, field, hfield, hdefault⟩
  refine fits_of_mem_lex htoken ?_
  revert hnumber
  cases token.value <;> simp [Token.number?]

/-- A default value of a graph is infinite exactly if a source has a literal with a point that is
too large. -/
theorem exists_infinite_default_iff {sources : List (String × String)} {graph : TypeGraph}
    (h : Project.graphOfSources sources = .ok graph) (negative : Bool) :
    (∃ type ∈ graph.types,
      ∃ field ∈ type.fields, field.default? = some (.float (.infinite negative))) ↔
      ∃ source ∈ sources, ∃ whole fraction, FloatLiteral source.2.toList negative whole fraction ∧
        Overflows whole fraction := by
  have hvalue : ∀ token : Token, token.number? = some (.float (.infinite negative)) ↔
      token = .float (.infinite negative) := by
    intro token
    cases token <;> simp [Token.number?]
  rw [exists_default_iff h rfl]
  simp only [hvalue, exists_infinite_iff]

/-- Some type of a graph has a property exactly if one of some namespace does. -/
theorem exists_typesIn_iff {graph : TypeGraph} {p : TypeNode → Prop} :
    (∃ namespacePath ∈ graph.namespaces, ∃ type ∈ graph.typesIn namespacePath, p type) ↔
      ∃ type ∈ graph.types, p type := by
  constructor
  · rintro ⟨namespacePath, -, type, htype, hp⟩
    exact ⟨type, (mem_typesIn_iff.mp htype).1, hp⟩
  · rintro ⟨type, htype, hp⟩
    exact ⟨_, namespacePath_mem htype, type, mem_typesIn_iff.mpr ⟨htype, rfl⟩, hp⟩

/-! ## Texts that show an infinity -/

/-- Whether a text starts with the name of an infinity. -/
def ShowsInfinity (negative : Bool) (text : String) : Prop :=
  signed negative "inf".toList <+: text.toList

/-- A text that starts with another character does not. -/
theorem not_showsInfinity_of_head {text : String} {c : Char} (hhead : text.toList.head? = some c)
    (hletter : c ≠ 'i') (hminus : c ≠ '-') (negative : Bool) : ¬ ShowsInfinity negative text := by
  rintro ⟨more, htext⟩
  rw [← htext] at hhead
  cases negative with
  | true => exact hminus (Option.some.inj hhead).symm
  | false => exact hletter (Option.some.inj hhead).symm

/-- A text that starts with digits does not either, also behind a minus sign. -/
theorem not_showsInfinity_signed {other : Bool} {digits more : List Char} {text : String}
    (hdigits : IsDigits digits) (htext : text.toList = signed other digits ++ more)
    (negative : Bool) : ¬ ShowsInfinity negative text := by
  obtain ⟨digit, digits, rfl⟩ := List.exists_cons_of_ne_nil hdigits.1
  have hdigit := hdigits.2 digit List.mem_cons_self
  have hletter : 'i' ≠ digit := ne_of_apply_ne Char.isDigit (by rw [hdigit]; decide)
  have hminus : '-' ≠ digit := ne_of_apply_ne Char.isDigit (by rw [hdigit]; decide)
  rintro ⟨rest, hrest⟩
  rw [htext] at hrest
  cases negative <;> cases other <;> simp_all [signed]

/-- The text of a floating-point number does exactly if the number is infinite. -/
theorem showsInfinity_text_iff (negative : Bool) (value : Binary64) (suffix : String) :
    ShowsInfinity negative (value.text ++ suffix) ↔ value = .infinite negative := by
  cases value with
  | finite other mantissa exponent =>
    obtain ⟨sign, magnitude, hmagnitude, htext⟩ :=
      @exists_text_eq_signed (.finite other mantissa exponent) trivial
    obtain ⟨digits, more, hdigits, rfl⟩ := hmagnitude.exists_digits
    have htext' : ((Binary64.finite other mantissa exponent).text ++ suffix).toList =
        signed sign digits ++ (more ++ suffix.toList) := by
      rw [String.toList_append, htext, signed_append, List.append_assoc]
    exact iff_of_false (not_showsInfinity_signed hdigits htext' negative) (by simp)
  | infinite other =>
    have htext : ((Binary64.infinite other).text ++ suffix).toList =
        signed other "inf".toList ++ suffix.toList := by
      cases other <;> exact String.toList_append
    rw [ShowsInfinity, htext, Binary64.infinite.injEq]
    constructor
    · rintro ⟨more, hmore⟩
      cases negative <;> cases other <;> simp_all [signed]
    · rintro rfl
      exact List.prefix_append _ _
  | nan =>
    refine iff_of_false (not_showsInfinity_of_head (c := 'N') ?_ (by decide) (by decide) negative)
      (by simp)
    rw [String.toList_append]
    rfl

/-! ## Python -/

namespace PythonPackage

/-- The value that an attribute is set to, if there is one. -/
def Initialiser.value? : Initialiser → Option Value
  | .plain value => some value
  | .field default? _ => default?

/-- The texts of the default values of a package. -/
def Package.defaultTexts (package : Package) : List String :=
  package.modules.flatMap
    fun module => module.classes.flatMap fun model => model.attributes.filterMap fun member =>
    (member.initialiser?.bind Initialiser.value?).map Value.text

/-- The text of a value shows an infinity exactly if the value is infinite. -/
theorem showsInfinity_valueText_iff (negative : Bool) (value : Value) :
    ShowsInfinity negative value.text ↔ value = .float (.infinite negative) := by
  cases value with
  | none =>
    exact iff_of_false (not_showsInfinity_of_head (c := 'N') rfl (by decide) (by decide) negative)
      (by simp)
  | integer value =>
    have htext : (Value.integer value).text.toList =
        signed (value < 0) (Nat.toDigits 10 value.natAbs) ++ [] := by
      rw [List.append_nil]
      exact toList_toString_int value
    exact iff_of_false (not_showsInfinity_signed (isDigits_toDigits _) htext negative) (by simp)
  | wholeFloat value =>
    have htext : (Value.wholeFloat value).text.toList =
        signed (value < 0) (Nat.toDigits 10 value.natAbs) ++ ".0".toList := by
      rw [← toList_toString_int value]
      exact String.toList_append
    exact iff_of_false (not_showsInfinity_signed (isDigits_toDigits _) htext negative) (by simp)
  | float value =>
    have htext := showsInfinity_text_iff negative value ""
    rw [String.append_empty] at htext
    rw [Value.text, htext, Value.float.injEq]
  | boolean value =>
    cases value with
    | true =>
      exact iff_of_false (not_showsInfinity_of_head (c := 'T') rfl (by decide) (by decide) negative)
        (by simp)
    | false =>
      exact iff_of_false (not_showsInfinity_of_head (c := 'F') rfl (by decide) (by decide) negative)
        (by simp)
  | string content =>
    have hhead : (Value.string content).text.toList.head? = some '"' := by
      rw [Value.text, quote, String.toList_ofList, quoteChars]
      rfl
    exact iff_of_false (not_showsInfinity_of_head hhead (by decide) (by decide) negative) (by simp)

/-- A field is set to its default value, renamed or not. -/
theorem value?_initialiserOf (field : Field) (renamed : Bool) :
    (initialiserOf field renamed).bind Initialiser.value? = defaultOf field := by
  cases renamed with
  | true => rfl
  | false => cases h : defaultOf field <;> simp [initialiserOf, Initialiser.value?, h]

/-- A field is set to an infinity exactly if that is its default value. -/
theorem defaultOf_eq_infinite_iff (field : Field) (negative : Bool) :
    defaultOf field = some (.float (.infinite negative)) ↔
    field.default? = some (.float (.infinite negative)) := by
  unfold defaultOf
  cases field.default? with
  | none => cases field.optional <;> simp
  | some literal =>
    cases literal with
    | integer value => by_cases h : field.type = .primitive .float <;> simp [valueOf, h]
    | float value => simp [valueOf]
    | text content => simp [valueOf]
    | boolean value => simp [valueOf]

/-- The default values of a package are those of the fields of its graph. -/
theorem mem_defaultTexts_iff {options : NamingOptions} {graph : TypeGraph} {package : Package}
    (h : build options graph = .ok package) (text : String) :
    text ∈ package.defaultTexts ↔
      ∃ type ∈ graph.types, ∃ field ∈ type.fields, ∃ value, defaultOf field = some value ∧
        value.text = text := by
  obtain ⟨-, names, -, rfl⟩ := build_eq_ok h
  simp only [Package.defaultTexts, moduleOf, classOf, attributeOf, List.mem_flatMap, List.mem_map,
    List.mem_filterMap, exists_exists_and_eq_and, value?_initialiserOf, Option.map_eq_some_iff]
  exact exists_typesIn_iff

/-- A package shows an infinity as a default value exactly if its graph has one. -/
theorem showsInfinity_defaultTexts_iff {options : NamingOptions} {graph : TypeGraph}
    {package : Package} (h : build options graph = .ok package) (negative : Bool) :
    (∃ text ∈ package.defaultTexts, ShowsInfinity negative text) ↔
      ∃ type ∈ graph.types, ∃ field ∈ type.fields, field.default? =
        some (.float (.infinite negative)) := by
  simp only [mem_defaultTexts_iff h, ← defaultOf_eq_infinite_iff]
  constructor
  · rintro ⟨text, ⟨type, htype, field, hfield, value, hdefault, rfl⟩, hshows⟩
    exact ⟨type, htype, field, hfield,
      (showsInfinity_valueText_iff negative value).mp hshows ▸ hdefault⟩
  · rintro ⟨type, htype, field, hfield, hdefault⟩
    exact ⟨_, ⟨type, htype, field, hfield, _, hdefault, rfl⟩,
      (showsInfinity_valueText_iff negative _).mpr rfl⟩

end PythonPackage

/-! ## Rust -/

namespace RustModules

/-- The literal that an expression is made of. -/
def Expr.literal : Expr → Expr
  | .jsonValue value => value.literal
  | .some value => value.literal
  | expression => expression

/-- The texts of the literals in the default functions of modules. -/
def defaultTexts (modules : List Module) : List String :=
  modules.flatMap
    fun module => module.structs.flatMap fun struct => struct.functions.map fun function =>
    function.body.literal.text

/-- What a default function returns is made of the literal of its value. -/
theorem literal_defaultExpr (field : Field) (literal : Literal) :
    (defaultExpr field literal).literal = (valueExpr field.type literal).literal := by
  unfold defaultExpr
  dsimp only
  split
  · rfl
  · rfl

/-- The literal of a value is that of its own type, except for whole numbers that are to be
floating-point numbers. -/
theorem literal_valueExpr (type : FieldType) (literal : Literal) :
    (valueExpr type literal).literal = plainExpr literal ∨
      (∃ content, literal = .text content ∧ (valueExpr type literal).literal = .ownedText content) ∨
      ∃ value, literal = .integer value ∧
        (valueExpr type literal).literal = .plainFloat (.ofInt value) := by
  unfold valueExpr
  split
  · left
    cases literal <;> rfl
  · cases literal with
    | integer value =>
      by_cases hfloat : type = .primitive .float
      · exact .inr (.inr ⟨value, rfl, congrArg Expr.literal (if_pos hfloat)⟩)
      · exact .inl (congrArg Expr.literal (if_neg hfloat))
    | float value => exact .inl rfl
    | text content => exact .inr (.inl ⟨content, rfl, rfl⟩)
    | boolean value => exact .inl rfl

/-- A literal of its own type shows an infinity exactly if it is one. -/
theorem showsInfinity_plainExpr_iff (negative : Bool) (literal : Literal) :
    ShowsInfinity negative (plainExpr literal).text ↔ literal = .float (.infinite negative) := by
  cases literal with
  | integer value =>
    have htext : (Expr.int64 value).text.toList =
        signed (value < 0) (Nat.toDigits 10 value.natAbs) ++ "_i64".toList := by
      rw [← toList_toString_int value]
      exact String.toList_append
    exact iff_of_false (not_showsInfinity_signed (isDigits_toDigits _) htext negative) (by simp)
  | float value =>
    rw [Literal.float.injEq]
    exact showsInfinity_text_iff negative value "_f64"
  | text content =>
    have hhead : (Text.quoted content).toList.head? = some '"' := by
      simp [Text.quoted, Text.quoteVisible]
    exact iff_of_false (not_showsInfinity_of_head hhead (by decide) (by decide) negative) (by simp)
  | boolean value =>
    cases value with
    | true =>
      exact iff_of_false (not_showsInfinity_of_head (c := 't') rfl (by decide) (by decide) negative)
        (by simp)
    | false =>
      exact iff_of_false (not_showsInfinity_of_head (c := 'f') rfl (by decide) (by decide) negative)
        (by simp)

/-- The literal of a default function shows an infinity exactly if that is the default value, where
integers fit 64 bits. -/
theorem showsInfinity_defaultExpr_iff (negative : Bool) (field : Field) {literal : Literal}
    (hfits : ∀ value, literal = .integer value → fitsInt64 value = true) :
    ShowsInfinity negative (defaultExpr field literal).literal.text ↔
    literal = .float (.infinite negative) := by
  rw [literal_defaultExpr]
  rcases literal_valueExpr field.type literal with hplain | ⟨content, rfl, howned⟩ |
    ⟨value, rfl, hwhole⟩
  · rw [hplain, showsInfinity_plainExpr_iff]
  · have hhead : (Text.quoted content ++ ".to_string()").toList.head? = some '"' := by
      simp [Text.quoted, Text.quoteVisible]
    rw [howned]
    exact iff_of_false (not_showsInfinity_of_head hhead (by decide) (by decide) negative) (by simp)
  · have htext := showsInfinity_text_iff negative (.ofInt value) ""
    rw [String.append_empty] at htext
    rw [hwhole]
    refine iff_of_false (fun hshows => ?_) (by simp)
    have hfinite := isFinite_ofInt (hfits value rfl)
    rw [htext.mp hshows] at hfinite
    exact hfinite

/-- The default functions of modules are those of the fields of their graph. -/
theorem mem_defaultTexts_iff {options : NamingOptions} {graph : TypeGraph} {modules : List Module}
    (h : build options graph = .ok modules) (text : String) :
    text ∈ defaultTexts modules ↔ ∃ type ∈ graph.types, ∃ field ∈ type.fields, ∃ literal,
      field.default? = some literal ∧ (defaultExpr field literal).literal.text = text := by
  have hfunction : ∀ names namespacePath (field : Field),
      (structField names namespacePath field).defaultFunction? =
      field.default?.map
          fun literal =>
            ⟨defaultFunctionName (names.field field.id), fieldType names namespacePath field,
        defaultExpr field literal⟩ := by
    intro names namespacePath field
    unfold StructField.defaultFunction? structField
    cases field.default? with
    | none => cases field.optional <;> rfl
    | some literal => rfl
  obtain ⟨-, names, -, rfl⟩ := build_eq_ok h
  simp only [defaultTexts, moduleOf, structOf, Struct.functions, List.mem_flatMap, List.mem_map,
    List.mem_filterMap, exists_exists_and_eq_and, hfunction, Option.map_eq_some_iff,
    exists_typesIn_iff]
  refine exists_congr fun type => and_congr_right fun _ => ?_
  constructor
  · rintro ⟨function, ⟨field, hfield, literal, hdefault, rfl⟩, htext⟩
    exact ⟨field, hfield, literal, hdefault, htext⟩
  · rintro ⟨field, hfield, literal, hdefault, htext⟩
    exact ⟨_, ⟨field, hfield, literal, hdefault, rfl⟩, htext⟩

end RustModules

/-! ## Sources -/

/-- For all sources, the lexer gives an infinite number exactly if a literal with a point is too
large. For all sources that are accepted and all naming options, a package and modules show an
infinity as a default value exactly if a source has such a literal. -/
theorem showsInfinity_iff_overflows (options : NamingOptions) :
    (∀ source negative, (∃ token ∈ (lex source).tokens, token.value = .float (.infinite negative)) ↔
      ∃ whole fraction, FloatLiteral source negative whole fraction ∧ Overflows whole fraction) ∧
    ∀ sources graph, Project.graphOfSources sources = .ok graph → ∀ negative,
      (∀ package, PythonPackage.build options graph = .ok package →
        ((∃ text ∈ package.defaultTexts, ShowsInfinity negative text) ↔
          ∃ source ∈ sources, ∃ whole fraction, FloatLiteral source.2.toList negative whole
            fraction ∧ Overflows whole fraction)) ∧
      ∀ modules, RustModules.build options graph = .ok modules →
        ((∃ text ∈ RustModules.defaultTexts modules, ShowsInfinity negative text) ↔
          ∃ source ∈ sources, ∃ whole fraction, FloatLiteral source.2.toList negative whole
            fraction ∧ Overflows whole fraction) := by
  refine ⟨fun source negative => exists_infinite_iff source negative,
    fun sources graph h negative => ⟨?_, ?_⟩⟩
  · intro package hpackage
    rw [PythonPackage.showsInfinity_defaultTexts_iff hpackage, exists_infinite_default_iff h]
  · intro modules hmodules
    rw [← exists_infinite_default_iff h]
    simp only [RustModules.mem_defaultTexts_iff hmodules]
    constructor
    · rintro ⟨text, ⟨type, htype, field, hfield, literal, hdefault, rfl⟩, hshows⟩
      have hfits : ∀ value, literal = .integer value → fitsInt64 value = true := fun value hvalue =>
        fits_of_graphOfSources h htype hfield (hvalue ▸ hdefault)
      rw [RustModules.showsInfinity_defaultExpr_iff negative field hfits] at hshows
      exact ⟨type, htype, field, hfield, hshows ▸ hdefault⟩
    · rintro ⟨type, htype, field, hfield, hdefault⟩
      have hfits : ∀ value, Literal.float (.infinite negative) = .integer value →
          fitsInt64 value = true := by simp
      exact ⟨_, ⟨type, htype, field, hfield, _, hdefault, rfl⟩,
        (RustModules.showsInfinity_defaultExpr_iff negative field hfits).mpr rfl⟩

/-! ## A number that is too large -/

/-- A schema with a default value whose digits in front of the point are given. -/
def textWith (digits : List Char) : List Char :=
  "type A\x7bx:float=".toList ++ ((digits ++ ".0".toList) ++ "\x7d".toList)

/-- A schema with a float as the default value of its only field is laid out as the tokens that it
is written with. -/
theorem layout_textWith {digits : List Char} (hdigits : IsDigits digits) :
    Layout [.name "type", .name "A", .symbol .leftBrace, .name "x", .symbol .colon,
      .name "float", .symbol .equals, .float (decimalValue false digits ['0']), .symbol .rightBrace]
      (textWith digits) := by
  have hblank : Trivia [' '] := .blank rfl .nil
  have hlayout :=
    Layout.cons .nil (spells_name "type" ['t', 'y', 'p', 'e'] rfl (by decide))
      (by exact avoids_cons rfl _) <|
    .cons hblank (spells_name "A" ['A'] rfl (by decide)) (by exact avoids_cons rfl _) <|
    .cons .nil (.symbol .leftBrace) trivial <|
    .cons .nil (spells_name "x" ['x'] rfl (by decide)) (by exact avoids_cons rfl _) <|
    .cons .nil (.symbol .colon) trivial <|
    .cons .nil (spells_name "float" ['f', 'l', 'o', 'a', 't'] rfl (by decide))
      (by exact avoids_cons rfl _) <|
    .cons .nil (.symbol .equals) trivial <|
    .cons .nil (@Spells.float false digits ['0'] hdigits (by decide))
      (by exact avoids_cons rfl _) <|
    .cons .nil (.symbol .rightBrace) trivial (.nil (.closed .nil))
  exact hlayout

/-- The schema with a float of given digits as a default value, with the places of the type and of
the field. -/
def fileWith (digits : List Char) (type field : Span) : SchemaFile :=
  ⟨"a.ath", "",
    [⟨"A", "", [⟨"x", .named [] "float", false, some (.float (decimalValue false digits ['0'])),
      [], none,
    field⟩], none, type⟩]⟩

/-- The text of the schema with a float as a default value is parsed, whatever the digits are. -/
theorem parse_textWith {digits : List Char} (hdigits : IsDigits digits) :
    ∃ type field, Schema.parse "a.ath" (String.ofList (textWith digits)) =
      .ok (fileWith digits type field) := by
  obtain ⟨hfaults, hvalues⟩ := (layout_textWith hdigits).lex
  rw [← @String.toList_ofList (textWith digits)] at hfaults hvalues
  obtain ⟨⟨first, -⟩, _, htokens, rfl, h₁⟩ := List.map_eq_cons_iff.mp hvalues
  obtain ⟨⟨name, -⟩, _, rfl, rfl, h₂⟩ := List.map_eq_cons_iff.mp h₁
  obtain ⟨⟨opening, -⟩, _, rfl, rfl, h₃⟩ := List.map_eq_cons_iff.mp h₂
  obtain ⟨⟨place, -⟩, _, rfl, rfl, h₄⟩ := List.map_eq_cons_iff.mp h₃
  obtain ⟨⟨colon, -⟩, _, rfl, rfl, h₅⟩ := List.map_eq_cons_iff.mp h₄
  obtain ⟨⟨reference, -⟩, _, rfl, rfl, h₆⟩ := List.map_eq_cons_iff.mp h₅
  obtain ⟨⟨equals, -⟩, _, rfl, rfl, h₇⟩ := List.map_eq_cons_iff.mp h₆
  obtain ⟨⟨number, -⟩, _, rfl, rfl, h₈⟩ := List.map_eq_cons_iff.mp h₇
  obtain ⟨⟨closing, -⟩, _, rfl, rfl, h₉⟩ := List.map_eq_cons_iff.mp h₈
  obtain rfl := List.map_eq_nil_iff.mp h₉
  have htype : Schema.Grammar.Reference [⟨reference, .name "float"⟩] (.named [] "float") :=
    @Schema.Grammar.Reference.named _ [] "float" (.mk reference "float" .nil)
  have hfield : Schema.Grammar.Field "a.ath" _ _ :=
    .mk place colon "x" .nil htype .absent
      (.present equals number (.float (decimalValue false digits ['0']))) .nil .nil
  have hfile : Schema.Grammar.File "a.ath" _ _ :=
    .mk .absent (.cons
      (.mk first name opening closing "A" .nil (fun kind => by cases kind <;> decide)
      (.fields (.last hfield))) .nil) .nil
  refine ⟨⟨"a.ath", first⟩, ⟨"a.ath", place⟩, parse_of_derived hfaults ?_⟩
  rw [htokens]
  exact hfile

/-- The digits of a number that is too large: a one with 309 zeros. -/
def hugeDigits : List Char := '1' :: List.replicate 309 '0'

/-- The digits of the number that is too large are digits. -/
theorem isDigits_hugeDigits : IsDigits hugeDigits := by
  refine ⟨List.cons_ne_nil _ _, List.forall_mem_cons.mpr ⟨by decide, fun c hc => ?_⟩⟩
  rw [List.eq_of_mem_replicate hc]
  decide

/-- The number that is too large overflows. -/
theorem overflows_hugeDigits : Overflows hugeDigits ['0'] := by
  rw [Overflows]
  decide +kernel

/-- The type that a graph holds for it. -/
def hugeNode (type field : Span) : TypeNode :=
  ⟨⟨"", "A"⟩, [⟨⟨⟨"", "A"⟩, "x"⟩, .primitive .float, false, some (.float (.infinite false)),
    [], none, false, field⟩], none, type⟩

/-- The schema with that default value. -/
def hugeSource : String :=
  String.ofList (textWith hugeDigits)

/-- The schema with a number that is too large as a default value is accepted. -/
theorem graphOfSources_hugeSource :
    ∃ type field, Project.graphOfSources [("a.ath", hugeSource)] = .ok ⟨[hugeNode type field]⟩ := by
  obtain ⟨type, field, hparse⟩ := parse_textWith isDigits_hugeDigits
  have hvalue : decimalValue false hugeDigits ['0'] = .infinite false :=
    (decimalValue_eq_infinite_iff ..).mpr overflows_hugeDigits
  rw [fileWith, hvalue] at hparse
  have hbuild : Graph.build
      [⟨"a.ath", "",
        [⟨"A", "", [⟨"x", .named [] "float", false, some (.float (.infinite false)), [],
      none, field⟩], none, type⟩]⟩] = .ok ⟨[hugeNode type field]⟩ := by cbv
  exact ⟨type, field, Project.graphOfSources_singleton hparse hbuild⟩

/-- The default value that is too large is `inf` in Python and `inf_f64` in Rust. -/
theorem build_hugeNode (type field : Span) :
    (∃ package, PythonPackage.build .none ⟨[hugeNode type field]⟩ = .ok package ∧
      package.defaultTexts = ["inf"]) ∧
      ∃ modules, RustModules.build .none ⟨[hugeNode type field]⟩ = .ok modules ∧
        RustModules.defaultTexts modules = ["inf_f64"] := by
  have hsame : (⟨[hugeNode type field]⟩ : TypeGraph).withoutSpans =
      ⟨[hugeNode .nowhere .nowhere]⟩ := rfl
  have hpython : (PythonPackage.build .none ⟨[hugeNode .nowhere .nowhere]⟩).toOption.map
      PythonPackage.Package.defaultTexts = some ["inf"] := by decide +kernel
  have hrust : (RustModules.build .none ⟨[hugeNode .nowhere .nowhere]⟩).toOption.map
      RustModules.defaultTexts = some ["inf_f64"] := by decide +kernel
  rw [← hsame, PythonPackage.build_withoutSpans, Option.map_eq_some_iff] at hpython
  rw [← hsame, RustModules.build_withoutSpans, Option.map_eq_some_iff] at hrust
  obtain ⟨package, hpackage, hinf⟩ := hpython
  obtain ⟨modules, hmodules, hinf64⟩ := hrust
  exact ⟨⟨package, eq_ok_of_toOption hpackage, hinf⟩, modules, eq_ok_of_toOption hmodules, hinf64⟩

/-- The number that is too large is infinite for the lexer. -/
theorem exists_infinite_hugeSource :
    ∃ token ∈ (lex hugeSource.toList).tokens, token.value = .float (.infinite false) := by
  have hvalues := (layout_textWith isDigits_hugeDigits).lex.2
  have hmem : Token.float (decimalValue false hugeDigits ['0']) ∈
      (lex (textWith hugeDigits)).tokens.map Located.value := by
    rw [hvalues]
    simp
  rw [(decimalValue_eq_infinite_iff ..).mpr overflows_hugeDigits, List.mem_map] at hmem
  rwa [hugeSource, String.toList_ofList]

/-- A schema that is accepted has an infinite default value, which comes out as a name that nothing
declares. -/
theorem exists_infinite_default :
    ∃ graph, Project.graphOfSources [("a.ath", hugeSource)] = .ok graph ∧
    (∃ token ∈ (lex hugeSource.toList).tokens, token.value = .float (.infinite false)) ∧
    (∃ package, PythonPackage.build .none graph = .ok package ∧ package.defaultTexts = ["inf"]) ∧
    ∃ modules, RustModules.build .none graph = .ok modules ∧
      RustModules.defaultTexts modules = ["inf_f64"] := by
  obtain ⟨type, field, hgraph⟩ := graphOfSources_hugeSource
  exact ⟨_, hgraph, exists_infinite_hugeSource, build_hugeNode type field⟩

/-- The theorem finds the literal behind it, and none with a minus sign. -/
theorem showsInfinity_hugeSource :
    ∃ graph package modules, Project.graphOfSources [("a.ath", hugeSource)] = .ok graph ∧
    PythonPackage.build .none graph = .ok package ∧ RustModules.build .none graph = .ok modules ∧
    (∃ text ∈ package.defaultTexts, ShowsInfinity false text) ∧
    (∃ text ∈ RustModules.defaultTexts modules, ShowsInfinity false text) ∧
    (∃ whole fraction, FloatLiteral hugeSource.toList false whole fraction ∧
      Overflows whole fraction) ∧
    ¬ ∃ whole fraction, FloatLiteral hugeSource.toList true whole fraction ∧
      Overflows whole fraction := by
  obtain ⟨type, field, hgraph⟩ := graphOfSources_hugeSource
  obtain ⟨⟨package, hpackage, hinf⟩, modules, hmodules, hinf64⟩ := build_hugeNode type field
  have hliteral := (showsInfinity_iff_overflows .none).2 _ _ hgraph
  have hpython : ∃ text ∈ package.defaultTexts, ShowsInfinity false text := by
    rw [hinf]
    exact ⟨"inf", List.mem_singleton.mpr rfl, List.prefix_rfl⟩
  have hminus : ¬ ∃ text ∈ package.defaultTexts, ShowsInfinity true text := by
    rw [hinf]
    rintro ⟨text, htext, hshows⟩
    obtain rfl := List.mem_singleton.mp htext
    exact absurd hshows (by rw [ShowsInfinity]; decide)
  obtain ⟨source, hsource, hhuge⟩ := ((hliteral false).1 package hpackage).mp hpython
  obtain rfl := List.mem_singleton.mp hsource
  exact ⟨_, package, modules, hgraph, hpackage, hmodules, hpython,
    ((hliteral false).2 modules hmodules).mpr ⟨_, hsource, hhuge⟩, hhuge,
    fun h => hminus (((hliteral true).1 package hpackage).mpr ⟨_, hsource, h⟩)⟩

end SchemaBindings.Bindings
