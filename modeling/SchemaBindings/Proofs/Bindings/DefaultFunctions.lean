import SchemaBindings.Proofs.Bindings.FiniteStructs
import SchemaBindings.Proofs.Bindings.TextDefaults
import SchemaBindings.Proofs.Graph.Fields
import SchemaBindings.Proofs.Number.Text

/-!
# Default functions

A field with a default value names a function of its struct, which gives the value. The functions of
a struct have different names and stand in its `impl` block, of which a module has one for each
struct that needs one. What a function returns is written like the field's type, and its body is an
expression of the type that is meant by it. But a struct hides the built-in type that it is named
like, so the body has the written type only where no struct of the module does that.
-/

namespace SchemaBindings.Bindings.RustModules

open SchemaBindings.Graph (Field FieldType Fits TypeNode)
open SchemaBindings.Number (Binary64 IsDecimal exists_text_eq_signed isFinite_ofInt
  toList_toString_int)
open SchemaBindings.Schema (IsDigits Literal Primitive booleanWord fitsInt64 integerOf
  integerOf_toDigits isDigits_toDigits signed signed_append)
open SchemaBindings.Text

/-! ## Expressions -/

/-- The types of default values, and that of the texts between quotes which some of them are made
from. -/
inductive ValueType where
  | int64
  | float64
  | bool
  | str
  | string
  | jsonValue
  | option (value : ValueType)
deriving DecidableEq

/-- The types of which there are literals. -/
def ValueType.literals : List ValueType :=
  [.int64, .float64, .bool, .str]

/-- Texts that are expressions of a type. A decimal may have a suffix, and a minus sign may stand in
front of a number. -/
inductive IsExpression : ValueType → List Char → Prop
  | int64 (negative : Bool) {digits : List Char} (hdigits : IsDigits digits)
      (hfits : fitsInt64 (integerOf negative digits) = true) :
      IsExpression .int64 (signed negative digits ++ "_i64".toList)
  | float64 (negative : Bool) {magnitude suffix : List Char} (hmagnitude : IsDecimal magnitude)
      (hsuffix : suffix = [] ∨ suffix = "_f64".toList) :
      IsExpression .float64 (signed negative magnitude ++ suffix)
  | bool {text : List Char} (h : text = "true".toList ∨ text = "false".toList) :
      IsExpression .bool text
  | str {text : List Char} {content : List Nat}
      (h : RustLiteral.readString text = some (content, [])) :
      IsExpression .str text
  | string {text : List Char} (h : IsExpression .str text) : IsExpression .string
      (text ++ ".to_string()".toList)
  | jsonValue {type : ValueType} {text : List Char} (htype : type ∈ ValueType.literals)
      (h : IsExpression type text) :
      IsExpression .jsonValue ("serde_json::Value::from(".toList ++ text ++ [')'])
  | some {type : ValueType} {text : List Char} (h : IsExpression type text) :
      IsExpression (.option type) ("Some(".toList ++ text ++ [')'])

/-- A number starts with its sign or with a digit. -/
theorem head?_signed_ne (negative : Bool) {digits : List Char} (h : IsDigits digits)
    (more : List Char) :
    (signed negative digits ++ more).head? ≠ some 'S' := by
  cases negative with
  | true => simp [signed]
  | false =>
    obtain ⟨first, rest, rfl⟩ := List.exists_cons_of_ne_nil h.1
    have hfirst := h.2 first List.mem_cons_self
    rw [signed, if_neg Bool.false_ne_true, List.cons_append, List.head?_cons,
      ne_eq, Option.some.injEq]
    rintro rfl
    exact absurd hfirst (by decide)

/-- An expression stands in `Some` exactly if its type is optional. -/
theorem some_prefix_iff {type : ValueType} {text : List Char} (h : IsExpression type text) :
    "Some(".toList <+: text ↔ ∃ value, type = .option value := by
  have hhead {text : List Char} (hne : text.head? ≠ some 'S') : ¬ "Some(".toList <+: text := by
    rintro ⟨more, rfl⟩
    exact hne rfl
  have hquote {text : List Char} {content : List Nat}
      (h : RustLiteral.readString text = some (content, [])) :
      ∃ rest, text = '"' :: rest := by
    unfold RustLiteral.readString at h
    split at h
    · exact ⟨_, rfl⟩
    · contradiction
  cases h with
  | some hvalue =>
    exact iff_of_true (by rw [List.append_assoc]; exact List.prefix_append _ _) ⟨_, rfl⟩
  | int64 negative hdigits _ =>
    exact iff_of_false (hhead (head?_signed_ne negative hdigits _)) (by simp)
  | float64 negative hmagnitude _ =>
    obtain ⟨digits, more, hdigits, rfl⟩ := hmagnitude.exists_digits
    rw [signed_append, List.append_assoc]
    exact iff_of_false (hhead (head?_signed_ne negative hdigits _)) (by simp)
  | bool htext => rcases htext with rfl | rfl <;> exact iff_of_false (by decide) (by simp)
  | str hread =>
    obtain ⟨rest, rfl⟩ := hquote hread
    exact iff_of_false (hhead (by simp)) (by simp)
  | string hstr =>
    cases hstr with
    | str hread =>
      obtain ⟨rest, rfl⟩ := hquote hread
      exact iff_of_false (hhead (by simp)) (by simp)
  | jsonValue htype hvalue =>
    refine iff_of_false (hhead ?_) (by simp)
    rw [List.append_assoc]
    exact fun hhead => absurd (Option.some.inj hhead) (by decide)

/-- What a type means that is written in a module with structs of the given names. A struct hides
anything else that is named like it. -/
def RustType.valueType? (structs : List String) : RustType → Option ValueType
  | .int64 => if "i64" ∈ structs then none else some .int64
  | .float64 => if "f64" ∈ structs then none else some .float64
  | .bool => if "bool" ∈ structs then none else some .bool
  | .string => if "String" ∈ structs then none else some .string
  | .jsonValue => if "serde_json" ∈ structs then none else some .jsonValue
  | .option value => if "Option" ∈ structs then none else (value.valueType? structs).map .option
  | .struct _ _ => none
  | .vec _ => none
  | .box _ => none

/-- Whether an expression has the type that is written for it. -/
def HasType (structs : List String) (type : RustType) (expression : Expr) : Prop :=
  ∃ valueType, type.valueType? structs = some valueType ∧
    IsExpression valueType expression.text.toList

/-! ## Default values -/

/-- Whether a literal stands for a value: an integer of 64 bits, a finite number, a text or a truth
value. -/
def Regular : Literal → Prop
  | .integer value => fitsInt64 value = true
  | .float value => value.IsFinite
  | .text _ => True
  | .boolean _ => True

/-- The first part of the path of a built-in type. -/
def builtInName : Primitive → String
  | .int => "i64"
  | .float => "f64"
  | .bool => "bool"
  | .string => "String"
  | .any => "serde_json"

/-- The type of the values of a built-in type. -/
def valueTypeOf : Primitive → ValueType
  | .int => .int64
  | .float => .float64
  | .bool => .bool
  | .string => .string
  | .any => .jsonValue

/-- The type of the values of a field of a built-in type. -/
def defaultType (kind : Primitive) (optional : Bool) : ValueType :=
  if optional then .option (valueTypeOf kind) else valueTypeOf kind

/-- An integer with its suffix is an expression of the type of integers. -/
theorem isExpression_int64 {value : Int} (h : fitsInt64 value = true) :
    IsExpression .int64 (Expr.int64 value).text.toList := by
  change IsExpression .int64 (toString value ++ "_i64").toList
  rw [String.toList_append, toList_toString_int]
  exact .int64 _ (isDigits_toDigits _) (by rwa [integerOf_toDigits])

/-- A finite number is one of the type of floating-point numbers, with or without a suffix. -/
theorem isExpression_float64 {value : Binary64} (h : value.IsFinite) {suffix : String}
    (hsuffix : suffix.toList = [] ∨ suffix.toList = "_f64".toList) :
    IsExpression .float64 (value.text ++ suffix).toList := by
  obtain ⟨negative, magnitude, hmagnitude, htext⟩ := exists_text_eq_signed h
  rw [String.toList_append, htext]
  exact .float64 negative hmagnitude hsuffix

/-- The literal of a regular value is an expression of one of the types that have literals. -/
theorem isExpression_plainExpr {literal : Literal} (h : Regular literal) :
    ∃ type ∈ ValueType.literals, IsExpression type (plainExpr literal).text.toList := by
  cases literal with
  | integer value => exact ⟨.int64, by decide, isExpression_int64 h⟩
  | float value => exact ⟨.float64, by decide, isExpression_float64 h (.inr rfl)⟩
  | text content => exact ⟨.str, by decide, .str (readString_quoted content)⟩
  | boolean value => cases value with
    | true => exact ⟨.bool, by decide, .bool (.inl rfl)⟩
    | false => exact ⟨.bool, by decide, .bool (.inr rfl)⟩

/-- A regular value that fits a type is written as an expression of it. -/
theorem isExpression_valueExpr {kind : Primitive} {literal : Literal}
    (hfits : Fits (.primitive kind) literal) (h : Regular literal) :
    IsExpression (valueTypeOf kind) (valueExpr (.primitive kind) literal).text.toList := by
  cases hfits with
  | any =>
    obtain ⟨type, htype, hliteral⟩ := isExpression_plainExpr h
    change IsExpression .jsonValue
      ("serde_json::Value::from(" ++ (plainExpr literal).text ++ ")").toList
    rw [String.toList_append, String.toList_append]
    exact .jsonValue htype hliteral
  | int value => exact isExpression_int64 h
  | wholeFloat value =>
    have hsuffix : "".toList = [] ∨ "".toList = "_f64".toList := .inl rfl
    have hliteral := isExpression_float64 (isFinite_ofInt h) hsuffix
    rwa [String.append_empty] at hliteral
  | float value => exact isExpression_float64 h (.inr rfl)
  | bool value => cases value with
    | true => exact .bool (.inl rfl)
    | false => exact .bool (.inr rfl)
  | string content =>
    change IsExpression .string (quoted content ++ ".to_string()").toList
    rw [String.toList_append]
    exact .string (.str (readString_quoted content))

/-- The body of a default function is an expression of the type of the values of its field. -/
theorem isExpression_defaultExpr {field : Field} {kind : Primitive}
    (hkind : field.type = .primitive kind) {literal : Literal} (hfits : Fits field.type literal)
    (h : Regular literal) :
    IsExpression (defaultType kind field.optional) (defaultExpr field literal).text.toList := by
  rw [hkind] at hfits
  have hvalue := isExpression_valueExpr hfits h
  unfold defaultExpr defaultType
  rw [hkind]
  dsimp only
  split
  · change IsExpression _ ("Some(" ++ (valueExpr (.primitive kind) literal).text ++ ")").toList
    rw [String.toList_append, String.toList_append]
    exact .some hvalue
  · exact hvalue

/-- Only built-in types have default values. -/
theorem exists_primitive_of_fits {type : FieldType} {literal : Literal} (h : Fits type literal) :
    ∃ kind, type = .primitive kind := by
  cases h with
  | any | int | wholeFloat | float | bool | string => exact ⟨_, rfl⟩

/-- The written type of a field of a built-in type means that type, unless a struct hides it. -/
theorem valueType?_fieldType {structs : List String} (hoption : "Option" ∉ structs)
    (names : NameTable) (namespacePath : String) {field : Field} {kind : Primitive}
    (hkind : field.type = .primitive kind) :
    (fieldType names namespacePath field).valueType? structs =
      if builtInName kind ∈ structs then none else some (defaultType kind field.optional) := by
  have hbase : (typeOf names namespacePath field.type).valueType? structs =
      if builtInName kind ∈ structs then none else some (valueTypeOf kind) := by
    rw [hkind]
    cases kind <;> rfl
  have hunboxed : (field.recursive && field.isNamed) = false := by
    rw [Field.isNamed, hkind, Bool.and_false]
  unfold fieldType defaultType
  dsimp only
  rw [hunboxed, if_neg Bool.false_ne_true]
  split
  · rw [RustType.valueType?, if_neg hoption, hbase]
    split <;> rfl
  · exact hbase

/-- A default value has the type written for its field exactly if no struct hides that type. -/
theorem hasType_defaultExpr_iff {structs : List String} (hoption : "Option" ∉ structs)
    (names : NameTable) (namespacePath : String) {field : Field} {kind : Primitive}
    (hkind : field.type = .primitive kind) {literal : Literal} (hfits : Fits field.type literal)
    (h : Regular literal) :
    HasType structs (fieldType names namespacePath field) (defaultExpr field literal) ↔
    builtInName kind ∉ structs := by
  rw [HasType, valueType?_fieldType hoption names namespacePath hkind]
  constructor
  · intro htype
    obtain ⟨valueType, hmeans, -⟩ := htype
    intro hhidden
    rw [if_pos hhidden] at hmeans
    contradiction
  · intro hvisible
    exact ⟨_, if_neg hvisible, isExpression_defaultExpr hkind hfits h⟩

/-! ## Fields and functions -/

/-- The default functions of a struct. -/
def Struct.functions (struct : Struct) : List DefaultFunction :=
  struct.fields.filterMap StructField.defaultFunction?

/-- The line that opens the `impl` block of a struct. -/
def Struct.implLine (struct : Struct) : String :=
  "impl " ++ struct.name ++ " \x7b"

/-- The attributes of a struct's field that say where its default value comes from. -/
def StructField.defaultAttributes (owner : String) (field : StructField) : List String :=
  linesStarting "default = " (field.attributes owner)

/-- The attribute that names a default function. -/
def functionAttribute (owner : String) (function : DefaultFunction) : String :=
  "default = \"" ++ owner ++ "::" ++ function.name ++ "\""

/-- A field has an attribute for its default function, if it has one. -/
theorem defaultAttributes_eq (owner : String) (field : StructField) :
    field.defaultAttributes owner =
      (field.defaultFunction?.map (functionAttribute owner)).toList := by
  have hrename : linesStarting "default = "
      (if unraw field.name = field.source then [] else ["rename = \"" ++ field.source ++ "\""]) =
        [] := by
    refine linesStarting_eq_nil (c := 'd') rfl fun line hline => ?_
    split at hline
    · exact absurd hline List.not_mem_nil
    · obtain rfl := List.mem_singleton.mp hline
      rw [firstChar?_append (firstChar?_append (c := 'r') rfl _) _]
      decide
  rw [StructField.defaultAttributes, StructField.attributes, linesStarting_append,
    hrename, List.nil_append, StructField.defaultFunction?]
  split
  · next hmissing => simp [hmissing, linesStarting]
  · next hmissing =>
    rw [hmissing]
    rfl
  · next function hmissing =>
    rw [hmissing]
    have hattribute : functionAttribute owner function =
        "default = " ++ ("\"" ++ owner ++ "::" ++ function.name ++ "\"") := by
      simp only [functionAttribute, ← String.append_assoc]
      rfl
    change linesStarting "default = " [functionAttribute owner function] =
      [functionAttribute owner function]
    rw [hattribute, linesStarting_cons_append]
    rfl

/-- How a field comes out in a struct, of a module with structs of the given names. Without a
default value, no attribute says where one comes from. With one, there is one such attribute, and it
names one function of the struct. That returns what is written as the type of the field, and its
body is an expression of the field's type, in `Some` exactly if the field is optional. The body has
the type written for it exactly if no struct hides that type. -/
structure FieldDefault (structs : List String) (struct : Struct) (field : Field)
    (written : StructField) : Prop where
  source_eq : written.source = field.name
  without : field.default? = none → written.defaultAttributes struct.name = []
  function : ∀ literal, field.default? = some literal → ∃ function,
    written.defaultAttributes struct.name = [functionAttribute struct.name function] ∧
    (struct.functions.filter fun other => other.name = function.name) = [function] ∧
    function.type = written.type ∧
    (Regular literal → ∃ kind, field.type = .primitive kind ∧
      IsExpression (defaultType kind field.optional) function.body.text.toList ∧
      ("Some(".toList <+: function.body.text.toList ↔ field.optional = true) ∧
      (HasType structs function.type function.body ↔ builtInName kind ∉ structs))

/-- Where no key occurs twice, an element is the only one with its key. -/
theorem filter_key_eq_singleton {α β : Type} [DecidableEq β] {key : α → β} {elements : List α}
    (h : (elements.map key).Nodup) {a : α} (ha : a ∈ elements) :
    (elements.filter fun other => key other = key a) = [a] := by
  induction elements with
  | nil => exact absurd ha List.not_mem_nil
  | cons b rest ih =>
    rw [List.map_cons, List.nodup_cons] at h
    rcases List.mem_cons.mp ha with rfl | ha
    · have hrest : (rest.filter fun other => key other = key a) = [] := by
        refine List.filter_eq_nil_iff.mpr fun other hother hkey => h.1 ?_
        rw [← of_decide_eq_true hkey]
        exact List.mem_map_of_mem hother
      rw [List.filter_cons_of_pos (by simp), hrest]
    · have hne : key b ≠ key a := fun hkey => h.1 (hkey ▸ List.mem_map_of_mem ha)
      rw [List.filter_cons_of_neg (by simpa using hne), ih h.2 ha]

/-- A type of values is optional exactly if the field is. -/
theorem exists_defaultType_eq_option_iff (kind : Primitive) (optional : Bool) :
    (∃ value, defaultType kind optional = .option value) ↔ optional = true := by
  cases optional with
  | true => exact iff_of_true ⟨_, rfl⟩ rfl
  | false => cases kind <;> simp [defaultType, valueTypeOf]

/-- The fields of a type whose default functions have different names come out so. -/
theorem fieldDefault_structField {structs : List String} (hoption : "Option" ∉ structs)
    {names : NameTable} {type : TypeNode}
    (hdistinct : ((structOf names type).functions.map DefaultFunction.name).Nodup) {field : Field}
    (hfield : field ∈ type.fields) (hsuits : field.Suits type.id) :
    FieldDefault structs (structOf names type) field
      (structField names type.id.namespacePath field) := by
  refine ⟨rfl, fun hnone => ?_, fun literal hliteral => ?_⟩
  · have hfunction : (structField names type.id.namespacePath field).defaultFunction? = none := by
      rw [StructField.defaultFunction?, structField, hnone]
      cases field.optional <;> rfl
    rw [defaultAttributes_eq, hfunction, Option.map_none, Option.toList_none]
  · have hfunction : (structField names type.id.namespacePath field).defaultFunction? =
        some ⟨defaultFunctionName (names.field field.id),
          fieldType names type.id.namespacePath field, defaultExpr field literal⟩ := by
      rw [StructField.defaultFunction?, structField, hliteral]
    have hfits := hsuits.default_fits literal hliteral
    refine ⟨_, by rw [defaultAttributes_eq, hfunction, Option.map_some, Option.toList_some],
      filter_key_eq_singleton hdistinct ?_, rfl, fun hregular => ?_⟩
    · exact List.mem_filterMap.mpr ⟨_, List.mem_map_of_mem hfield, hfunction⟩
    · obtain ⟨kind, hkind⟩ := exists_primitive_of_fits hfits
      have hexpression := isExpression_defaultExpr hkind hfits hregular
      refine ⟨kind, hkind, hexpression, ?_, hasType_defaultExpr_iff hoption names
        _ hkind hfits hregular⟩
      rw [some_prefix_iff hexpression, exists_defaultType_eq_option_iff]

/-! ## Blocks of functions -/

/-- One line of a struct starts with `impl`, if there are default functions: the one that opens
their block. -/
theorem linesStarting_impl_struct (struct : Struct) :
    linesStarting "impl " struct.lines = if struct.functions.isEmpty then []
    else [struct.implLine] := by
  have hplain : ∀ lines : List String, (∀ line ∈ lines, firstChar? line ≠ some 'i') →
      linesStarting "impl " lines = [] := fun lines => linesStarting_eq_nil rfl
  have hdoc : linesStarting "impl " (docComment "" struct.doc) = [] := by
    refine hplain _ fun line hline => ?_
    rcases firstChar?_of_mem_docComment (.inl rfl) hline with h | h <;> simp [h]
  have hderive :
      linesStarting "impl " ["#[derive(Debug, Clone, PartialEq, Serialize, Deserialize)]"] =
        [] := by decide
  have hopening : ∀ more, linesStarting "impl " ["pub struct " ++ struct.name ++ more] = [] := by
    intro more
    refine hplain _ fun line hline => ?_
    obtain rfl := List.mem_singleton.mp hline
    rw [firstChar?_append (firstChar?_append (c := 'p') rfl _) _]
    decide
  have hfields : linesStarting "impl " (struct.fields.flatMap (StructField.lines struct.name)) =
      [] := by
    refine hplain _ fun line hline => ?_
    obtain ⟨field, -, hfield⟩ := List.mem_flatMap.mp hline
    rcases firstChar?_of_mem_fieldLines hfield with h | h <;> simp [h]
  have hfunctions : linesStarting "impl " (functionLines struct.functions) = [] := by
    refine hplain _ fun line hline => ?_
    rcases firstChar?_of_mem_functionLines hline with h | h <;> simp [h]
  have hend : linesStarting "impl " ["\x7d"] = [] := by decide
  have hempty : linesStarting "impl " [""] = [] := by decide
  have himpl : linesStarting "impl " [struct.implLine] = [struct.implLine] := by
    rw [Struct.implLine, String.append_assoc]
    exact linesStarting_cons_append "impl " _ []
  rw [Struct.lines, linesStarting_append, linesStarting_cons, hdoc, hderive,
    List.nil_append, List.nil_append]
  split
  · next hnone =>
    have hfunctions : struct.functions = [] := by simp [Struct.functions, List.isEmpty_iff.mp hnone]
    rw [hopening, hfunctions]
    rfl
  · change linesStarting "impl " (_ ++ _ ++ _ ++ if struct.functions.isEmpty then [] else
      ["", struct.implLine] ++ functionLines struct.functions ++ ["\x7d"]) = _
    rw [linesStarting_append, linesStarting_append, linesStarting_append, hopening, hfields,
      hend, List.nil_append, List.nil_append, List.nil_append]
    split
    · rfl
    · rw [linesStarting_append, linesStarting_append, linesStarting_cons, hempty,
        himpl, hfunctions, hend]
      rfl

/-- The lines of a module that start so open the blocks of the structs with default functions. -/
theorem linesStarting_impl_module (module : Module) :
    linesStarting "impl " module.lines =
      (module.structs.filter fun struct => !struct.functions.isEmpty).map Struct.implLine := by
  have hhead : linesStarting "impl " ["// " ++ banner, "",
        "use serde::\x7bDeserialize, Serialize\x7d;"] = [] := by decide
  have hempty : linesStarting "impl " [""] = [] := by decide
  rw [Module.lines, linesStarting_append, hhead, List.nil_append, linesStarting_flatMap]
  induction module.structs with
  | nil => rfl
  | cons struct rest ih =>
    rw [List.flatMap_cons, linesStarting_cons, hempty, List.nil_append, linesStarting_impl_struct,
      ih, List.filter_cons]
    cases struct.functions.isEmpty <;> rfl

/-- Where structs have different names, one with default functions has one block. -/
theorem count_implLine {module : Module} (hnames : (module.structs.map Struct.name).Nodup)
    {struct : Struct} (hstruct : struct ∈ module.structs) :
    module.lines.count struct.implLine = if struct.functions.isEmpty then 0 else 1 := by
  have hline : ∀ other : Struct, other.implLine = struct.implLine → other.name = struct.name := by
    intro other h
    exact (String.append_right_inj _).mp ((String.append_left_inj _).mp h)
  have hlines : ((module.structs.filter fun struct => !struct.functions.isEmpty).map
        Struct.implLine).Nodup := by
    refine List.Nodup.map_on (fun a ha b hb h => ?_) (hnames.of_map.filter _)
    refine List.inj_on_of_nodup_map hnames (List.mem_of_mem_filter ha)
      (List.mem_of_mem_filter hb) ?_
    exact (String.append_right_inj _).mp ((String.append_left_inj _).mp h)
  have hstarts : "impl ".toList.isPrefixOf struct.implLine.toList = true := by
    rw [List.isPrefixOf_iff_prefix, Struct.implLine, String.append_assoc, String.toList_append]
    exact List.prefix_append _ _
  rw [← List.count_filter (p := fun line : String => "impl ".toList.isPrefixOf line.toList) hstarts]
  change (linesStarting "impl " module.lines).count struct.implLine = _
  rw [linesStarting_impl_module, hlines.count]
  split
  · next hmem =>
    obtain ⟨other, hother, hsame⟩ := List.mem_map.mp hmem
    obtain ⟨hin, hsome⟩ := List.mem_filter.mp hother
    obtain rfl := List.inj_on_of_nodup_map hnames hin hstruct (hline other hsame)
    rw [if_neg (by simpa using hsome)]
  · next hnot =>
    refine (if_pos ?_).symm
    by_contra hsome
    exact hnot (List.mem_map_of_mem (List.mem_filter.mpr ⟨hstruct, by simpa using hsome⟩))

/-- The block of a struct's default functions stands in the module. -/
theorem implBlock_infix {module : Module} {struct : Struct} (hstruct : struct ∈ module.structs)
    (hsome : struct.functions ≠ []) :
    struct.implLine :: functionLines struct.functions ++ ["\x7d"] <:+: module.lines := by
  have hfields : struct.fields ≠ [] := fun hnone => hsome (by simp [Struct.functions, hnone])
  have hlines : struct.implLine :: functionLines struct.functions ++ ["\x7d"] <:+ struct.lines := by
    rw [Struct.lines, if_neg (by simpa using hfields)]
    change _ <:+ _ ++ _ :: (_ ++ _ ++ _ ++ if struct.functions.isEmpty then [] else
      ["", struct.implLine] ++ functionLines struct.functions ++ ["\x7d"])
    rw [if_neg (by simpa using hsome)]
    refine .trans ?_ (List.suffix_append _ _)
    refine .trans ?_ (List.suffix_cons _ _)
    refine .trans ?_ (List.suffix_append _ _)
    exact List.suffix_cons "" _
  refine hlines.isInfix.trans ?_
  obtain ⟨before, behind, hsplit⟩ := List.append_of_mem hstruct
  rw [Module.lines, hsplit, List.flatMap_append, List.flatMap_cons]
  refine .trans ?_ (List.suffix_append _ _).isInfix
  exact ⟨(before.flatMap fun struct => "" :: struct.lines) ++ [""],
    behind.flatMap fun struct => "" :: struct.lines, by simp⟩

/-! ## Built modules -/

/-- How the struct of a type stands in a module with its default functions. They have different
names. If there are any, the module has one `impl` block for the struct, with these functions. And
every field comes out with its default value. -/
structure DefaultsDefined (options : NamingOptions) (module : Module) (type : TypeNode)
    (struct : Struct) : Prop where
  name_eq : struct.name = structName options type
  impl_count : module.lines.count struct.implLine = if struct.functions.isEmpty then 0 else 1
  impl_block : struct.functions ≠ [] →
    struct.implLine :: functionLines struct.functions ++ ["\x7d"] <:+: module.lines
  functions_nodup : (struct.functions.map DefaultFunction.name).Nodup
  fields : List.Forall₂ (FieldDefault (module.structs.map Struct.name) struct)
    type.fields struct.fields

/-- Modules are built only if the default functions of each struct have different names. -/
theorem functions_nodup_of_build {options : NamingOptions} {graph : TypeGraph}
    {modules : List Module} (h : build options graph = .ok modules) :
    ∃ names, namesOf options graph = .ok names ∧
      modules = graph.namespaces.map (moduleOf names graph) ∧
      ∀ type ∈ graph.types, ((structOf names type).functions.map DefaultFunction.name).Nodup := by
  unfold build at h
  split at h
  · contradiction
  split at h
  · contradiction
  next names hnames =>
  split at h
  · contradiction
  next hnone =>
  refine ⟨names, hnames, (Except.ok.inj h).symm, fun type htype => ?_⟩
  have hdistinct :=
    (collisionIn?_eq_none_iff _ _ _).mp (List.findSome?_eq_none_iff.mp hnone type htype)
  rw [Struct.defaultNames, List.map_filterMap] at hdistinct
  rw [Struct.functions, List.map_filterMap]
  simpa only [Option.map_map, Function.comp_def] using hdistinct

/-- In the modules of a built graph, the default functions of all structs stand as they should. -/
theorem defaultsDefined_of_build (files : List Schema.SchemaFile) (graph : TypeGraph)
    (options : NamingOptions) (modules : List Module) (hbuild : Graph.build files = .ok graph)
    (hmodules : build options graph = .ok modules) :
    List.Forall₂ (fun namespacePath module =>
      List.Forall₂ (DefaultsDefined options module) (graph.typesIn namespacePath) module.structs)
      graph.namespaces modules := by
  obtain ⟨names, hnames, rfl, hfunctions⟩ := functions_nodup_of_build hmodules
  have hdistinct := (Graph.linked_of_build hbuild).distinct
  obtain ⟨-, hgroups, -⟩ := (nameTable_build_eq_ok_iff _ _ _ _ _ _).mp hnames
  refine List.forall₂_map_right_iff.mpr (List.forall₂_same.mpr fun namespacePath hmem => ?_)
  have hstructs : (moduleOf names graph namespacePath).structs.map Struct.name =
      (graph.typesIn namespacePath).map (structName options) := by
    rw [moduleOf, List.map_map]
    exact List.map_congr_left fun type htype => nameTable_type_eq hdistinct hnames
      (mem_typesIn_iff.mp htype).1
  have hnodup : ((moduleOf names graph namespacePath).structs.map Struct.name).Nodup := by
    rw [hstructs]
    exact hgroups _ (List.mem_map_of_mem hmem)
  have hoption : "Option" ∉ (moduleOf names graph namespacePath).structs.map Struct.name := by
    rw [hstructs]
    intro hmem
    obtain ⟨type, -, hname⟩ := List.mem_map.mp hmem
    have hreserved : structName options type ∉ reserved := (text_identFor_not_mem _).1
    exact hreserved (hname ▸ by decide)
  refine List.forall₂_map_right_iff.mpr (List.forall₂_same.mpr fun type htype => ?_)
  have htypes := (mem_typesIn_iff.mp htype).1
  have hstruct : structOf names type ∈ (moduleOf names graph namespacePath).structs :=
    List.mem_map_of_mem htype
  refine ⟨nameTable_type_eq hdistinct hnames htypes, count_implLine hnodup hstruct,
    implBlock_infix hstruct, hfunctions type htypes, List.forall₂_map_right_iff.mpr
      (List.forall₂_same.mpr fun field hfield => ?_)⟩
  exact fieldDefault_structField hoption (hfunctions type htypes) hfield
    (Graph.suits_of_build hbuild htypes hfield)

/-- A type with a field of any kind, an optional field and a field without a default value. -/
def sampleDefaults : List Schema.SchemaFile :=
  [⟨"a.schema", "",
    [⟨"A", "", [⟨"a", .named [] "any", false, some (.integer 1), [], none, .nowhere⟩,
    ⟨"b", .named [] "string", true, some (.text "x"), [], none, .nowhere⟩,
    ⟨"c", .named [] "int", true, none, [], none, .nowhere⟩], none, .nowhere⟩]⟩]

/-- The graph of the type with a field of any kind, an optional field and a field without a default
value. -/
def defaultsGraph : TypeGraph :=
  ⟨[⟨⟨"", "A"⟩,
    [⟨⟨⟨"", "A"⟩, "a"⟩, .primitive .any, false, some (.integer 1), [], none, false, .nowhere⟩,
    ⟨⟨⟨"", "A"⟩, "b"⟩, .primitive .string, true, some (.text "x"), [], none, false, .nowhere⟩,
    ⟨⟨⟨"", "A"⟩, "c"⟩, .primitive .int, true, none, [], none, false, .nowhere⟩], none, .nowhere⟩]⟩

/-- The struct of that type has one block with two functions, which the attributes of two fields
name. -/
theorem defaultsDefined_sampleDefaults : ∃ modules, Graph.build sampleDefaults = .ok defaultsGraph ∧
    build keptNaming defaultsGraph = .ok modules ∧
    List.Forall₂ (fun namespacePath module =>
      List.Forall₂ (DefaultsDefined keptNaming module) (defaultsGraph.typesIn namespacePath)
        module.structs)
      defaultsGraph.namespaces modules ∧
    modules.flatMap (fun module => module.structs.flatMap Struct.lines) =
      ["#[derive(Debug, Clone, PartialEq, Serialize, Deserialize)]", "pub struct A \x7b",
        "    #[serde(default = \"A::default_a\")]", "    pub a: serde_json::Value,",
        "    #[serde(default = \"A::default_b\")]", "    pub b: Option<String>,",
        "    #[serde(default, skip_serializing_if = \"Option::is_none\")]",
        "    pub c: Option<i64>,", "\x7d", "", "impl A \x7b",
        "    fn default_a() -> serde_json::Value \x7b", "        serde_json::Value::from(1_i64)",
        "    \x7d", "", "    fn default_b() -> Option<String> \x7b",
        "        Some(\"x\".to_string())", "    \x7d", "\x7d"] := by
  have hbuild : Graph.build sampleDefaults = .ok defaultsGraph := by cbv
  have hmade : (build keptNaming defaultsGraph).toOption.map (fun modules =>
      modules.flatMap (fun module => module.structs.flatMap Struct.lines)) =
      some ["#[derive(Debug, Clone, PartialEq, Serialize, Deserialize)]", "pub struct A \x7b",
        "    #[serde(default = \"A::default_a\")]", "    pub a: serde_json::Value,",
        "    #[serde(default = \"A::default_b\")]", "    pub b: Option<String>,",
        "    #[serde(default, skip_serializing_if = \"Option::is_none\")]",
        "    pub c: Option<i64>,", "\x7d", "", "impl A \x7b",
        "    fn default_a() -> serde_json::Value \x7b", "        serde_json::Value::from(1_i64)",
        "    \x7d", "", "    fn default_b() -> Option<String> \x7b",
        "        Some(\"x\".to_string())", "    \x7d", "\x7d"] := by
    decide +kernel
  obtain ⟨modules, hmodules, hlines⟩ := Option.map_eq_some_iff.mp hmade
  have hstructs := eq_ok_of_toOption hmodules
  exact ⟨modules, hbuild, hstructs, defaultsDefined_of_build sampleDefaults defaultsGraph keptNaming
    modules hbuild hstructs, hlines⟩

/-- A type with a field that has an integer as its default value, and one that is named like the
built-in type of integers. -/
def sampleHidden : List Schema.SchemaFile :=
  [⟨"a.schema", "",
    [⟨"A", "", [⟨"x", .named [] "int", false, some (.integer 3), [], none, .nowhere⟩],
      none, .nowhere⟩,
    ⟨"i64", "", [], none, .nowhere⟩]⟩]

/-- The default function of a field whose built-in type is hidden gives an integer, but what it is
declared to return is the struct. -/
theorem exists_function_not_hasType : ∃ graph modules, Graph.build sampleHidden = .ok graph ∧
    build keptNaming graph = .ok modules ∧
    ∃ module ∈ modules, ∃ struct ∈ module.structs, ∃ function ∈ struct.functions,
      function.lines = ["    fn default_x() -> i64 \x7b", "        3_i64", "    \x7d"] ∧
      ¬ HasType (module.structs.map Struct.name) function.type function.body := by
  have hbuild : Graph.build sampleHidden =
      .ok ⟨[⟨⟨"", "A"⟩,
        [⟨⟨⟨"", "A"⟩, "x"⟩, .primitive .int, false, some (.integer 3), [], none, false, .nowhere⟩],
        none, .nowhere⟩, ⟨⟨"", "i64"⟩, [], none, .nowhere⟩]⟩ := by cbv
  have hlines : DefaultFunction.lines ⟨"default_x", .int64, .int64 3⟩ =
      ["    fn default_x() -> i64 \x7b", "        3_i64", "    \x7d"] := by decide +kernel
  refine ⟨_, [⟨"types",
    [⟨"A", [], [⟨"x", "x", [], .int64, .computed ⟨"default_x", .int64, .int64 3⟩⟩]⟩,
      ⟨"i64", [], []⟩]⟩],
    hbuild, eq_ok_of_toOption (by decide +kernel), _, List.mem_cons_self, _, List.mem_cons_self,
    ⟨"default_x", .int64, .int64 3⟩, by decide, hlines, ?_⟩
  rintro ⟨type, htype, -⟩
  have hhidden : RustType.int64.valueType? ["A", "i64"] = none := by decide
  exact absurd (hhidden.symm.trans htype) (by simp)

end SchemaBindings.Bindings.RustModules
