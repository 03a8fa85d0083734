import SchemaBindings.Proofs.Bindings.DefaultFunctions
import SchemaBindings.Proofs.Naming.SnakeCase

/-!
# Default functions of fields in snake case

The name of a default function is made from the written name of its field, which is put in snake
case for that. Where fields are in snake case already, that changes nothing, unless the name had to
be escaped.
-/

namespace SchemaBindings.Bindings.RustModules

open SchemaBindings.Graph (Field)
open SchemaBindings.Naming (Case isWord_apply snake_eq_snake_iff snake_snake splitWords)
open SchemaBindings.Schema (IsIdentifier)
open SchemaBindings.Text (toLower)

/-- A name in snake case that is neither a keyword nor reserved is written as it is, and so it is in
the name of the default function. -/
theorem defaultFunctionName_snake {name : String} (h : IsIdentifier name)
    (hkeyword : Case.snake.apply name ∉ keywords) (hreserved : Case.snake.apply name ∉ reserved) :
    (identFor (Case.snake.apply name)).text = Case.snake.apply name ∧
      defaultFunctionName (Case.snake.apply name) = "default_" ++ Case.snake.apply name := by
  have hplain : '#' ∉ (Case.snake.apply name).toList := fun hmem =>
    absurd ((isWord_apply .snake h).2 '#' hmem) (by decide)
  refine ⟨?_, by rw [defaultFunctionName, unraw_eq_self hplain, snake_snake h]⟩
  rw [identFor, if_neg hkeyword, escape, if_neg hreserved, Ident.text, if_neg Bool.false_ne_true]

/-- Every field of a built struct is written under the name computed for a field of the graph. -/
theorem exists_field_of_build {files : List Schema.SchemaFile} {graph : TypeGraph}
    {options : NamingOptions} {modules : List Module} (hbuild : Graph.build files = .ok graph)
    (hmodules : build options graph = .ok modules) {module : Module} (hmodule : module ∈ modules)
    {struct : Struct} (hstruct : struct ∈ module.structs) {written : StructField}
    (hwritten : written ∈ struct.fields) : ∃ field : Field, written.source = field.name ∧
      written.name = fieldName options field ∧
        ∀ function, written.defaultFunction? = some function →
        function.name = defaultFunctionName (fieldName options field) := by
  obtain ⟨-, names, hnames, rfl⟩ := build_eq_ok hmodules
  obtain ⟨namespacePath, -, rfl⟩ := List.mem_map.mp hmodule
  obtain ⟨type, htype, rfl⟩ := List.mem_map.mp hstruct
  obtain ⟨field, hfield, rfl⟩ := List.mem_map.mp hwritten
  have hname :=
    nameTable_field_eq (Graph.fieldIds_nodup_of_build hbuild) hnames
      (mem_typesIn_iff.mp htype).1 hfield
  refine ⟨field, rfl, hname, fun function hfunction => ?_⟩
  rw [← hname]
  unfold StructField.defaultFunction? structField at hfunction
  cases hdefault : field.default? with
  | none =>
    cases hoptional : field.optional <;> simp [hdefault, hoptional] at hfunction
  | some literal =>
    simp only [hdefault, Option.some.injEq] at hfunction
    rw [← hfunction]

/-- Snake case is the same when it is applied twice, and it is the same for two identifiers exactly
if their words are the same up to case, or if they have no words and are the same. So where fields
are in snake case, the default function of a field that is not escaped is called like the field is
written. -/
theorem snake_case_settled :
    (∀ name, IsIdentifier name → Case.snake.apply (Case.snake.apply name) = Case.snake.apply name) ∧
    (∀ name other, IsIdentifier name → IsIdentifier other →
      (Case.snake.apply name = Case.snake.apply other ↔
      (splitWords name.toList ≠ [] ∧ (splitWords name.toList).map toLower =
        (splitWords other.toList).map toLower) ∨
        (splitWords name.toList = [] ∧ name = other))) ∧
    ∀ files graph options modules, Graph.build files = .ok graph →
      build options graph = .ok modules →
      options.fields?.getD Language.rust.fieldCase = .snake →
      ∀ module ∈ modules, ∀ struct ∈ module.structs, ∀ field ∈ struct.fields,
        IsIdentifier field.source →
        Case.snake.apply field.source ∉ keywords → Case.snake.apply field.source ∉ reserved →
        field.name = Case.snake.apply field.source ∧
          ∀ function, field.defaultFunction? = some function →
            function.name = "default_" ++ field.name := by
  refine ⟨fun name => snake_snake, fun name other => snake_eq_snake_iff, ?_⟩
  intro files graph options modules hbuild hmodules hcase module hmodule struct hstruct
    written hwritten hidentifier hkeyword hreserved
  obtain ⟨field, hsource, hname, hfunction⟩ :=
    exists_field_of_build hbuild hmodules hmodule hstruct hwritten
  have hsnake : fieldName options field = (identFor (Case.snake.apply field.name)).text := by
    rw [fieldName, NamingOptions.fieldName, hcase]
  rw [hsource] at hidentifier hkeyword hreserved ⊢
  obtain ⟨hplain, hdefault⟩ := defaultFunctionName_snake hidentifier hkeyword hreserved
  rw [hplain] at hsnake
  refine ⟨hname.trans hsnake, fun function hsome => ?_⟩
  rw [hfunction function hsome, hname, hsnake, hdefault]

/-- A type with a default value for a field with capitals. -/
def sampleCapitals : List Schema.SchemaFile :=
  [⟨"a.schema", "",
    [⟨"A", "", [⟨"maxHTTPSize2D", .named [] "int", false, some (.integer 3), [], none, .nowhere⟩],
      none,
    .nowhere⟩]⟩]

/-- The module of the type with a default value for a field with capitals. -/
def capitalsModule : Module :=
  ⟨"types", [⟨"A", [], [⟨"maxHTTPSize2D", "max_http_size2_d", [], .int64,
    .computed ⟨"default_max_http_size2_d", .int64, .int64 3⟩⟩]⟩]⟩

/-- A field with capitals is written in snake case, which is the same as that of another spelling,
and its default function is called like the field. -/
theorem snake_case_settled_sampleCapitals : ∃ graph, Graph.build sampleCapitals = .ok graph ∧
    build .none graph = .ok [capitalsModule] ∧
    Case.snake.apply (Case.snake.apply "maxHTTPSize2D") = Case.snake.apply "maxHTTPSize2D" ∧
    Case.snake.apply "maxHTTPSize2D" = Case.snake.apply "_MAX_Http_size2D" ∧
    ∀ struct ∈ capitalsModule.structs, ∀ field ∈ struct.fields, field.name =
        Case.snake.apply field.source ∧
      ∀ function, field.defaultFunction? = some function →
        function.name = "default_" ++ field.name := by
  have hbuild : Graph.build sampleCapitals =
      .ok ⟨[⟨⟨"", "A"⟩, [⟨⟨⟨"", "A"⟩, "maxHTTPSize2D"⟩, .primitive .int, false,
      some (.integer 3), [], none, false, .nowhere⟩], none, .nowhere⟩]⟩ := by cbv
  have hmodules : build .none ⟨[⟨⟨"", "A"⟩, [⟨⟨⟨"", "A"⟩, "maxHTTPSize2D"⟩, .primitive .int, false,
      some (.integer 3), [], none, false, .nowhere⟩], none, .nowhere⟩]⟩ = .ok [capitalsModule] :=
    eq_ok_of_toOption (by decide +kernel)
  have hidentifier : IsIdentifier "maxHTTPSize2D" := by decide
  refine ⟨_, hbuild, hmodules, snake_case_settled.1 _ hidentifier,
    (snake_case_settled.2.1 _ "_MAX_Http_size2D" hidentifier (by decide)).mpr
    (by decide +kernel), ?_⟩
  intro struct hstruct field hfield
  obtain rfl := List.mem_singleton.mp hstruct
  obtain rfl := List.mem_singleton.mp hfield
  exact snake_case_settled.2.2 _ _ _ _ hbuild hmodules rfl _ List.mem_cons_self _ List.mem_cons_self
    _ List.mem_cons_self hidentifier (by decide) (by decide)

end SchemaBindings.Bindings.RustModules
