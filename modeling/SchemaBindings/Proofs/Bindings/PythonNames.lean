import SchemaBindings.Proofs.Bindings.ClassScope
import SchemaBindings.Proofs.Bindings.CodeNames

/-!
# The names in the statements of Python classes

The statements of a class are those that set the configuration and declare the attributes. What
names they are written with is seen from the hints and the initialisers. A class imports the names
of libraries that these need, and exactly those are among the names of its statements, since no name
of the schema is written like one of them.

Where the names of the schema are words, they are also what is found if the lines are scanned.
-/

namespace SchemaBindings.Bindings.PythonPackage

open SchemaBindings.Bindings.Code
open SchemaBindings.Naming (IsWord)
open SchemaBindings.Number (Binary64 exists_text_eq_signed toList_toString_int)
open SchemaBindings.Schema (Avoids isDigits_toDigits signed_append startsWithDigit)

/-! ## Names of libraries -/

/-- A name that modules import from a library. -/
inductive LibraryName where
  | typing (name : TypingName)
  | pydantic (name : PydanticName)
deriving DecidableEq

/-- The text of a name of a library. -/
def LibraryName.text : LibraryName → String
  | .typing name => name.text
  | .pydantic name => name.text

/-- The texts of the names of libraries. -/
def libraryTexts : List String :=
  ["Annotated", "Any", "List", "Optional", "AnyUrl", "BaseModel", "ConfigDict", "Field"]

/-- The text of every name of a library is among these texts. -/
theorem LibraryName.text_mem (name : LibraryName) : name.text ∈ libraryTexts := by
  rcases name with name | name <;> cases name <;> decide

/-- Different names of libraries have different texts. -/
theorem LibraryName.text_injective : Function.Injective LibraryName.text := by
  intro name other h
  rcases name with name | name <;> rcases other with other | other <;>
    cases name <;> cases other <;>
    first | rfl | exact absurd h (by decide)

/-- The names of libraries are reserved, so no name of the schema is written like one of them. -/
theorem LibraryName.text_mem_reserved (name : LibraryName) : name.text ∈ reserved := by
  have hsubset : ∀ text ∈ libraryTexts, text ∈ reserved := by decide
  exact hsubset _ name.text_mem

/-- Any other word differs from all of them. -/
theorem LibraryName.text_ne {word : String} (h : word ∉ libraryTexts) (name : LibraryName) :
    name.text ≠ word :=
  fun heq => h (heq ▸ name.text_mem)

/-- Any word that is not reserved differs from all names of libraries. -/
theorem LibraryName.text_ne_of_unreserved {word : String} (h : word ∉ reserved)
    (name : LibraryName) :
    name.text ≠ word :=
  fun heq => h (heq ▸ name.text_mem_reserved)

/-- No number is written like one, since there is a capital letter in each of them. -/
theorem LibraryName.exists_isUpper (name : LibraryName) :
    ∃ c ∈ name.text.toList, c.isUpper = true := by
  have hcapital : ∀ text ∈ libraryTexts, text.toList.any Char.isUpper = true := by decide
  exact List.any_eq_true.mp (hcapital _ name.text_mem)

/-- Whether a text mentions the given names of libraries and no others, and refers to no module. -/
def Mentions (text : List Char) (names : List LibraryName) : Prop :=
  ∃ found, HasPaths text found ∧ (∀ name : LibraryName, name.text ∈ found.flatten ↔ name ∈ names) ∧
    found.filterMap reference? = []

/-- A word that is not the text of a name of a library mentions nothing. -/
theorem mentions_word {word : String} (h : IsWord word) (hother : word ∉ libraryTexts) :
    Mentions word.toList [] := by
  refine ⟨[[word]], .word h, fun name => ?_, rfl⟩
  simpa using name.text_ne hother

/-- Numbers mention nothing. -/
theorem mentions_of_isNumber {text : List Char}
    (h : ∃ found, HasPaths text found ∧ ∀ path ∈ found, IsNumber path) : Mentions text [] := by
  obtain ⟨found, hfound, hnumbers⟩ := h
  refine ⟨found, hfound, fun name => iff_of_false (fun hmem => ?_) List.not_mem_nil, ?_⟩
  · obtain ⟨path, hpath, hword⟩ := List.mem_flatten.mp hmem
    obtain ⟨c, hc, hupper⟩ := name.exists_isUpper
    exact absurd hupper (by simp [(hnumbers path hpath).small _ hword c hc])
  · exact List.filterMap_eq_nil_iff.mpr fun path hpath => (hnumbers path hpath).reference

/-- What is found in a text are the names that it mentions. -/
theorem Mentions.paths_spec {text : List Char} {names : List LibraryName}
    (h : Mentions text names) :
    HasPaths text (paths text) ∧
      (∀ name : LibraryName, name.text ∈ (paths text).flatten ↔ name ∈ names) ∧
      (paths text).filterMap reference? = [] := by
  obtain ⟨found, hfound, hrest⟩ := h
  rw [hfound.paths_eq]
  exact ⟨hfound, hrest⟩

/-! ## Values -/

/-- An integer mentions nothing. -/
theorem mentions_integer (value : Int) : Mentions (toString value).toList [] := by
  obtain ⟨hdigit, hparts⟩ := number_of_isDigits (isDigits_toDigits value.natAbs) []
  rw [List.append_nil] at hdigit
  obtain ⟨found, hfound, hnumbers⟩ := HasPaths.number hdigit hparts
  rw [toList_toString_int]
  exact mentions_of_isNumber ⟨found, hfound.signed _, hnumbers⟩

/-- An integer that is written as a floating-point number mentions nothing. -/
theorem mentions_wholeFloat (value : Int) : Mentions (toString value ++ ".0").toList [] := by
  obtain ⟨hdigit, hparts⟩ := number_of_isDigits (isDigits_toDigits value.natAbs) ".0".toList
  have hzero : ".0".toList.all isNumberPart = true := by decide
  obtain ⟨found, hfound, hnumbers⟩ := HasPaths.number hdigit
    (List.forall_mem_append.mpr ⟨hparts, List.all_eq_true.mp hzero⟩)
  rw [String.toList_append, toList_toString_int, ← signed_append]
  exact mentions_of_isNumber ⟨found, hfound.signed _, hnumbers⟩

/-- A floating-point number is written with digits, or with a word if it is not finite. -/
theorem mentions_float (value : Binary64) : Mentions value.text.toList [] := by
  by_cases hfinite : value.IsFinite
  · obtain ⟨negative, magnitude, hdecimal, htext⟩ := exists_text_eq_signed hfinite
    obtain ⟨found, hfound, hnumbers⟩ := HasPaths.decimal hdecimal
    rw [htext]
    exact mentions_of_isNumber ⟨found, hfound.signed _, hnumbers⟩
  · cases value with
    | nan => exact mentions_word (show IsWord "NaN" by decide) (by decide)
    | infinite negative =>
      cases negative with
      | false => exact mentions_word (show IsWord "inf" by decide) (by decide)
      | true =>
        obtain ⟨found, hfound, hmentions⟩ := mentions_word (show IsWord "inf" by decide) (by decide)
        exact ⟨found, .mark (show isMark '-' = true by decide) hfound, hmentions⟩
    | finite negative mantissa exponent => exact absurd trivial hfinite

/-- No value mentions a name of a library. -/
theorem Value.mentions (value : Value) : Mentions value.text.toList [] := by
  cases value with
  | none => exact mentions_word (show IsWord "None" by decide) (by decide)
  | integer value => exact mentions_integer value
  | wholeFloat value => exact mentions_wholeFloat value
  | float value => exact mentions_float value
  | boolean value =>
    cases value with
    | false => exact mentions_word (show IsWord "False" by decide) (by decide)
    | true => exact mentions_word (show IsWord "True" by decide) (by decide)
  | string content => exact ⟨[], .literal content, by simp, rfl⟩

/-- The names of libraries that an initialiser needs. -/
def Initialiser.libraryNames : Initialiser → List LibraryName
  | .plain _ => []
  | .field _ _ => [.pydantic .field]

/-- An initialiser mentions those that it needs. -/
theorem Initialiser.mentions (initialiser : Initialiser) :
    Mentions initialiser.text.toList initialiser.libraryNames := by
  have hfield {found : List (List String)}
      (hnames : ∀ name : LibraryName, name.text ∉ found.flatten) (name : LibraryName) :
      name.text ∈ (["Field"] :: found).flatten ↔ name ∈ [LibraryName.pydantic .field] := by
    rw [List.flatten_cons, List.mem_append, List.mem_singleton, List.mem_singleton,
      or_iff_left (hnames name)]
    exact LibraryName.text_injective.eq_iff (b := .pydantic .field)
  have hdefault := LibraryName.text_ne (show "default" ∉ libraryTexts by decide)
  have halias := LibraryName.text_ne (show "alias" ∉ libraryTexts by decide)
  have hclosing : Joins ")" [] := by decide
  cases initialiser with
  | plain value => exact value.mentions
  | field default? key =>
    cases default? with
    | none =>
      have hpaths : HasPaths ("Field(alias=".toList ++ ((quote key).toList ++ ")".toList))
          [["Field"], ["alias"]] :=
        .opened (show Opens "Field(alias=" [["Field"], ["alias"]] by decide)
        ((HasPaths.literal key).closed hclosing)
      refine ⟨["Field"] :: [["alias"]], ?_, hfield fun name => ?_, rfl⟩
      · change HasPaths ("Field(alias=" ++ quote key ++ ")").toList _
        simpa only [String.toList_append, List.append_assoc] using hpaths
      · simpa using halias name
    | some value =>
      obtain ⟨found, hfound, hnames, hreferences⟩ := value.mentions
      have hpaths : HasPaths ("Field(default=".toList ++ (value.text.toList ++ (", alias=".toList ++
          ((quote key).toList ++ ")".toList)))) (["Field"] :: ["default"] ::
            (found ++ [["alias"]])) :=
        .opened (show Opens "Field(default=" [["Field"], ["default"]] by decide)
          (hfound.joined (show Joins ", alias=" [["alias"]] by decide)
            ((HasPaths.literal key).closed hclosing))
      refine ⟨["Field"] :: ["default"] :: (found ++ [["alias"]]), ?_, hfield fun name => ?_, ?_⟩
      · change HasPaths ("Field(default=" ++ value.text ++ ", alias=" ++ quote key ++ ")").toList _
        simpa only [String.toList_append, List.append_assoc] using hpaths
      · have hvalue : name.text ∉ found.flatten := mt (hnames name).mp List.not_mem_nil
        simp only [List.flatten_cons, List.flatten_append, List.flatten_nil, List.mem_append,
          List.mem_singleton, List.append_nil, not_or]
        exact ⟨hdefault name, hvalue, halias name⟩
      · change (found ++ [["alias"]]).filterMap reference? = []
        rw [List.filterMap_append, hreferences]
        rfl

/-! ## Hints -/

/-- The names in a constraint. -/
def Constraint.paths (constraint : Constraint) : List (List String) :=
  Code.paths constraint.text.toList

/-- A constraint mentions nothing. -/
theorem Constraint.mentions (constraint : Constraint) : Mentions constraint.text.toList [] := by
  have hbound {opening : String} {word : String} (hopening : Opens opening [[word]])
      (hword : word ∉ libraryTexts)
      (bound : Nat) : Mentions (opening ++ toString bound).toList [] := by
    obtain ⟨found, hfound, hnames, hreferences⟩ := mentions_integer bound
    rw [String.toList_append]
    refine ⟨_, .opened hopening hfound, fun name => ?_, ?_⟩
    · rw [List.singleton_append, List.flatten_cons, List.mem_append, List.mem_singleton,
        or_iff_right (name.text_ne hword), hnames]
    · exact hreferences
  cases constraint with
  | strict =>
    have hopening : Opens "strict=" [["strict"]] := by decide
    refine ⟨[["strict"], ["True"]], .opened hopening (.word (show IsWord "True" by decide)),
      fun name => ?_, rfl⟩
    have hwords : ∀ text ∈ libraryTexts, text ∉ [["strict"], ["True"]].flatten := by decide
    simpa using hwords _ name.text_mem
  | atLeast bound => exact hbound (show Opens "ge=" [["ge"]] by decide) (by decide) bound
  | atMost bound => exact hbound (show Opens "le=" [["le"]] by decide) (by decide) bound

/-- Constraints with commas between them have the names of all. -/
theorem hasPaths_constraints (constraints : List Constraint) :
    HasPaths (String.intercalate ", " (constraints.map Constraint.text)).toList
      (constraints.flatMap Constraint.paths) := by
  induction constraints with
  | nil => exact .nil
  | cons constraint rest ih =>
    have hfirst : HasPaths constraint.text.toList constraint.paths :=
      constraint.mentions.paths_spec.1
    cases rest with
    | nil => simpa using hfirst
    | cons next rest =>
      rw [List.map_cons, List.map_cons, String.intercalate_cons_cons, ← List.map_cons,
        String.toList_append, String.toList_append, List.append_assoc, List.flatMap_cons]
      have hjoined := hfirst.joined (show Joins ", " [] by decide) ih
      exact hjoined

/-- The names in a hint. A model is one word, or a word behind that of its module. -/
def Hint.paths : Hint → List (List String)
  | .int => [["int"]]
  | .float => [["float"]]
  | .bool => [["bool"]]
  | .str => [["str"]]
  | .any => [["Any"]]
  | .anyUrl => [["AnyUrl"]]
  | .model none name => [[name]]
  | .model (some module) name => [[module, name]]
  | .list element => ["List"] :: element.paths
  | .optional value => ["Optional"] :: value.paths
  | .annotated value constraints => ["Annotated"] ::
      (value.paths ++ ["Field"] :: constraints.flatMap Constraint.paths)

/-- The words in a hint that are made of names of the schema. -/
def Hint.given : Hint → List String
  | .model none name => [name]
  | .model (some module) name => [module, name]
  | .list element => element.given
  | .optional value => value.given
  | .annotated value _ => value.given
  | _ => []

/-- The names of libraries that a hint needs. -/
def Hint.libraryNames (hint : Hint) : List LibraryName :=
  hint.typingNames.map .typing ++ hint.pydanticNames.map .pydantic

/-- If the words that are made of names of the schema are words, a hint has its names. -/
theorem Hint.hasPaths {hint : Hint} (h : ∀ word ∈ hint.given, IsWord word) :
    HasPaths hint.text.toList hint.paths := by
  induction hint with
  | int => exact .word (show IsWord "int" by decide)
  | float => exact .word (show IsWord "float" by decide)
  | bool => exact .word (show IsWord "bool" by decide)
  | str => exact .word (show IsWord "str" by decide)
  | any => exact .word (show IsWord "Any" by decide)
  | anyUrl => exact .word (show IsWord "AnyUrl" by decide)
  | model module? name =>
    cases module? with
    | none => exact .word (h name List.mem_cons_self)
    | some module =>
      have hmodule := h module List.mem_cons_self
      have hname := h name (List.mem_cons_of_mem _ List.mem_cons_self)
      change HasPaths (module ++ "." ++ name).toList [[module, name]]
      rw [String.toList_append, String.toList_append, List.append_assoc]
      exact .qualified hmodule hname
  | list element ih =>
    change HasPaths ("List[" ++ element.text ++ "]").toList ([["List"]] ++ element.paths)
    rw [String.toList_append, String.toList_append,
      List.append_assoc, ← List.append_nil element.paths]
    exact .opened (by decide) ((ih h).closed (by decide))
  | optional value ih =>
    change HasPaths ("Optional[" ++ value.text ++ "]").toList ([["Optional"]] ++ value.paths)
    rw [String.toList_append, String.toList_append,
      List.append_assoc, ← List.append_nil value.paths]
    exact .opened (by decide) ((ih h).closed (by decide))
  | annotated value constraints ih =>
    change HasPaths ("Annotated[" ++ value.text ++ ", Field(" ++
      String.intercalate ", " (constraints.map Constraint.text) ++ ")]").toList
      ([["Annotated"]] ++ (value.paths ++ ([["Field"]] ++ constraints.flatMap Constraint.paths)))
    simp only [String.toList_append, List.append_assoc]
    rw [← List.append_nil (constraints.flatMap Constraint.paths)]
    exact .opened (by decide)
      ((ih h).joined (by decide) ((hasPaths_constraints constraints).closed (by decide)))

/-- If those words are not reserved, the names of libraries in a hint are those that it needs. -/
theorem Hint.mem_words_iff {hint : Hint} (h : ∀ word ∈ hint.given, word ∉ reserved)
    (name : LibraryName) :
    name.text ∈ hint.paths.flatten ↔ name ∈ hint.libraryNames := by
  have htext (other : LibraryName) : name.text = other.text ↔ name = other :=
    LibraryName.text_injective.eq_iff
  induction hint with
  | int =>
    simpa [paths, libraryNames, typingNames, pydanticNames] using name.text_ne
      (show "int" ∉ libraryTexts by decide)
  | float =>
    simpa [paths, libraryNames, typingNames, pydanticNames] using name.text_ne
      (show "float" ∉ libraryTexts by decide)
  | bool =>
    simpa [paths, libraryNames, typingNames, pydanticNames] using name.text_ne
      (show "bool" ∉ libraryTexts by decide)
  | str =>
    simpa [paths, libraryNames, typingNames, pydanticNames] using name.text_ne
      (show "str" ∉ libraryTexts by decide)
  | any =>
    change name.text ∈ ["Any"] ↔ name ∈ [LibraryName.typing .any]
    rw [List.mem_singleton, List.mem_singleton]
    exact htext (.typing .any)
  | anyUrl =>
    change name.text ∈ ["AnyUrl"] ↔ name ∈ [LibraryName.pydantic .anyUrl]
    rw [List.mem_singleton, List.mem_singleton]
    exact htext (.pydantic .anyUrl)
  | model module? modelName =>
    cases module? with
    | none =>
      simpa [paths, libraryNames, typingNames, pydanticNames] using name.text_ne_of_unreserved
        (h modelName List.mem_cons_self)
    | some module =>
      have hmodule := name.text_ne_of_unreserved (h module List.mem_cons_self)
      have hname :=
        name.text_ne_of_unreserved (h modelName (List.mem_cons_of_mem _ List.mem_cons_self))
      simpa [paths, libraryNames, typingNames, pydanticNames] using ⟨hmodule, hname⟩
  | list element ih =>
    have hlist := htext (.typing .list)
    have helement : name.text ∈ element.paths.flatten ↔ name ∈ element.libraryNames := ih h
    rw [paths, List.flatten_cons, List.singleton_append, List.mem_cons, helement]
    simp only [libraryNames, typingNames, pydanticNames, List.map_cons,
      List.cons_append, List.mem_cons]
    exact or_congr_left hlist
  | optional value ih =>
    have hoptional := htext (.typing .optional)
    have hvalue : name.text ∈ value.paths.flatten ↔ name ∈ value.libraryNames := ih h
    rw [paths, List.flatten_cons, List.singleton_append, List.mem_cons, hvalue]
    simp only [libraryNames, typingNames, pydanticNames, List.map_cons,
      List.cons_append, List.mem_cons]
    exact or_congr_left hoptional
  | annotated value constraints ih =>
    have hannotated : name.text = "Annotated" ↔ name = .typing .annotated :=
      htext (.typing .annotated)
    have hfield : name.text = "Field" ↔ name = .pydantic .field := htext (.pydantic .field)
    have hconstraints : name.text ∉ (constraints.flatMap Constraint.paths).flatten := by
      intro hmem
      obtain ⟨path, hpath, hword⟩ := List.mem_flatten.mp hmem
      obtain ⟨constraint, -, hconstraint⟩ := List.mem_flatMap.mp hpath
      exact List.not_mem_nil
        ((constraint.mentions.paths_spec.2.1 name).mp (List.mem_flatten_of_mem hconstraint hword))
    have hvalue : name.text ∈ value.paths.flatten ↔ name ∈ value.libraryNames := ih h
    rw [paths, List.flatten_cons, List.singleton_append, List.mem_cons, List.flatten_append,
      List.mem_append, hvalue, List.flatten_cons, List.singleton_append, List.mem_cons,
      or_iff_left hconstraints]
    simp only [libraryNames, typingNames, pydanticNames, List.map_cons, List.cons_append,
      List.mem_cons, List.mem_append]
    rw [hannotated, hfield]
    simp only [or_comm, or_left_comm, or_assoc]

/-- If no module starts with a digit, the references in a hint are the one to a model of another
module, if it has one. -/
theorem Hint.filterMap_paths {hint : Hint}
    (h : ∀ reference, hint.reference? = some reference →
      startsWithDigit reference.1.toList = false) :
    hint.paths.filterMap Code.reference? = hint.reference?.toList := by
  induction hint with
  | int => rfl
  | float => rfl
  | bool => rfl
  | str => rfl
  | any => rfl
  | anyUrl => rfl
  | model module? name =>
    cases module? with
    | none => rfl
    | some module => simp [paths, Code.reference?, reference?, h (module, name) rfl]
  | list element ih => exact ih h
  | optional value ih => exact ih h
  | annotated value constraints ih =>
    have hconstraints : (constraints.flatMap Constraint.paths).filterMap Code.reference? = [] := by
      rw [List.filterMap_flatMap, List.flatMap_eq_nil_iff]
      exact fun constraint _ => constraint.mentions.paths_spec.2.2
    change (value.paths ++ ["Field"] :: constraints.flatMap Constraint.paths).filterMap
      Code.reference? = value.reference?.toList
    rw [List.filterMap_append, ih h, List.filterMap_cons, hconstraints]
    exact List.append_nil _

/-! ## Statements -/

/-- The statement that sets the configuration. -/
def configStatement : Statement :=
  ⟨configLine, [["model_config"], ["ConfigDict"], ["populate_by_name"], ["True"]], none⟩

/-- The names in what an attribute is set to. -/
def Attribute.initialPaths (member : Attribute) : List (List String) :=
  match member.initialiser? with
  | some initialiser => paths initialiser.text.toList
  | none => []

/-- The statement that declares an attribute. -/
def Attribute.statement (member : Attribute) : Statement :=
  ⟨member.line, [member.name] :: (member.hint.paths ++ member.initialPaths), member.hint.reference?⟩

/-- The statements of a class. -/
def Class.statements (model : Class) : List Statement :=
  (if model.configured then [configStatement] else []) ++ model.attributes.map Attribute.statement

/-- The statements of a module. -/
def Module.statements (module : Module) : List Statement :=
  module.classes.flatMap Class.statements

/-- The statements of a class are its lines that bind names. -/
theorem map_line_statements (model : Class) :
    model.statements.map Statement.line = model.bindings.map Prod.snd := by
  rw [Class.statements, Class.bindings, List.map_append, List.map_append,
    List.map_map, List.map_map]
  split <;> rfl

/-- The statements of a module stand among its lines, in their order. -/
theorem statements_sublist_lines (module : Module) :
    (module.statements.map Statement.line).Sublist module.lines := by
  have hclasses : (module.classes.flatMap fun model => model.statements.map Statement.line).Sublist
      (module.classes.flatMap fun model => "" :: "" :: model.lines) := by
    refine .flatMap_right _ fun model _ => .cons _ (.cons _ ?_)
    rw [map_line_statements]
    exact bindings_sublist_lines model
  rw [Module.statements, List.map_flatMap, Module.lines]
  exact hclasses.trans (List.sublist_append_right _ _)

/-- The names of libraries that an attribute needs. -/
def Attribute.libraryNames (member : Attribute) : List LibraryName :=
  member.hint.typingNames.map .typing ++ member.pydanticNames.map .pydantic

/-- Whether the words of an attribute that are made of names of the schema are not reserved. -/
structure Attribute.Unreserved (member : Attribute) : Prop where
  name : member.name ∉ reserved
  given : ∀ word ∈ member.hint.given, word ∉ reserved

/-- Whether they are words, and no module starts with a digit. -/
structure Attribute.Spelled (member : Attribute) : Prop where
  name : IsWord member.name
  given : ∀ word ∈ member.hint.given, IsWord word
  module : ∀ reference, member.hint.reference? = some reference →
    startsWithDigit reference.1.toList = false

/-- What an attribute is set to mentions the names that the initialiser needs. -/
theorem Attribute.initialPaths_spec (member : Attribute) :
    (∀ name : LibraryName, name.text ∈ member.initialPaths.flatten ↔
      name ∈ (member.initialiser?.map Initialiser.libraryNames).getD []) ∧
    member.initialPaths.filterMap Code.reference? = [] := by
  unfold initialPaths
  cases member.initialiser? with
  | none => exact ⟨fun name => iff_of_false List.not_mem_nil List.not_mem_nil, rfl⟩
  | some initialiser => exact initialiser.mentions.paths_spec.2

/-- The names of libraries in the statement of an attribute are those that it needs. -/
theorem Attribute.mem_words_iff {member : Attribute} (h : member.Unreserved) (name : LibraryName) :
    name.text ∈ member.statement.words ↔ name ∈ member.libraryNames := by
  have hname := name.text_ne_of_unreserved h.name
  have hhint : name.text ∈ member.hint.paths.flatten ↔ name ∈ member.hint.libraryNames :=
    Hint.mem_words_iff h.given name
  have hinitial := member.initialPaths_spec.1 name
  have hneeded : member.libraryNames =
      member.hint.libraryNames ++ (member.initialiser?.map Initialiser.libraryNames).getD [] := by
    rw [libraryNames, pydanticNames, List.map_append, ← List.append_assoc]
    refine congrArg _ ?_
    rcases member.initialiser? with _ | (value | ⟨default?, key⟩) <;> rfl
  rw [statement, Statement.words, List.flatten_cons, List.flatten_append,
    List.mem_append, List.mem_append, List.mem_singleton, or_iff_right hname, hhint, hinitial,
    hneeded, List.mem_append]

/-- If names are spelled as in schemas, scanning the statement finds what it is written with. -/
theorem Attribute.scans {member : Attribute} (h : member.Spelled) : member.statement.Scans := by
  have hhint := Hint.hasPaths h.given
  refine scans_of_hasPaths ?_ ?_
  · have hindent : Opens "    " [] := by decide
    have hcolon : Joins ": " [] := by decide
    have hequals : Joins " = " [] := by decide
    have hname := HasPaths.word h.name
    unfold statement line initialPaths
    cases member.initialiser? with
    | none =>
      have hpaths := HasPaths.opened hindent (hname.joined hcolon hhint)
      simpa only [String.toList_append, List.append_assoc, List.nil_append, List.singleton_append,
        List.append_nil] using hpaths
    | some initialiser =>
      have hinitial := initialiser.mentions.paths_spec.1
      have hpaths := HasPaths.opened hindent (hname.joined hcolon (hhint.joined hequals hinitial))
      simpa only [String.toList_append, List.append_assoc, List.nil_append, List.singleton_append]
        using hpaths
  · change (member.hint.paths ++ member.initialPaths).filterMap Code.reference? =
      member.hint.reference?.toList
    rw [List.filterMap_append, Hint.filterMap_paths h.module, member.initialPaths_spec.2,
      List.append_nil]

/-- Scanning the configuration finds what it is written with. -/
theorem scans_configStatement : configStatement.Scans :=
  ⟨by decide, by decide⟩

/-! ## Imports -/

/-- The names of libraries that a class needs. -/
def Class.libraryNames (model : Class) : List LibraryName :=
  (if model.configured then [.pydantic .configDict] else []) ++
    model.attributes.flatMap Attribute.libraryNames

/-- The names of libraries in the statements of a class are those that it needs. -/
theorem Class.mem_words_iff {model : Class} (h : ∀ member ∈ model.attributes, member.Unreserved)
    (name : LibraryName) :
    (∃ statement ∈ model.statements, name.text ∈ statement.words) ↔ name ∈ model.libraryNames := by
  have hconfig : name.text ∈ configStatement.words ↔ name = .pydantic .configDict := by
    rcases name with name | name <;> cases name <;> decide
  have hattributes :
      (∃ statement ∈ model.attributes.map Attribute.statement, name.text ∈ statement.words) ↔
      name ∈ model.attributes.flatMap Attribute.libraryNames := by
    rw [List.mem_flatMap]
    constructor
    · intro hmentioned
      obtain ⟨statement, hstatement, hword⟩ := hmentioned
      obtain ⟨member, hmember, rfl⟩ := List.mem_map.mp hstatement
      exact ⟨member, hmember, (Attribute.mem_words_iff (h member hmember) name).mp hword⟩
    · intro hneeded
      obtain ⟨member, hmember, hname⟩ := hneeded
      exact ⟨_, List.mem_map_of_mem hmember,
        (Attribute.mem_words_iff (h member hmember) name).mpr hname⟩
  rw [libraryNames, List.mem_append, ← hattributes, statements]
  cases model.configured with
  | false => simp
  | true =>
    simp only [if_true, List.singleton_append, List.exists_mem_cons_iff, List.mem_singleton]
    exact or_congr_left hconfig

/-- What a class needs from `typing` are the names that its hints need. -/
theorem Class.typing_mem_libraryNames (model : Class) (name : TypingName) :
    .typing name ∈ model.libraryNames ↔
    ∃ member ∈ model.attributes, name ∈ member.hint.typingNames := by
  simp [libraryNames, Attribute.libraryNames]

/-- What it needs from `pydantic`, its attributes or the configuration need. -/
theorem Class.pydantic_mem_libraryNames (model : Class) (name : PydanticName) :
    .pydantic name ∈ model.libraryNames ↔ name ∈ model.pydanticNames := by
  simp [libraryNames, Attribute.libraryNames, pydanticNames]

section Imports

variable {module : Module}
  (h : ∀ model ∈ module.classes, ∀ member ∈ model.attributes, member.Unreserved)

include h

/-- The names of libraries in the statements of a module are those that its classes need. -/
theorem exists_statement_iff (name : LibraryName) :
    (∃ statement ∈ module.statements, name.text ∈ statement.words) ↔
      ∃ model ∈ module.classes, name ∈ model.libraryNames := by
  constructor
  · intro hmentioned
    obtain ⟨statement, hstatement, hword⟩ := hmentioned
    obtain ⟨model, hmodel, hmem⟩ := List.mem_flatMap.mp hstatement
    exact ⟨model, hmodel, (Class.mem_words_iff (h model hmodel) name).mp ⟨statement, hmem, hword⟩⟩
  · intro hneeded
    obtain ⟨model, hmodel, hname⟩ := hneeded
    obtain ⟨statement, hmem, hword⟩ := (Class.mem_words_iff (h model hmodel) name).mpr hname
    exact ⟨statement, List.mem_flatMap_of_mem hmodel hmem, hword⟩

/-- A module imports from `typing` exactly the names that are in its statements. -/
theorem mem_typingImports_iff (name : TypingName) :
    name ∈ module.typingImports ↔ ∃ statement ∈ module.statements, name.text ∈ statement.words := by
  have hall : name ∈ [TypingName.annotated, .any, .list, .optional] := by cases name <;> decide
  have hneeded : (∃ statement ∈ module.statements, name.text ∈ statement.words) ↔ _ :=
    exists_statement_iff h (.typing name)
  simp only [Class.typing_mem_libraryNames] at hneeded
  rw [Module.typingImports, List.mem_filter, and_iff_right hall]
  simpa using hneeded.symm

/-- From `pydantic` it imports those, and the base class. -/
theorem mem_pydanticImports_iff (name : PydanticName) :
    name ∈ module.pydanticImports ↔
      name = .baseModel ∨ ∃ statement ∈ module.statements, name.text ∈ statement.words := by
  have hall : name ∈ [PydanticName.anyUrl, .baseModel, .configDict, .field] := by
    cases name <;> decide
  have hneeded : (∃ statement ∈ module.statements, name.text ∈ statement.words) ↔ _ :=
    exists_statement_iff h (.pydantic name)
  simp only [Class.pydantic_mem_libraryNames] at hneeded
  rw [Module.pydanticImports, List.mem_filter, and_iff_right hall, Bool.or_eq_true,
    decide_eq_true_eq]
  refine or_congr_right ?_
  simpa using hneeded.symm

end Imports

end SchemaBindings.Bindings.PythonPackage
