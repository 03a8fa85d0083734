import SchemaBindings.Proofs.Bindings.ModuleScope
import SchemaBindings.Proofs.Graph.Fields

/-!
# Names in the scope of a class

The body of a Python class binds a name for each attribute, and the configuration if an attribute is
named differently from its field. The names of the attributes are checked against each other, and
the configuration is added afterwards. So a class binds a name twice exactly if it has an attribute
that is named like the configuration, and one that is renamed.
-/

namespace SchemaBindings.Bindings.PythonPackage

open SchemaBindings.Graph (Field TypeNode)

/-! ## Statements -/

/-- The name of the configuration. -/
def configName : String := "model_config"

/-- The line that sets the configuration. -/
def configLine : String := "    model_config = ConfigDict(populate_by_name=True)"

/-- The line that declares an attribute. -/
def Attribute.line (member : Attribute) : String :=
  match member.initialiser? with
  | some initialiser => "    " ++ member.name ++ ": " ++ member.hint.text ++
      " = " ++ initialiser.text
  | none => "    " ++ member.name ++ ": " ++ member.hint.text

/-- The names that the body of a class binds, each with the line that binds it. -/
def Class.bindings (model : Class) : List (String × String) :=
  (if model.configured then [(configName, configLine)] else []) ++
    model.attributes.map fun member => (member.name, member.line)

/-- Whether a line of the body of a class binds a name: the name stands in front of a colon or of an
equals sign. -/
def Binds (name line : String) : Prop :=
  ∃ more, line = "    " ++ name ++ ": " ++ more ∨ line = "    " ++ name ++ " = " ++ more

/-- The line of an attribute binds its name. -/
theorem Attribute.binds_line (member : Attribute) : Binds member.name member.line := by
  unfold Attribute.line
  split
  · next initialiser _ =>
    refine ⟨member.hint.text ++ " = " ++ initialiser.text, .inl ?_⟩
    simp only [String.append_assoc]
  · exact ⟨_, .inl rfl⟩

/-- Every binding is made by its line. -/
theorem binds_of_mem_bindings {model : Class} {binding : String × String}
    (h : binding ∈ model.bindings) :
    Binds binding.1 binding.2 := by
  rcases List.mem_append.mp h with h | h
  · obtain ⟨-, hsingle⟩ := List.mem_ite_nil_right.mp h
    obtain rfl := List.mem_singleton.mp hsingle
    exact ⟨"ConfigDict(populate_by_name=True)", .inr rfl⟩
  · obtain ⟨member, -, rfl⟩ := List.mem_map.mp h
    exact member.binds_line

/-- The lines that bind names are among those of the class, in their order. -/
theorem bindings_sublist_lines (model : Class) :
    (model.bindings.map Prod.snd).Sublist model.lines := by
  have hconfig : (if model.configured then [configLine] else []).Sublist
      (if model.configured then [configLine, ""] else []) := by
    split
    · exact .cons_cons _ (List.nil_sublist _)
    · exact .refl _
  have hattributes : (model.attributes.map Attribute.line).Sublist
      (model.attributes.flatMap Attribute.lines) := by
    rw [List.map_eq_flatMap]
    refine .flatMap_right _ fun member _ => ?_
    exact List.sublist_append_right (member.comment.map fun line => "    # " ++ line) [member.line]
  have hbindings : model.bindings.map Prod.snd =
      (if model.configured then [configLine] else []) ++ model.attributes.map Attribute.line := by
    rw [Class.bindings, List.map_append, List.map_map]
    split <;> rfl
  rw [hbindings, Class.lines, List.cons_append, List.cons_append, List.cons_append,
    List.append_assoc, List.append_assoc]
  refine .cons _ (.trans ?_ (List.sublist_append_right _ _))
  exact hconfig.append (hattributes.trans (List.sublist_append_left _ _))

/-! ## Classes of a graph -/

/-- What the class of a type binds: the names of its fields, which differ, and the configuration if
one of them differs from its field's name. Those are all different unless a field is written like
the configuration while one is renamed. -/
structure Class.ScopeOf (options : NamingOptions) (type : TypeNode) (model : Class) : Prop where
  name_eq : model.name = className options type
  bindings_eq : model.bindings.map Prod.fst =
    (if ∃ field ∈ type.fields, attributeName options field ≠ field.name then [configName]
      else []) ++ type.fields.map (attributeName options)
  attributes_nodup : (type.fields.map (attributeName options)).Nodup
  written : (model.bindings.map Prod.snd).Sublist model.lines
  binds : ∀ binding ∈ model.bindings, Binds binding.1 binding.2
  nodup_iff : (model.bindings.map Prod.fst).Nodup ↔
    ¬ ((∃ field ∈ type.fields, attributeName options field = configName) ∧
      ∃ field ∈ type.fields, attributeName options field ≠ field.name)

/-- A name in front of different ones, if there is a reason for it, is not one of them. -/
theorem nodup_ite_append_iff {name : String} {names : List String} (h : names.Nodup) (p : Prop)
    [Decidable p] :
    ((if p then [name] else []) ++ names).Nodup ↔ ¬ (name ∈ names ∧ p) := by
  split
  · next hp => simp [h, hp]
  · next hp => simp [h, hp]

/-- The class of a type binds what its scope says. -/
theorem scopeOf_classOf {files : List Schema.SchemaFile} {graph : TypeGraph}
    (hbuild : Graph.build files = .ok graph) {options : NamingOptions} {names : NameTable}
    (hnames : namesOf options graph = .ok names) {type : TypeNode} (htype : type ∈ graph.types) :
    (classOf names type).ScopeOf options type := by
  have hfield : ∀ field ∈ type.fields, names.field field.id =
      attributeName options field := fun field hfield =>
    nameTable_field_eq (Graph.fieldIds_nodup_of_build hbuild) hnames htype hfield
  obtain ⟨hmembers, -, -⟩ := (nameTable_build_eq_ok_iff _ _ _ _ _ _).mp hnames
  have hconfigured : (classOf names type).configured = true ↔
      ∃ field ∈ type.fields, attributeName options field ≠ field.name := by
    rw [classOf, List.any_eq_true]
    refine exists_congr fun field => and_congr_right fun hmem => ?_
    rw [decide_eq_true_eq, hfield field hmem]
  have hattributes : (classOf names type).attributes.map Attribute.name =
      type.fields.map (attributeName options) := by
    rw [classOf, List.map_map]
    exact List.map_congr_left hfield
  have hbindings : (classOf names type).bindings.map Prod.fst =
      (if ∃ field ∈ type.fields, attributeName options field ≠ field.name then [configName]
        else []) ++ type.fields.map (attributeName options) := by
    rw [Class.bindings, List.map_append, List.map_map, ← hattributes]
    by_cases h : ∃ field ∈ type.fields, attributeName options field ≠ field.name
    · rw [if_pos h, if_pos (hconfigured.mpr h)]
      rfl
    · rw [if_neg h, if_neg (mt hconfigured.mp h)]
      rfl
  refine ⟨nameTable_type_eq (Graph.linked_of_build hbuild).distinct hnames htype, hbindings,
    hmembers type htype, bindings_sublist_lines _, fun binding => binds_of_mem_bindings, ?_⟩
  rw [hbindings, nodup_ite_append_iff (hmembers type htype), List.mem_map]

/-- Of a built graph, a package has a class for every type and no other. The attributes of a class
have different names, and a class binds no name twice exactly if it does not have both an attribute
that is named like the configuration and a renamed one. -/
theorem classes_scopeOf_of_build (files : List Schema.SchemaFile) (graph : TypeGraph)
    (options : NamingOptions) (package : Package) (hbuild : Graph.build files = .ok graph)
    (hpackage : build options graph = .ok package) :
    List.Forall₂ (Class.ScopeOf options) (graph.namespaces.flatMap graph.typesIn)
      (package.modules.flatMap Module.classes) := by
  obtain ⟨-, names, hnames, rfl⟩ := build_eq_ok hpackage
  rw [List.flatMap_map]
  exact forall₂_flatMap_map fun namespacePath _ type htype =>
    scopeOf_classOf hbuild hnames (mem_typesIn_iff.mp htype).1

/-- A type with a field that is renamed, and another one with a field that is named like the
configuration. -/
def sampleConfigs : List Schema.SchemaFile :=
  [⟨"a.schema", "", [⟨"A", "", [⟨"id", .named [] "int", false, none, [], none, .nowhere⟩,
      ⟨"userName", .named [] "string", false, none, [], none, .nowhere⟩], none, .nowhere⟩,
    ⟨"B", "", [⟨"model_config", .named [] "int", true, none, [], none, .nowhere⟩],
      none, .nowhere⟩]⟩]

/-- The graph of the type with a renamed field and the one with a field named like the
configuration. -/
def configsGraph : TypeGraph :=
  ⟨[⟨⟨"", "A"⟩, [⟨⟨⟨"", "A"⟩, "id"⟩, .primitive .int, false, none, [], none, false, .nowhere⟩,
      ⟨⟨⟨"", "A"⟩, "userName"⟩, .primitive .string, false, none, [], none, false, .nowhere⟩],
      none, .nowhere⟩,
    ⟨⟨"", "B"⟩, [⟨⟨⟨"", "B"⟩, "model_config"⟩, .primitive .int, true, none, [], none, false,
      .nowhere⟩], none, .nowhere⟩]⟩

/-- The first class has a configuration and the second one has the field, so neither binds a name
twice. -/
theorem scopes_sampleConfigs : ∃ package, Graph.build sampleConfigs = .ok configsGraph ∧
    build .none configsGraph = .ok package ∧
    List.Forall₂ (Class.ScopeOf .none) (configsGraph.namespaces.flatMap configsGraph.typesIn)
      (package.modules.flatMap Module.classes) ∧
    (package.modules.flatMap Module.classes).map Class.bindings =
      [[("model_config", "    model_config = ConfigDict(populate_by_name=True)"),
        ("id", "    id: int"), ("user_name", "    user_name: str = Field(alias=\"userName\")")],
      [("model_config", "    model_config: Optional[int] = None")]] := by
  have hbuild : Graph.build sampleConfigs = .ok configsGraph := by cbv
  have hmade : (build .none configsGraph).toOption.map (fun package =>
      (package.modules.flatMap Module.classes).map Class.bindings) =
      some [[("model_config", "    model_config = ConfigDict(populate_by_name=True)"),
        ("id", "    id: int"), ("user_name", "    user_name: str = Field(alias=\"userName\")")],
      [("model_config", "    model_config: Optional[int] = None")]] := by decide +kernel
  obtain ⟨package, hpackage, hbindings⟩ := Option.map_eq_some_iff.mp hmade
  have hmodels := eq_ok_of_toOption hpackage
  exact ⟨package, hbuild, hmodels, classes_scopeOf_of_build sampleConfigs configsGraph .none
    package hbuild hmodels, hbindings⟩

/-- A type whose only field is written like the configuration. -/
def sampleClash : List Schema.SchemaFile :=
  [⟨"a.schema", "",
    [⟨"A", "", [⟨"modelConfig", .named [] "int", false, none, [], none, .nowhere⟩],
      none, .nowhere⟩]⟩]

/-- The class of a type whose only field is written like the configuration sets the configuration
and then declares an attribute of the same name. -/
theorem class_binds_config_twice :
    ∃ graph package, Graph.build sampleClash = .ok graph ∧ build .none graph = .ok package ∧
    (∃ model ∈ package.modules.flatMap Module.classes, model.lines = ["class A(BaseModel):",
        "    model_config = ConfigDict(populate_by_name=True)", "",
        "    model_config: int = Field(alias=\"modelConfig\")"] ∧
      ¬ (model.bindings.map Prod.fst).Nodup) := by
  have hbuild : Graph.build sampleClash =
      .ok ⟨[⟨⟨"", "A"⟩, [⟨⟨⟨"", "A"⟩, "modelConfig"⟩, .primitive .int, false, none, [],
      none, false, .nowhere⟩], none, .nowhere⟩]⟩ := by cbv
  refine ⟨_, ⟨[⟨"types", [],
    [⟨"A", [], true, [⟨"model_config", [], .int, some (.field none "modelConfig")⟩]⟩]⟩],
    [("types", "A")]⟩, hbuild, eq_ok_of_toOption (by decide +kernel), _, List.mem_cons_self, by
      decide +kernel, by decide⟩

end SchemaBindings.Bindings.PythonPackage
