import SchemaBindings.Proofs.Bindings.ReservedWords

/-!
# Structs of finite size

A struct holds another one in place if a field has it as its type, possibly as an optional value.
What is in a box or in a vector is elsewhere. Fields on a cycle of references are boxed unless they
are lists, so a struct holds in place only what its type embeds, and embedding is acyclic. This
takes that a written type means the struct that it was written for: every module has an identifier
of its own, and no struct hides a built-in type.
-/

namespace SchemaBindings.Bindings.RustModules

open Relation (ReflTransGen TransGen)
open SchemaBindings.Bindings.CHeader (Embeds embeds_acyclic embeds_iff exists_find?_eq_some
  find?_eq_some)
open SchemaBindings.Graph (Field FieldType TypeId TypeNode)

/-! ## What structs hold in place -/

/-- What a struct is called from other modules: the identifier of its module, and its name. -/
structure StructPath where
  stem : String
  name : String
deriving DecidableEq

/-- The names of built-in types. A struct that is named so hides the built-in type in its module. -/
def builtInNames : List String := ["i64", "f64", "bool"]

/-- The struct that a type written in a module holds in place, if there is a struct of that name. -/
def RustType.inPlace? (stem : String) : RustType → Option StructPath
  | .int64 => some ⟨stem, "i64"⟩
  | .float64 => some ⟨stem, "f64"⟩
  | .bool => some ⟨stem, "bool"⟩
  | .string => some ⟨stem, "String"⟩
  | .jsonValue => none
  | .struct module? name => some ⟨module?.getD stem, name⟩
  | .vec _ => none
  | .box _ => none
  | .option value => value.inPlace? stem

/-- Whether a type is a box, possibly an optional one. -/
def RustType.Boxed : RustType → Prop
  | .box _ => True
  | .option value => value.Boxed
  | _ => False

/-- The structs of a module. -/
def Module.structPaths (module : Module) : List StructPath :=
  module.structs.map fun struct => ⟨module.stem, struct.name⟩

/-- Whether a struct has a field that holds another one in place. -/
def HoldsInPlace (modules : List Module) (path other : StructPath) : Prop :=
  other ∈ modules.flatMap Module.structPaths ∧
    ∃ module ∈ modules, ∃ struct ∈ module.structs, path = ⟨module.stem, struct.name⟩ ∧
      ∃ field ∈ struct.fields, field.type.inPlace? module.stem = some other

instance (modules : List Module) (path other : StructPath) :
    Decidable (HoldsInPlace modules path other) :=
  inferInstanceAs (Decidable (other ∈ modules.flatMap Module.structPaths ∧
    ∃ module ∈ modules, ∃ struct ∈ module.structs, path = ⟨module.stem, struct.name⟩ ∧
      ∃ field ∈ struct.fields, field.type.inPlace? module.stem = some other))

/-- Whether all structs are of finite size: none holds itself in place, in any number of steps. -/
def FiniteSize (modules : List Module) : Prop :=
  ∀ path, ¬ TransGen (HoldsInPlace modules) path path

/-! ## Fields -/

/-- A field on a cycle that is not a list is boxed. -/
theorem boxed_fieldType (names : NameTable) (namespacePath : String) {field : Field}
    (hrecursive : field.recursive = true) (hnamed : field.isNamed = true) :
    (fieldType names namespacePath field).Boxed := by
  simp only [fieldType, hrecursive, hnamed, Bool.and_self, if_true]
  split <;> trivial

/-- A field holds in place a struct that is named like a built-in type, or the struct of the type
that it refers to. -/
theorem inPlace?_fieldType {names : NameTable} {namespacePath : String} {field : Field}
    {path : StructPath}
    (h : (fieldType names namespacePath field).inPlace? (stemOf namespacePath) = some path) :
    path.name ∈ "String" :: builtInNames ∨
      field.recursive = false ∧
      ∃ id, field.type = .named id ∧ path = ⟨stemOf id.namespacePath, names.type id⟩ := by
  have hbase :
      (if field.recursive && field.isNamed then .box (typeOf names namespacePath field.type)
      else typeOf names namespacePath field.type).inPlace? (stemOf namespacePath) = some path := by
    unfold fieldType at h
    dsimp only at h
    split at h
    · exact h
    · exact h
  clear h
  cases htype : field.type with
  | primitive kind =>
    left
    rw [htype, Field.isNamed, htype, Bool.and_false, if_neg Bool.false_ne_true] at hbase
    cases kind with
    | any => cases hbase
    | int | float | bool | string =>
      obtain rfl := Option.some.inj hbase
      simp [builtInNames]
  | list element =>
    rw [htype, Field.isNamed, htype, Bool.and_false, if_neg Bool.false_ne_true] at hbase
    cases hbase
  | named id =>
    right
    rw [htype, Field.isNamed, htype, Bool.and_true] at hbase
    cases hrecursive : field.recursive with
    | true =>
      rw [hrecursive] at hbase
      cases hbase
    | false =>
      rw [hrecursive] at hbase
      refine ⟨rfl, id, rfl, ?_⟩
      rw [← Option.some.inj hbase]
      split
      · next hsame => rw [hsame, Option.getD_none]
      · rfl

/-! ## Structs of a graph -/

/-- The struct of a type. -/
def pathOf (options : NamingOptions) (type : TypeNode) : StructPath :=
  ⟨stemOf type.id.namespacePath, structName options type⟩

section Built

variable {options : NamingOptions} {graph : TypeGraph} {names : NameTable}
  (hnames : namesOf options graph = .ok names)

include hnames

/-- Where modules have different identifiers, different types have different structs. -/
theorem pathOf_injOn (hstems : (graph.namespaces.map stemOf).Nodup) {type other : TypeNode}
    (htype : type ∈ graph.types) (hother : other ∈ graph.types)
    (h : pathOf options type = pathOf options other) : type = other := by
  obtain ⟨hstem, hname⟩ := StructPath.mk.inj h
  have hsame : type.id.namespacePath = other.id.namespacePath :=
    List.inj_on_of_nodup_map hstems (namespacePath_mem htype) (namespacePath_mem hother) hstem
  obtain ⟨-, hgroups, -⟩ := (nameTable_build_eq_ok_iff _ _ _ _ _ _).mp hnames
  have hgroup := hgroups _ (List.mem_map_of_mem (namespacePath_mem hother))
  exact List.inj_on_of_nodup_map hgroup (mem_typesIn_iff.mpr ⟨htype, hsame⟩)
    (mem_typesIn_iff.mpr ⟨hother, rfl⟩) hname

/-- The structs of the modules are those of the types. -/
theorem mem_structPaths_iff (hlinked : graph.Linked) {path : StructPath} :
    path ∈ (graph.namespaces.map (moduleOf names graph)).flatMap Module.structPaths ↔
      ∃ type ∈ graph.types, path = pathOf options type := by
  have hpath : ∀ type ∈ graph.types,
      (⟨stemOf type.id.namespacePath, names.type type.id⟩ : StructPath) =
      pathOf options type :=
      fun type htype => by rw [pathOf, nameTable_type_eq hlinked.distinct hnames htype]
  constructor
  · intro h
    obtain ⟨module, hmodule, hpaths⟩ := List.mem_flatMap.mp h
    obtain ⟨namespacePath, -, rfl⟩ := List.mem_map.mp hmodule
    obtain ⟨struct, hstruct, rfl⟩ := List.mem_map.mp hpaths
    obtain ⟨type, hmem, rfl⟩ := List.mem_map.mp hstruct
    obtain ⟨htype, rfl⟩ := mem_typesIn_iff.mp hmem
    exact ⟨type, htype, hpath type htype⟩
  · intro h
    obtain ⟨type, htype, rfl⟩ := h
    refine List.mem_flatMap.mpr ⟨_, List.mem_map_of_mem (namespacePath_mem htype), ?_⟩
    refine List.mem_map.mpr ⟨_, List.mem_map_of_mem (mem_typesIn_iff.mpr ⟨htype, rfl⟩),
      hpath type htype⟩

/-- No struct has the name of the string type. -/
theorem name_ne_string_of_mem (hlinked : graph.Linked) {path : StructPath}
    (h : path ∈ (graph.namespaces.map (moduleOf names graph)).flatMap Module.structPaths) :
    path.name ≠ "String" := by
  obtain ⟨type, -, rfl⟩ := (mem_structPaths_iff hnames hlinked).mp h
  intro hname
  have hreserved : (pathOf options type).name ∉ reserved := (text_identFor_not_mem _).1
  exact hreserved (hname ▸ by decide)

/-- Where no struct hides a built-in type, a struct holds another one in place only if its type
embeds the type of the other. -/
theorem HoldsInPlace.embeds (hlinked : graph.Linked)
    (hplain : ∀ path ∈ (graph.namespaces.map (moduleOf names graph)).flatMap Module.structPaths,
      path.name ∉ builtInNames) {path other : StructPath}
    (h : HoldsInPlace (graph.namespaces.map (moduleOf names graph)) path other) :
    ∃ type ∈ graph.types, ∃ embedded ∈ graph.types, path = pathOf options type ∧
      other = pathOf options embedded ∧ Embeds graph type embedded := by
  obtain ⟨hother, module, hmodule, struct, hstruct, rfl, written, hwritten, hinplace⟩ := h
  obtain ⟨namespacePath, -, rfl⟩ := List.mem_map.mp hmodule
  obtain ⟨type, hmem, rfl⟩ := List.mem_map.mp hstruct
  obtain ⟨htype, rfl⟩ := mem_typesIn_iff.mp hmem
  obtain ⟨field, hfield, rfl⟩ := List.mem_map.mp hwritten
  have htypepath : (⟨stemOf type.id.namespacePath, names.type type.id⟩ : StructPath) =
      pathOf options type := by
    rw [pathOf, nameTable_type_eq hlinked.distinct hnames htype]
  rcases inPlace?_fieldType hinplace with hbuiltin | ⟨hrecursive, id, hnamed, rfl⟩
  · rcases List.mem_cons.mp hbuiltin with hstring | hbuiltin
    · exact absurd hstring (name_ne_string_of_mem hnames hlinked hother)
    · exact absurd hbuiltin (hplain other hother)
  · have htarget : id ∈ graph.types.map TypeNode.id :=
      hlinked.target_mem type htype field hfield id (by rw [hnamed, FieldType.target?])
    obtain ⟨embedded, hfind⟩ := exists_find?_eq_some htarget
    obtain ⟨hembedded, rfl⟩ := find?_eq_some hfind
    refine ⟨type, htype, embedded, hembedded, htypepath, ?_, ?_⟩
    · rw [pathOf, nameTable_type_eq hlinked.distinct hnames hembedded]
    · exact (embeds_iff graph type embedded).mpr ⟨field, hfield, hrecursive,
        embedded.id, hnamed, hfind⟩

/-- Where modules have different identifiers and no struct hides a built-in type, structs are of
finite size. Steps from struct to struct are steps from type to type. -/
theorem finiteSize_moduleOf (hlinked : graph.Linked) (hstems : (graph.namespaces.map stemOf).Nodup)
    (hplain : ∀ path ∈ (graph.namespaces.map (moduleOf names graph)).flatMap Module.structPaths,
      path.name ∉ builtInNames) : FiniteSize (graph.namespaces.map (moduleOf names graph)) := by
  intro path hcycle
  have hsteps : ∀ other, TransGen (HoldsInPlace (graph.namespaces.map (moduleOf names graph)))
      path other →
      ∃ type ∈ graph.types, ∃ embedded ∈ graph.types, path = pathOf options type ∧
        other = pathOf options embedded ∧
        TransGen (Embeds graph) type embedded := by
    intro other h
    induction h with
    | single hholds =>
      obtain ⟨type, htype, embedded, hembedded, hpath, hother, hembeds⟩ :=
        hholds.embeds hnames hlinked hplain
      exact ⟨type, htype, embedded, hembedded, hpath, hother, .single hembeds⟩
    | tail _ hholds ih =>
      obtain ⟨type, htype, between, hbetween, hpath, hmiddle, hembeds⟩ := ih
      obtain ⟨same, hsame, embedded, hembedded, hfrom, hother, hlast⟩ :=
        hholds.embeds hnames hlinked hplain
      obtain rfl := pathOf_injOn hnames hstems hbetween hsame (hmiddle.symm.trans hfrom)
      exact ⟨type, htype, embedded, hembedded, hpath, hother, .tail hembeds hlast⟩
  obtain ⟨type, htype, embedded, hembedded, hpath, hsame, hembeds⟩ := hsteps path hcycle
  obtain rfl := pathOf_injOn hnames hstems htype hembedded (hpath.symm.trans hsame)
  exact embeds_acyclic hlinked htype hembeds

end Built

/-! ## Built modules -/

/-- Of a built graph, structs are of finite size if modules have different identifiers and no struct
hides a built-in type. And a field that is not a list is boxed if the type that it refers to reaches
its owner again. -/
theorem finiteSize_of_build (files : List Schema.SchemaFile) (graph : TypeGraph)
    (options : NamingOptions) (modules : List Module) (hbuild : Graph.build files = .ok graph)
    (hmodules : build options graph = .ok modules) :
    ((modules.map Module.stem).Nodup →
      (∀ path ∈ modules.flatMap Module.structPaths, path.name ∉ builtInNames) →
      FiniteSize modules) ∧
    ∀ type ∈ graph.types, ∀ field ∈ type.fields, field.isNamed = true →
      (∃ target, field.type.target? = some target ∧ ReflTransGen graph.RefersTo target type.id) →
        ∃ module ∈ modules, ∃ struct ∈ module.structs, ∃ written ∈ struct.fields,
          pathOf options type = ⟨module.stem, struct.name⟩ ∧ written.source = field.name ∧
          written.type.Boxed := by
  have hlinked := Graph.linked_of_build hbuild
  obtain ⟨-, names, hnames, rfl⟩ := build_eq_ok hmodules
  refine ⟨fun hstems hplain => finiteSize_moduleOf hnames hlinked ?_ hplain,
    fun type htype field hfield hnamed hreaches => ?_⟩
  · rwa [List.map_map] at hstems
  · have hrecursive := (hlinked.recursive_iff type htype field hfield).mpr hreaches
    refine ⟨_, List.mem_map_of_mem (namespacePath_mem htype), structOf names type,
      List.mem_map_of_mem (mem_typesIn_iff.mpr ⟨htype, rfl⟩), _,
      List.mem_map_of_mem hfield, ?_, rfl, boxed_fieldType names _ hrecursive hnamed⟩
    rw [pathOf, ← nameTable_type_eq hlinked.distinct hnames htype]
    rfl

/-- Two types of different namespaces that hold each other as optional values, and a third one that
both of them hold. -/
def sampleCycle : List Schema.SchemaFile :=
  [⟨"a.schema", "a", [⟨"Leaf", "a", [], none, .nowhere⟩,
      ⟨"Node", "a", [⟨"next", .named ["b"] "Node", true, none, [], none, .nowhere⟩,
        ⟨"items", .list (.named ["b"] "Node"), false, none, [], none, .nowhere⟩,
        ⟨"leaf", .named [] "Leaf", false, none, [], none, .nowhere⟩], none, .nowhere⟩]⟩,
    ⟨"b.schema", "b", [⟨"Node", "b", [⟨"back", .named ["a"] "Node", true, none, [], none, .nowhere⟩,
      ⟨"leaf", .named ["a"] "Leaf", true, none, [], none, .nowhere⟩], none, .nowhere⟩]⟩]

/-- The fields on the cycle are boxed inside of the optional value, and lists are not. -/
theorem finiteSize_sampleCycle : ∃ graph modules, Graph.build sampleCycle = .ok graph ∧
    build keptNaming graph = .ok modules ∧ (modules.map Module.stem).Nodup ∧
    (∀ path ∈ modules.flatMap Module.structPaths, path.name ∉ builtInNames) ∧ FiniteSize modules ∧
    modules.map (fun module => module.structs.map
      fun struct => struct.fields.map fun field => field.type.text) =
      [[[], ["Vec<super::b::Node>", "Leaf", "Option<Box<super::b::Node>>"]],
        [["Option<Box<super::a::Node>>", "Option<super::a::Leaf>"]]] := by
  have hmade : (Graph.build sampleCycle).toOption.bind (fun graph =>
      (build keptNaming graph).toOption.map fun modules =>
        (modules.map Module.stem, modules.flatMap Module.structPaths,
          modules.map fun module => module.structs.map
            fun struct => struct.fields.map fun field => field.type.text)) =
      some (["a", "b"], [⟨"a", "Leaf"⟩, ⟨"a", "Node"⟩, ⟨"b", "Node"⟩],
        [[[], ["Vec<super::b::Node>", "Leaf", "Option<Box<super::b::Node>>"]],
          [["Option<Box<super::a::Node>>", "Option<super::a::Leaf>"]]]) := by cbv
  obtain ⟨graph, hgraph, hmade⟩ := Option.bind_eq_some_iff.mp hmade
  obtain ⟨modules, hmodules, hmade⟩ := Option.map_eq_some_iff.mp hmade
  simp only [Prod.mk.injEq] at hmade
  obtain ⟨hstems, hpaths, htypes⟩ := hmade
  have hbuild := eq_ok_of_toOption hgraph
  have hdistinct : (modules.map Module.stem).Nodup := by
    rw [hstems]
    decide
  have hplain : ∀ path ∈ modules.flatMap Module.structPaths, path.name ∉ builtInNames := by
    rw [hpaths]
    decide
  exact ⟨graph, modules, hbuild, eq_ok_of_toOption hmodules, hdistinct, hplain,
    (finiteSize_of_build sampleCycle graph keptNaming modules hbuild (eq_ok_of_toOption hmodules)).1
    hdistinct hplain, htypes⟩

/-- Types of three namespaces, two of which have the same identifier. -/
def sampleSelf : List Schema.SchemaFile :=
  [⟨"a.schema", "self", [⟨"A", "self", [], none, .nowhere⟩]⟩,
    ⟨"b.schema", "self_",
      [⟨"A", "self_", [⟨"s", .named ["y"] "S", false, none, [], none, .nowhere⟩], none, .nowhere⟩]⟩,
    ⟨"c.schema", "y",
      [⟨"S", "y", [⟨"a", .named ["self"] "A", false, none, [], none, .nowhere⟩], none, .nowhere⟩]⟩]

/-- The modules of the three namespaces, two of which have the same identifier. -/
def selfModules : List Module :=
  [⟨"self_", [⟨"A", [], []⟩]⟩,
    ⟨"self_", [⟨"A", [], [⟨"s", "s", [], .struct (some "y") "S", .refused⟩]⟩]⟩,
    ⟨"y", [⟨"S", [], [⟨"a", "a", [], .struct (some "self_") "A", .refused⟩]⟩]⟩]

/-- A struct that hides a built-in type holds itself in place, and so does a struct that stands in
for another one in a module of the same identifier. -/
theorem exists_holdsInPlace_self :
    (∃ graph modules path, Graph.build [schemaFileOf "" "i64"] = .ok graph ∧
      build keptNaming graph = .ok modules ∧ TransGen (HoldsInPlace modules) path path) ∧
    ∃ graph path, Graph.build sampleSelf = .ok graph ∧
      build keptNaming graph = .ok selfModules ∧ TransGen (HoldsInPlace selfModules) path path := by
  constructor
  · have hmade : (Graph.build [schemaFileOf "" "i64"]).toOption.bind (fun graph =>
        (build keptNaming graph).toOption) =
        some [⟨"types", [⟨"i64", [], [⟨"x", "x", [], .int64, .refused⟩]⟩]⟩] := by cbv
    obtain ⟨graph, hgraph, hmodules⟩ := Option.bind_eq_some_iff.mp hmade
    exact ⟨graph, _, ⟨"types", "i64"⟩, eq_ok_of_toOption hgraph, eq_ok_of_toOption hmodules,
      .single (by decide)⟩
  · have hmade : (Graph.build sampleSelf).toOption.bind
        (fun graph => (build keptNaming graph).toOption) = some selfModules := by cbv
    obtain ⟨graph, hgraph, hmodules⟩ := Option.bind_eq_some_iff.mp hmade
    have hthere : HoldsInPlace selfModules ⟨"self_", "A"⟩ ⟨"y", "S"⟩ := by decide
    have hback : HoldsInPlace selfModules ⟨"y", "S"⟩ ⟨"self_", "A"⟩ := by decide
    exact ⟨graph, _, eq_ok_of_toOption hgraph, eq_ok_of_toOption hmodules,
      .head hthere (.single hback)⟩

end SchemaBindings.Bindings.RustModules
