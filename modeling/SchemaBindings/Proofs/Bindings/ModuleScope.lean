import SchemaBindings.Proofs.Bindings.ReservedWords

/-!
# Names at the scope of a module

A TypeScript or Python module binds a name for every other namespace that it refers to, and the
names of its own types. The stems of modules are checked before reserved words among them are
escaped, and not against the names of types. So a module binds a name twice exactly if two of those
namespaces have a reserved word and that word with an underscore as their stems, or if a type is
named as one of them is called. In every other module, a qualified reference means the module of the
namespace that it was written for.
-/

namespace SchemaBindings.Bindings

open SchemaBindings.Graph (Field FieldType TypeId TypeNode)
open SchemaBindings.Naming (moduleStem)
open SchemaBindings.Text (nameSet_nodup mem_nameSet_iff)

/-! ## Scopes -/

/-- What a module binds a name for: the module of another namespace, or a type of its own. -/
inductive Entity where
  | module (namespacePath : String)
  | type (id : TypeId)
deriving DecidableEq

/-- How a language names what modules bind: the words that other modules may not be called, and the
names of types. -/
structure ModuleScope where
  reserved : List String
  typeName : TypeNode → String
  suffixed : ∀ word ∈ reserved, word ++ "_" ∉ reserved

namespace ModuleScope

variable (scope : ModuleScope) (graph : TypeGraph) (namespacePath : String)

/-- What other modules call the module of a namespace. -/
def qualifier : String :=
  escape scope.reserved (moduleStem namespacePath)

/-- The names that the module of a namespace binds, each with what it is bound for. -/
def bindings : List (String × Entity) :=
  ((graph.foreignNamespaces namespacePath).map
    fun foreign => (scope.qualifier foreign, .module foreign)) ++
    (graph.typesIn namespacePath).map fun type => (scope.typeName type, .type type.id)

/-- Whether the names that the module of a namespace binds keep apart: of the other namespaces that
it refers to, no two have a reserved word and that word with an underscore as their stems, and no
type is named as one of them is called. -/
structure Apart : Prop where
  stems : ∀ a ∈ graph.foreignNamespaces namespacePath, moduleStem a ∈ scope.reserved →
    ∀ b ∈ graph.foreignNamespaces namespacePath, moduleStem b ≠ moduleStem a ++ "_"
  types : ∀ foreign ∈ graph.foreignNamespaces namespacePath, ∀ type ∈ graph.typesIn namespacePath,
    scope.qualifier foreign ≠ scope.typeName type

/-- The qualified name of the target of a field's type, if it is of another namespace. -/
def targetReference? (name : TypeId → String) (type : FieldType) : Option (String × String) :=
  (type.target?.filter fun id => id.namespacePath ≠ namespacePath).map fun id =>
    (scope.qualifier id.namespacePath, name id)

/-- Whether a reference that may have been written for a field was written for a type of another
namespace. -/
def WrittenFor (field : Field) (reference? : Option (String × String)) : Prop :=
  ∀ reference, reference? = some reference →
    ∃ type ∈ graph.types, field.type.target? = some type.id ∧
    type.id.namespacePath ∈ graph.foreignNamespaces namespacePath ∧
    reference = (scope.qualifier type.id.namespacePath, scope.typeName type)

/-- Whether a reference that may have been written for a field means the type that the field refers
to: its qualifier is bound for the module of that type's namespace and for nothing else. -/
def Means (field : Field) (reference? : Option (String × String)) : Prop :=
  ∀ reference, reference? = some reference →
    ∃ type ∈ graph.types, field.type.target? = some type.id ∧
    reference.2 = scope.typeName type ∧
    ∀ entity, (reference.1, entity) ∈ scope.bindings graph namespacePath ↔
      entity = .module type.id.namespacePath

/-- Whether the module of a namespace keeps to a scope, as far as the names that it binds and the
references to other modules go, of which there is one or none for each field. -/
structure Describes (bound : List String) (references : List (Option (String × String))) :
    Prop where
  bound_eq : bound = (scope.bindings graph namespacePath).map Prod.fst
  nodup_iff : bound.Nodup ↔ scope.Apart graph namespacePath
  means : bound.Nodup →
    List.Forall₂ (scope.Means graph namespacePath)
      ((graph.typesIn namespacePath).flatMap TypeNode.fields) references

end ModuleScope

/-! ## Other namespaces -/

/-- A module refers to the namespaces of the targets of its fields, apart from its own. -/
theorem mem_foreignNamespaces_iff {graph : TypeGraph} {namespacePath foreign : String} :
    foreign ∈ graph.foreignNamespaces namespacePath ↔ foreign ≠ namespacePath ∧
      ∃ type ∈ graph.typesIn namespacePath, ∃ field ∈ type.fields, ∃ target,
        field.type.target? = some target ∧ target.namespacePath = foreign := by
  simp only [TypeGraph.foreignNamespaces, mem_nameSet_iff, List.mem_filter,
    List.mem_map, List.mem_flatMap, List.mem_filterMap, decide_eq_true_eq]
  constructor
  · intro h
    obtain ⟨⟨target, ⟨type, htype, field, hfield, htarget⟩, rfl⟩, hne⟩ := h
    exact ⟨hne, type, htype, field, hfield, target, htarget, rfl⟩
  · intro h
    obtain ⟨hne, type, htype, field, hfield, target, htarget, rfl⟩ := h
    exact ⟨⟨target, ⟨type, htype, field, hfield, htarget⟩, rfl⟩, hne⟩

/-- What a linked graph refers to are its own namespaces. -/
theorem foreignNamespaces_subset {graph : TypeGraph} (hlinked : graph.Linked)
    (namespacePath : String) :
    graph.foreignNamespaces namespacePath ⊆ graph.namespaces := by
  intro foreign hforeign
  obtain ⟨-, type, htype, field, hfield, target, htarget, rfl⟩ :=
    mem_foreignNamespaces_iff.mp hforeign
  have hmem := hlinked.target_mem type (mem_typesIn_iff.mp htype).1 field hfield target htarget
  obtain ⟨other, hother, rfl⟩ := List.mem_map.mp hmem
  exact namespacePath_mem hother

/-- Distinct stems stay distinct among the namespaces that a module refers to. -/
theorem foreignStems_nodup {graph : TypeGraph} (hlinked : graph.Linked)
    (hstems : (graph.namespaces.map moduleStem).Nodup) (namespacePath : String) :
    ((graph.foreignNamespaces namespacePath).map moduleStem).Nodup := by
  have hsubset := foreignNamespaces_subset hlinked namespacePath
  refine List.Nodup.map_on (fun a ha b hb hstem => ?_) (nameSet_nodup _)
  exact List.inj_on_of_nodup_map hstems (hsubset ha) (hsubset hb) hstem

/-! ## What names mean -/

/-- Where no key occurs twice, a key has one value only. -/
theorem mem_iff_of_keys_nodup {α β : Type} {entries : List (α × β)}
    (h : (entries.map Prod.fst).Nodup) {key : α} {value : β} (hvalue : (key, value) ∈ entries)
    (other : β) : (key, other) ∈ entries ↔ other = value := by
  constructor
  · intro hother
    exact (Prod.mk.inj (List.inj_on_of_nodup_map h hother hvalue rfl)).2
  · intro heq
    exact heq ▸ hvalue

/-- Elements of parts are related to their images if they are so in each part. -/
theorem forall₂_flatMap_map {α β γ : Type} {r : β → γ → Prop} {parts : α → List β}
    {image : α → β → γ} {wholes : List α} (h : ∀ a ∈ wholes, ∀ b ∈ parts a, r b (image a b)) :
    List.Forall₂ r (wholes.flatMap parts) (wholes.flatMap fun a => (parts a).map (image a)) := by
  induction wholes with
  | nil => exact .nil
  | cons a rest ih =>
    rw [List.forall_mem_cons] at h
    rw [List.flatMap_cons, List.flatMap_cons]
    exact List.rel_append (List.forall₂_map_right_iff.mpr (List.forall₂_same.mpr h.1)) (ih h.2)

namespace ModuleScope

variable {scope : ModuleScope} {graph : TypeGraph} {namespacePath : String}

/-- The names that a module binds. -/
theorem map_fst_bindings : (scope.bindings graph namespacePath).map Prod.fst =
    (graph.foreignNamespaces namespacePath).map scope.qualifier ++
      (graph.typesIn namespacePath).map scope.typeName := by
  rw [bindings, List.map_append, List.map_map, List.map_map]
  rfl

/-- Where no name is bound twice, a reference means what it was written for. -/
theorem WrittenFor.means {field : Field} {reference? : Option (String × String)}
    (h : scope.WrittenFor graph namespacePath field reference?)
    (hnodup : ((scope.bindings graph namespacePath).map Prod.fst).Nodup) :
    scope.Means graph namespacePath field reference? := by
  intro reference hreference
  obtain ⟨type, htype, htarget, hforeign, rfl⟩ := h reference hreference
  have hbinding : (scope.qualifier type.id.namespacePath, Entity.module type.id.namespacePath) ∈
      scope.bindings graph namespacePath := List.mem_append_left _ (List.mem_map_of_mem hforeign)
  exact ⟨type, htype, htarget, rfl, mem_iff_of_keys_nodup hnodup hbinding⟩

section Linked

variable (hlinked : graph.Linked)

include hlinked

/-- A qualified name of a field's target is written for the type of another namespace that it is. -/
theorem writtenFor_of_target {type : TypeNode} (htype : type ∈ graph.typesIn namespacePath)
    {field : Field} (hfield : field ∈ type.fields) {name : TypeId → String}
    (hname : ∀ type ∈ graph.types, name type.id = scope.typeName type)
    {reference? : Option (String × String)}
    (hwritten : ∀ reference, reference? = some reference →
      scope.targetReference? namespacePath name field.type = some reference) :
    scope.WrittenFor graph namespacePath field reference? := by
  intro reference hreference
  obtain ⟨id, hid, rfl⟩ := Option.map_eq_some_iff.mp (hwritten reference hreference)
  obtain ⟨htarget, hforeign⟩ := Option.filter_eq_some_iff.mp hid
  obtain ⟨target, hmem, rfl⟩ := List.mem_map.mp
    (hlinked.target_mem type (mem_typesIn_iff.mp htype).1 field hfield id htarget)
  rw [hname target hmem]
  exact ⟨target, hmem, htarget, mem_foreignNamespaces_iff.mpr
    ⟨of_decide_eq_true hforeign, type, htype, field, hfield, target.id, htarget, rfl⟩, rfl⟩

variable (hstems : (graph.namespaces.map moduleStem).Nodup)
  (htypes : ((graph.typesIn namespacePath).map scope.typeName).Nodup)

include hstems htypes

/-- Where stems and the names of types are distinct, a module binds no name twice exactly if the
names keep apart. -/
theorem bindings_nodup_iff :
    ((scope.bindings graph namespacePath).map Prod.fst).Nodup ↔
    scope.Apart graph namespacePath := by
  have hqualifiers : ((graph.foreignNamespaces namespacePath).map scope.qualifier).Nodup ↔
      ∀ a ∈ graph.foreignNamespaces namespacePath, moduleStem a ∈ scope.reserved →
        ∀ b ∈ graph.foreignNamespaces namespacePath, moduleStem b ≠ moduleStem a ++ "_" :=
    escapedStems_nodup_iff scope.suffixed (foreignStems_nodup hlinked hstems namespacePath)
  rw [map_fst_bindings, List.nodup_append, hqualifiers]
  simp only [List.forall_mem_map]
  constructor
  · intro h
    exact ⟨h.1, h.2.2⟩
  · intro h
    exact ⟨h.stems, htypes, h.types⟩

/-- A module keeps to the scope if it binds what the scope says and writes references as qualified
names of targets. -/
theorem describes_of_written {name : TypeId → String}
    (hname : ∀ type ∈ graph.types, name type.id = scope.typeName type) {bound : List String}
    (hbound : bound = (graph.foreignNamespaces namespacePath).map scope.qualifier ++
      (graph.typesIn namespacePath).map fun type => name type.id)
    {written : TypeNode → Field → Option (String × String)}
    (hwritten : ∀ type ∈ graph.typesIn namespacePath,
      ∀ field reference, written type field = some reference →
        scope.targetReference? namespacePath name field.type = some reference) :
    scope.Describes graph namespacePath bound
      ((graph.typesIn namespacePath).flatMap fun type => type.fields.map (written type)) := by
  obtain rfl : bound = (scope.bindings graph namespacePath).map Prod.fst := by
    rw [hbound, map_fst_bindings]
    exact congrArg _ (List.map_congr_left fun type htype => hname type (mem_typesIn_iff.mp htype).1)
  refine ⟨rfl, bindings_nodup_iff hlinked hstems htypes, fun hnodup => ?_⟩
  refine forall₂_flatMap_map fun type htype field hfield => ?_
  exact (writtenFor_of_target hlinked htype hfield hname (hwritten type htype field)).means hnodup

end Linked

end ModuleScope

/-! ## Written files -/

/-- Whatever is collected was among the files. Files are added to those that are there already, so
the induction is for any such files. -/
theorem mem_of_mem_collectFiles {files : List EmittedFile} {file : EmittedFile}
    (h : file ∈ collectFiles files) :
    file ∈ files := by
  have hadd : ∀ kept next, ∀ file ∈ addFile kept next, file ∈ kept ∨ file = next := by
    intro kept next file hmem
    unfold addFile at hmem
    split at hmem
    · obtain ⟨other, hother, rfl⟩ := List.mem_map.mp hmem
      split
      · exact .inr rfl
      · exact .inl hother
    · simpa using hmem
  have hfold : ∀ kept, ∀ file ∈ files.foldl addFile kept, file ∈ kept ∨ file ∈ files := by
    clear h
    induction files with
    | nil => simp
    | cons next rest ih =>
      intro kept file hmem
      rcases ih (addFile kept next) file hmem with hkept | hrest
      · rcases hadd kept next file hkept with hkept | rfl
        · exact .inl hkept
        · exact .inr List.mem_cons_self
      · exact .inr (List.mem_cons_of_mem _ hrest)
  simpa using hfold [] file h

/-! ## TypeScript modules -/

namespace TypeScriptModules

/-- The scope of TypeScript modules. -/
def scope (options : NamingOptions) : ModuleScope :=
  ⟨reserved, interfaceName options, suffixed_not_reserved⟩

/-- The alias and the name in a reference to an interface of another module. -/
def TsType.reference? : TsType → Option (String × String)
  | .interface (some outer) name => some (outer, name)
  | .array element => element.reference?
  | _ => none

/-- The names that a module binds. -/
def Module.boundNames (module : Module) : List String :=
  module.imports.map Import.name ++ module.interfaces.map Interface.name

/-- The references to other modules, for each member. -/
def Module.references (module : Module) : List (Option (String × String)) :=
  module.interfaces.flatMap
    fun interface => interface.members.map fun member => member.type.reference?

/-- The file of a module. -/
def Module.file (module : Module) : EmittedFile :=
  .ofLines module.path module.lines

/-- A reference to another module is written exactly for a target of another namespace. -/
theorem reference?_typeOf (options : NamingOptions) (names : NameTable) (namespacePath : String)
    (type : FieldType) :
    (typeOf names namespacePath type).reference? =
      (scope options).targetReference? namespacePath names.type type := by
  induction type with
  | primitive kind => cases kind <;> rfl
  | named id =>
    by_cases hsame : id.namespacePath = namespacePath
    · simp [typeOf, TsType.reference?, ModuleScope.targetReference?, FieldType.target?, hsame]
    · simp [typeOf, TsType.reference?, ModuleScope.targetReference?, FieldType.target?, hsame]
      rfl
  | list element ih => exact ih

/-- The module of a namespace keeps to the scope. -/
theorem describes_moduleOf {options : NamingOptions} {graph : TypeGraph} (hlinked : graph.Linked)
    (hstems : (graph.namespaces.map moduleStem).Nodup) {names : NameTable}
    (hnames : namesOf options graph = .ok names) {namespacePath : String}
    (hmem : namespacePath ∈ graph.namespaces) :
    (scope options).Describes graph namespacePath (moduleOf names graph namespacePath).boundNames
      (moduleOf names graph namespacePath).references := by
  obtain ⟨-, hgroups, -⟩ := (nameTable_build_eq_ok_iff _ _ _ _ _ _).mp hnames
  have hreferences : (moduleOf names graph namespacePath).references =
      (graph.typesIn namespacePath).flatMap fun type =>
      type.fields.map fun field => (typeOf names type.id.namespacePath field.type).reference? := by
    simp only [Module.references, moduleOf, List.flatMap_map, interfaceOf, List.map_map]
    rfl
  rw [hreferences]
  refine ModuleScope.describes_of_written hlinked hstems (hgroups _ (List.mem_map_of_mem hmem))
    (fun type htype => nameTable_type_eq hlinked.distinct hnames htype) ?_
    fun type htype field reference hreference => ?_
  · rw [Module.boundNames, moduleOf, List.map_map, List.map_map]
    rfl
  · rwa [(mem_typesIn_iff.mp htype).2, reference?_typeOf options] at hreference

/-- Bindings are the files of the modules of all namespaces, with pairwise different paths. -/
theorem files_of_emit {options : NamingOptions} {graph : TypeGraph} {emitted : List EmittedFile}
    (h : emit options graph = .ok emitted) : (graph.namespaces.map moduleStem).Nodup ∧
      ∃ names, namesOf options graph = .ok names ∧
        emitted = (graph.namespaces.map
          fun namespacePath => (moduleOf names graph namespacePath).file) ∧
        (emitted.map EmittedFile.path).Nodup := by
  unfold emit at h
  split at h
  · contradiction
  next modules hmodules =>
  obtain ⟨hstems, names, hnames, rfl⟩ := build_eq_ok hmodules
  obtain rfl := Except.ok.inj h
  have hfiles : (graph.namespaces.map (moduleOf names graph)).map
      (fun module => EmittedFile.ofLines module.path module.lines) =
        graph.namespaces.map fun namespacePath => (moduleOf names graph namespacePath).file := by
    rw [List.map_map]
    rfl
  have hpaths : ((graph.namespaces.map fun namespacePath =>
      (moduleOf names graph namespacePath).file).map EmittedFile.path).Nodup := by
    rw [List.map_map]
    refine List.Nodup.map_on (fun a ha b hb hpath => ?_) hstems.of_map
    exact List.inj_on_of_nodup_map hstems ha hb ((String.append_left_inj _).mp hpath)
  rw [hfiles, collectFiles_eq_self hpaths]
  exact ⟨hstems, names, hnames, rfl, hpaths⟩

end TypeScriptModules

/-! ## Python packages -/

namespace PythonPackage

/-- The scope of Python modules. -/
def scope (options : NamingOptions) : ModuleScope :=
  ⟨reserved, className options, layout.suffixed_not_reserved⟩

/-- The module and the name in a reference to a model of another module. -/
def Hint.reference? : Hint → Option (String × String)
  | .model (some module) name => some (module, name)
  | .list element => element.reference?
  | .optional value => value.reference?
  | .annotated value _ => value.reference?
  | _ => none

/-- The names that a module binds beside those that it imports from libraries, which are
reserved. -/
def Module.boundNames (module : Module) : List String :=
  module.siblings ++ module.classes.map Class.name

/-- The references to other modules, for each attribute. -/
def Module.references (module : Module) : List (Option (String × String)) :=
  module.classes.flatMap fun model => model.attributes.map fun member => member.hint.reference?

/-- The file of a module. -/
def Module.file (module : Module) : EmittedFile :=
  .ofLines module.path module.lines

/-- A reference to another module is written exactly for a target of another namespace. -/
theorem reference?_typeHint (options : NamingOptions) (names : NameTable) (namespacePath : String)
    (type : FieldType) :
    (typeHint names namespacePath type).reference? =
      (scope options).targetReference? namespacePath names.type type := by
  induction type with
  | primitive kind => cases kind <;> rfl
  | named id =>
    by_cases hsame : id.namespacePath = namespacePath
    · simp [typeHint, Hint.reference?, ModuleScope.targetReference?, FieldType.target?, hsame]
    · simp [typeHint, Hint.reference?, ModuleScope.targetReference?, FieldType.target?, hsame]
      rfl
  | list element ih => exact ih

/-- The hint for a field refers to what the hint for its type refers to, unless the field is a URL,
which has a type of its own. -/
theorem reference?_fieldHint (names : NameTable) (namespacePath : String) (field : Field) :
    (fieldHint names namespacePath field).reference? =
      if .url ∈ field.validators then none
      else (typeHint names namespacePath field.type).reference? := by
  unfold fieldHint
  dsimp only
  split <;> split <;> split <;> rfl

/-- The module of a namespace keeps to the scope. -/
theorem describes_moduleOf {options : NamingOptions} {graph : TypeGraph} (hlinked : graph.Linked)
    (hstems : (graph.namespaces.map moduleStem).Nodup) {names : NameTable}
    (hnames : namesOf options graph = .ok names) {namespacePath : String}
    (hmem : namespacePath ∈ graph.namespaces) :
    (scope options).Describes graph namespacePath (moduleOf names graph namespacePath).boundNames
      (moduleOf names graph namespacePath).references := by
  obtain ⟨-, hgroups, -⟩ := (nameTable_build_eq_ok_iff _ _ _ _ _ _).mp hnames
  have hreferences : (moduleOf names graph namespacePath).references =
      (graph.typesIn namespacePath).flatMap fun type =>
      type.fields.map fun field => (fieldHint names type.id.namespacePath field).reference? := by
    simp only [Module.references, moduleOf, List.flatMap_map, classOf, List.map_map]
    rfl
  rw [hreferences]
  refine ModuleScope.describes_of_written hlinked hstems (hgroups _ (List.mem_map_of_mem hmem))
    (fun type htype => nameTable_type_eq hlinked.distinct hnames htype) ?_
    fun type htype field reference hreference => ?_
  · rw [Module.boundNames, moduleOf, List.map_map]
    rfl
  · rw [(mem_typesIn_iff.mp htype).2, reference?_fieldHint] at hreference
    split at hreference
    · contradiction
    · rwa [reference?_typeHint options] at hreference

/-- Bindings are files of modules and an index. If the namespaces keep apart, these are the files of
the modules of all namespaces, with pairwise different paths. -/
theorem files_of_emit {options : NamingOptions} {graph : TypeGraph} {emitted : List EmittedFile}
    (h : emit options graph = .ok emitted) : (graph.namespaces.map moduleStem).Nodup ∧
      ∃ names index, namesOf options graph = .ok names ∧ index.path = initPath ∧
        (∀ file ∈ emitted, file = index ∨
          ∃ namespacePath ∈ graph.namespaces, file = (moduleOf names graph namespacePath).file) ∧
        (layout.Separate graph →
          emitted = (graph.namespaces.map
            fun namespacePath => (moduleOf names graph namespacePath).file) ++ [index] ∧
          (emitted.map EmittedFile.path).Nodup) := by
  unfold emit at h
  split at h
  · contradiction
  next package hpackage =>
  obtain ⟨hstems, names, hnames, hmade⟩ := build_eq_ok hpackage
  obtain rfl := Except.ok.inj h
  have hmodules : package.modules.map (fun module => EmittedFile.ofLines module.path module.lines) =
      graph.namespaces.map fun namespacePath => (moduleOf names graph namespacePath).file := by
    rw [hmade, List.map_map]
    rfl
  rw [hmodules]
  refine ⟨hstems, names, .ofLines initPath package.initLines, hnames, rfl,
    fun file hfile => ?_, fun hseparate => ?_⟩
  · rcases List.mem_append.mp (mem_of_mem_collectFiles hfile) with hfile | hindex
    · obtain ⟨namespacePath, hmem, rfl⟩ := List.mem_map.mp hfile
      exact .inr ⟨namespacePath, hmem, rfl⟩
    · exact .inl (List.mem_singleton.mp hindex)
  · have hpaths :
        (((graph.namespaces.map fun namespacePath => (moduleOf names graph namespacePath).file) ++
        [EmittedFile.ofLines initPath package.initLines]).map EmittedFile.path).Nodup := by
      rw [List.map_append, List.map_map]
      exact (layout.paths_nodup_iff hstems).mpr hseparate
    rw [collectFiles_eq_self hpaths]
    exact ⟨rfl, hpaths⟩

end PythonPackage

/-! ## Built graphs -/

/-- Bindings of a built graph are the files of the modules of its namespaces, for Python unless
files fall together. Every module binds no name twice exactly if the names of its namespace keep
apart, and then every reference to another module means what it was written for. -/
theorem scopes_of_emit (files : List Schema.SchemaFile) (graph : TypeGraph)
    (options : NamingOptions) (hbuild : Graph.build files = .ok graph) :
    (∀ emitted, TypeScriptModules.emit options graph = .ok emitted →
      ∃ names, TypeScriptModules.namesOf options graph = .ok names ∧
        emitted = (graph.namespaces.map fun namespacePath =>
          (TypeScriptModules.moduleOf names graph namespacePath).file) ∧
        (emitted.map EmittedFile.path).Nodup ∧
        ∀ namespacePath ∈ graph.namespaces,
          (TypeScriptModules.scope options).Describes graph namespacePath
          (TypeScriptModules.moduleOf names graph namespacePath).boundNames
          (TypeScriptModules.moduleOf names graph namespacePath).references) ∧
    ∀ emitted, PythonPackage.emit options graph = .ok emitted →
      ∃ names index, PythonPackage.namesOf options graph = .ok names ∧
        index.path = PythonPackage.initPath ∧
        (∀ file ∈ emitted, file = index ∨ ∃ namespacePath ∈ graph.namespaces,
          file = (PythonPackage.moduleOf names graph namespacePath).file) ∧
        (PythonPackage.layout.Separate graph →
          emitted = (graph.namespaces.map fun namespacePath =>
            (PythonPackage.moduleOf names graph namespacePath).file) ++ [index] ∧
          (emitted.map EmittedFile.path).Nodup) ∧
        ∀ namespacePath ∈ graph.namespaces,
          (PythonPackage.scope options).Describes graph namespacePath
          (PythonPackage.moduleOf names graph namespacePath).boundNames
          (PythonPackage.moduleOf names graph namespacePath).references := by
  have hlinked := Graph.linked_of_build hbuild
  constructor
  · intro emitted hemit
    obtain ⟨hstems, names, hnames, hfiles, hpaths⟩ := TypeScriptModules.files_of_emit hemit
    exact ⟨names, hnames, hfiles, hpaths, fun namespacePath hmem =>
      TypeScriptModules.describes_moduleOf hlinked hstems hnames hmem⟩
  · intro emitted hemit
    obtain ⟨hstems, names, index, hnames, hindex, hfiles, hseparate⟩ :=
      PythonPackage.files_of_emit hemit
    exact ⟨names, index, hnames, hindex, hfiles, hseparate, fun namespacePath hmem =>
      PythonPackage.describes_moduleOf hlinked hstems hnames hmem⟩

/-- A namespace whose stem is a reserved word, and one that refers to it. -/
def sampleReferences : List Schema.SchemaFile :=
  [schemaFileOf "class" "A",
    ⟨"b.schema", "user",
      [⟨"U", "user", [⟨"all", .list (.named ["class"] "A"), false, none, [], none, .nowhere⟩,
      ⟨"first", .named ["class"] "A", true, none, [], none, .nowhere⟩,
      ⟨"next", .named [] "U", true, none, [], none, .nowhere⟩], none, .nowhere⟩]⟩]

/-- The module of a namespace whose stem is a reserved word is imported under an escaped name, which
is bound for it alone. -/
theorem scopes_sampleReferences :
    ∃ graph interfaces models, Graph.build sampleReferences = .ok graph ∧
    TypeScriptModules.emit keptNaming graph = .ok interfaces ∧
    PythonPackage.emit keptNaming graph = .ok models ∧
    (∃ names, (TypeScriptModules.moduleOf names graph "user").file ∈ interfaces ∧
      (TypeScriptModules.moduleOf names graph "user").boundNames = ["class_", "U"] ∧
      List.Forall₂ ((TypeScriptModules.scope keptNaming).Means graph "user")
        ((graph.typesIn "user").flatMap TypeNode.fields)
        (TypeScriptModules.moduleOf names graph "user").references) ∧
    ∃ names, (PythonPackage.moduleOf names graph "user").file ∈ models ∧
      (PythonPackage.moduleOf names graph "user").boundNames = ["class_", "U"] ∧
      List.Forall₂ ((PythonPackage.scope keptNaming).Means graph "user")
        ((graph.typesIn "user").flatMap TypeNode.fields)
        (PythonPackage.moduleOf names graph "user").references := by
  have hmade : (Graph.build sampleReferences).toOption.bind (fun graph =>
      (TypeScriptModules.build keptNaming graph).toOption.bind fun _ =>
        (PythonPackage.build keptNaming graph).toOption.map fun _ =>
          (graph.namespaces, ((TypeScriptModules.scope keptNaming).bindings graph "user").map
            Prod.fst, ((PythonPackage.scope keptNaming).bindings graph "user").map Prod.fst)) =
      some (["class", "user"], ["class_", "U"], ["class_", "U"]) := by cbv
  obtain ⟨graph, hgraph, hmade⟩ := Option.bind_eq_some_iff.mp hmade
  obtain ⟨modules, hmodules, hmade⟩ := Option.bind_eq_some_iff.mp hmade
  obtain ⟨package, hpackage, hmade⟩ := Option.map_eq_some_iff.mp hmade
  simp only [Prod.mk.injEq] at hmade
  obtain ⟨hnamespaces, hinterfaces, hclasses⟩ := hmade
  have hbuild := eq_ok_of_toOption hgraph
  have huser : "user" ∈ graph.namespaces := by simp [hnamespaces]
  have hseparate : PythonPackage.layout.Separate graph := by
    rw [ModuleLayout.Separate, hnamespaces]
    decide
  obtain ⟨interfaces, htypescript⟩ : ∃ interfaces, TypeScriptModules.emit keptNaming graph =
    .ok interfaces :=
    ⟨_, by rw [TypeScriptModules.emit, eq_ok_of_toOption hmodules]⟩
  obtain ⟨models, hpython⟩ : ∃ models, PythonPackage.emit keptNaming graph = .ok models :=
    ⟨_, by rw [PythonPackage.emit, eq_ok_of_toOption hpackage]⟩
  obtain ⟨hscopes, hpackages⟩ := scopes_of_emit sampleReferences graph keptNaming hbuild
  obtain ⟨names, -, hfiles, -, hdescribes⟩ := hscopes interfaces htypescript
  obtain ⟨others, index, -, -, -, hkept, hpackaged⟩ := hpackages models hpython
  refine ⟨graph, interfaces, models, hbuild, htypescript, hpython, ⟨names, ?_, ?_, ?_⟩,
    others, ?_, ?_, ?_⟩
  · rw [hfiles]
    exact List.mem_map_of_mem huser
  · rw [(hdescribes _ huser).bound_eq, hinterfaces]
  · refine (hdescribes _ huser).means ?_
    rw [(hdescribes _ huser).bound_eq, hinterfaces]
    decide
  · rw [(hkept hseparate).1]
    exact List.mem_append_left _ (List.mem_map_of_mem huser)
  · rw [(hpackaged _ huser).bound_eq, hclasses]
  · refine (hpackaged _ huser).means ?_
    rw [(hpackaged _ huser).bound_eq, hclasses]
    decide

/-- Two namespaces with a reserved word and that word with an underscore as their stems, a namespace
that refers to both, and a root type that is named like a namespace that it refers to. -/
def sampleClashes : List Schema.SchemaFile :=
  [schemaFileOf "class" "A", schemaFileOf "class_" "B",
    ⟨"c.schema", "user",
      [⟨"U", "user", [⟨"a", .named ["class"] "A", false, none, [], none, .nowhere⟩,
      ⟨"b", .named ["class_"] "B", false, none, [], none, .nowhere⟩], none, .nowhere⟩]⟩,
    ⟨"d.schema", "",
      [⟨"user", "", [⟨"u", .named ["user"] "U", false, none, [], none, .nowhere⟩],
        none, .nowhere⟩]⟩]

/-- One module imports two others under the same name, and another one imports a module under the
name of its own type. -/
theorem modules_bind_twice :
    (Graph.build sampleClashes).toOption.bind (fun graph =>
      (TypeScriptModules.build keptNaming graph).toOption.bind fun modules =>
        (PythonPackage.build keptNaming graph).toOption.map fun package =>
          (modules.map fun module => (module.stem, module.boundNames),
            package.modules.map fun module => (module.stem, module.boundNames))) =
      some
        ([("types", ["user", "user"]), ("class", ["A"]), ("class_", ["B"]),
          ("user", ["class_", "class_", "U"])], [("types", ["user", "user"]), ("class_", ["A"]),
          ("class_", ["B"]), ("user", ["class_", "class_", "U"])]) ∧
      ¬ ["user", "user"].Nodup ∧ ¬ ["class_", "class_", "U"].Nodup :=
  ⟨by cbv, by decide, by decide⟩

end SchemaBindings.Bindings
