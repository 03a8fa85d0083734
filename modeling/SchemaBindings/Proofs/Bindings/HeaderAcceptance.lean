import SchemaBindings.Proofs.Bindings.HeaderLayers
import SchemaBindings.Proofs.Graph.Fields

/-!
# Which type graphs have a C header

A header is refused for one of five reasons: module stems, names of types, names of fields or names
of members that are written alike, and fields of a type that C has no counterpart for. They are
checked one after the other and on names that are transformed differently, and what members a field
has depends on its type. Both sides are exact: without any of these defects there is a header, and a
refusal shows a defect of the graph.
-/

namespace SchemaBindings.Bindings.CHeader

open SchemaBindings.Graph (Field FieldId FieldType TypeNode fieldIds_nodup_of_build)
open SchemaBindings.Naming (moduleStem)

/-! ## What C can express -/

/-- The types without a counterpart in C, and the reason given for each. -/
inductive Inexpressible : FieldType → Reason → Prop
  | any : Inexpressible (.primitive .any) .anyValue
  | anyList : Inexpressible (.list (.primitive .any)) .anyValue
  | nestedList (element : FieldType) : Inexpressible (.list (.list element)) .nestedList

/-- The flag of a field that may be absent, unless it is held by a pointer, which can be null. -/
def flagNames (field : Field) (name : String) : List String :=
  match field.type with
  | .named _ => if field.optional ∧ ¬ field.recursive then ["has_" ++ name] else []
  | _ => if field.optional then ["has_" ++ name] else []

/-- The length of a list. -/
def lengthNames (field : Field) (name : String) : List String :=
  match field.type with
  | .list _ => [name ++ "_len"]
  | _ => []

/-- The names of the members of a field whose value is called `name`. -/
def memberNames (field : Field) (name : String) : List String :=
  flagNames field name ++ name :: lengthNames field name

/-- The members of a field with the names that are written for them. -/
def memberNamings (field : Field) (name : String) : List Naming :=
  (memberNames field name).map fun emitted => ⟨field.name, emitted⟩

/-- What a type graph needs to have a C header. -/
structure Representable (options : NamingOptions) (graph : TypeGraph) : Prop where
  stems_distinct : (graph.namespaces.map moduleStem).Nodup
  types_distinct : (graph.types.map (structName options)).Nodup
  fields_distinct : ∀ type ∈ graph.types, (type.fields.map (memberName options)).Nodup
  fields_expressible : ∀ type ∈ graph.types, ∀ field ∈ type.fields, ∀ reason,
    ¬ Inexpressible field.type reason
  members_distinct : ∀ type ∈ graph.types,
    (type.fields.flatMap fun field => memberNames field (memberName options field)).Nodup

/-- What a refusal may complain about: the place and the reason are those of names that are written
alike in their scope, or of a field whose type has no counterpart. -/
inductive Defect (options : NamingOptions) (graph : TypeGraph) (unsupported : Unsupported) : Prop
  | stems (h : Clash .c "<modules>"
      (graph.namespaces.map fun path => ⟨namespaceShown path, moduleStem path⟩) unsupported)
  | types (h : Clash .c rootShown
      (graph.types.map fun type => ⟨type.id.shown, structName options type⟩) unsupported)
  | fields {type : TypeNode} (htype : type ∈ graph.types)
      (h : Clash .c type.id.shown
        (type.fields.map fun field => ⟨field.name, memberName options field⟩) unsupported)
  | inexpressible {type : TypeNode} {field : Field} {reason : Reason} (htype : type ∈ graph.types)
      (hfield : field ∈ type.fields) (h : Inexpressible field.type reason)
      (heq : unsupported = ⟨.c, field.id.shown, reason⟩)
  | members {type : TypeNode} (htype : type ∈ graph.types)
      (h : Clash .c type.id.shown
        (type.fields.flatMap fun field => memberNamings field (memberName options field))
        unsupported)

/-- The namings of the members of a field carry the names of these members. -/
theorem emitted_memberNamings (field : Field) (name : String) :
    (memberNamings field name).map Naming.emitted = memberNames field name := by
  rw [memberNamings, List.map_map]
  exact List.map_id _

/-- The namings of the members of fields carry the names of these members. -/
theorem emitted_flatMap_memberNamings (fields : List Field) (name : Field → String) :
    (fields.flatMap fun field => memberNamings field (name field)).map Naming.emitted =
      fields.flatMap fun field => memberNames field (name field) := by
  simp only [List.map_flatMap, emitted_memberNamings]

/-- A graph with a defect has no header. -/
theorem Defect.not_representable {options : NamingOptions} {graph : TypeGraph}
    {unsupported : Unsupported} (h : Defect options graph unsupported) :
    ¬ Representable options graph := by
  intro hgraph
  cases h with
  | stems h => exact h.not_nodup (by rw [List.map_map]; exact hgraph.stems_distinct)
  | types h => exact h.not_nodup (by rw [List.map_map]; exact hgraph.types_distinct)
  | @fields type htype h =>
    exact h.not_nodup (by rw [List.map_map]; exact hgraph.fields_distinct type htype)
  | @inexpressible type field reason htype hfield h =>
    exact hgraph.fields_expressible type htype field hfield reason h
  | @members type htype h =>
    refine h.not_nodup ?_
    rw [emitted_flatMap_memberNamings]
    exact hgraph.members_distinct type htype

/-! ## Members -/

/-- A member under the name that is written for it. -/
def Member.naming (member : Member) : Naming :=
  ⟨member.source, member.name⟩

/-- A single value has no type exactly if it is any value or a list. -/
theorem baseType?_eq_none_iff (names : NameTable) (type : FieldType) :
    baseType? names type = none ↔ type = .primitive .any ∨ ∃ element, type = .list element := by
  cases type with
  | primitive kind => cases kind <;> simp [baseType?]
  | named id => simp [baseType?]
  | list element => simp [baseType?]

/-- A value has no members exactly if its type has no counterpart, and then for the reason given for
it. -/
theorem valueMembers_eq_error_iff (names : NameTable) (field : Field) (name : String)
    (reason : Reason) :
    valueMembers names field name = .error reason ↔ Inexpressible field.type reason := by
  unfold valueMembers
  constructor
  · intro h
    split at h
    · next inner htype =>
      obtain rfl := Except.error.inj h
      exact htype ▸ .nestedList inner
    · next element hflat htype =>
      split at h
      · contradiction
      next hnone =>
      obtain rfl := Except.error.inj h
      rcases (baseType?_eq_none_iff names element).mp hnone with rfl | ⟨inner, rfl⟩
      · exact htype ▸ .anyList
      · exact absurd rfl (hflat inner)
    · next hsingle =>
      split at h
      · contradiction
      next hnone =>
      obtain rfl := Except.error.inj h
      rcases (baseType?_eq_none_iff names field.type).mp hnone with htype | ⟨element, htype⟩
      · exact htype ▸ .any
      · exact absurd htype (hsingle element)
  · intro h
    generalize htype : field.type = type at h
    cases h with
    | any => simp [baseType?]
    | anyList => simp [baseType?]
    | nestedList element => rfl

/-- A flag is there exactly for the fields that need one. -/
theorem map_naming_flagMember (field : Field) (name : String) :
    (flagMember field name).map Member.naming =
      (flagNames field name).map fun emitted => ⟨field.name, emitted⟩ := by
  unfold flagMember flagNames byPointer Field.isNamed
  cases field.type with
  | named id => cases field.optional <;> cases field.recursive <;> rfl
  | primitive kind =>
    rw [Bool.and_false, Bool.not_false, Bool.and_true]
    split <;> rfl
  | list element =>
    rw [Bool.and_false, Bool.not_false, Bool.and_true]
    split <;> rfl

/-- The members that hold a value are called like it, with a length behind a list. -/
theorem map_naming_valueMembers {names : NameTable} {field : Field} {name : String}
    {values : List Member} (h : valueMembers names field name = .ok values) :
    values.map Member.naming =
      (name :: lengthNames field name).map fun emitted => ⟨field.name, emitted⟩ := by
  rcases valueMembers_eq_ok h with ⟨element, base, htype, -, rfl⟩ | ⟨base, hbase, rfl⟩
  · rw [lengthNames, htype]
    rfl
  · have hsingle : lengthNames field name = [] := by
      unfold lengthNames
      split
      · next element htype => simp [htype, baseType?] at hbase
      · rfl
    rw [hsingle]
    rfl

/-- A field has its members unless its type has no counterpart, and then the complaint is about that
field. -/
theorem fieldMembers_cases (names : NameTable) (field : Field) :
    (∃ members, fieldMembers names field = .ok members ∧
      members.map Member.naming = memberNamings field (names.field field.id) ∧
      ∀ reason, ¬ Inexpressible field.type reason) ∨
    ∃ reason, Inexpressible field.type reason ∧
      fieldMembers names field = .error ⟨.c, field.id.shown, reason⟩ := by
  have herror := valueMembers_eq_error_iff names field (names.field field.id)
  unfold fieldMembers
  dsimp only
  cases hvalues : valueMembers names field (names.field field.id) with
  | ok values =>
    refine .inl ⟨_, rfl, ?_, fun reason h => ?_⟩
    · rw [List.map_append, map_naming_flagMember, map_naming_valueMembers hvalues,
        memberNamings, memberNames, List.map_append]
    · rw [← herror reason, hvalues] at h
      contradiction
  | error reason => exact .inr ⟨reason, (herror reason).mp hvalues, rfl⟩

/-- Fields have their members, one field behind the other, unless one of them has a type without a
counterpart. -/
theorem membersOf_cases (names : NameTable) (fields : List Field) :
    (∃ members, membersOf names fields = .ok members ∧
      members.map Member.naming =
        fields.flatMap (fun field => memberNamings field (names.field field.id)) ∧
      ∀ field ∈ fields, ∀ reason, ¬ Inexpressible field.type reason) ∨
    ∃ field ∈ fields, ∃ reason, Inexpressible field.type reason ∧
      membersOf names fields = .error ⟨.c, field.id.shown, reason⟩ := by
  induction fields with
  | nil => exact .inl ⟨[], rfl, rfl, by simp⟩
  | cons field rest ih =>
    rw [membersOf]
    rcases fieldMembers_cases names field with ⟨part, hpart, hnames, hfield⟩ |
      ⟨reason, hreason, herror⟩
    · rw [hpart]
      rcases ih with ⟨others, hothers, hrestNames, hrest⟩ | ⟨other, hother, reason, hreason, herror⟩
      · left
        refine ⟨part ++ others, by rw [hothers], ?_, List.forall_mem_cons.mpr ⟨hfield, hrest⟩⟩
        rw [List.map_append, hnames, hrestNames, List.flatMap_cons]
      · exact .inr ⟨other, List.mem_cons_of_mem _ hother, reason, hreason, by rw [herror]⟩
    · exact .inr ⟨field, List.mem_cons_self, reason, hreason, by rw [herror]⟩

/-! ## Structs -/

/-- What is refused of a type: a field without a counterpart, or members that are written alike. -/
inductive TypeDefect (names : NameTable) (type : TypeNode) (unsupported : Unsupported) : Prop
  | inexpressible {field : Field} {reason : Reason} (hfield : field ∈ type.fields)
      (h : Inexpressible field.type reason) (heq : unsupported = ⟨.c, field.id.shown, reason⟩)
  | members (h : Clash .c type.id.shown
      (type.fields.flatMap fun field => memberNamings field (names.field field.id)) unsupported)

/-- A type has a struct if its fields have counterparts and their members are written differently,
and otherwise one of these defects. -/
theorem structOf_cases (names : NameTable) (type : TypeNode) :
    (∃ struct, structOf names type = .ok struct ∧
      (∀ field ∈ type.fields, ∀ reason, ¬ Inexpressible field.type reason) ∧
      (type.fields.flatMap fun field => memberNames field (names.field field.id)).Nodup) ∨
    ∃ unsupported, structOf names type = .error unsupported ∧
      TypeDefect names type unsupported := by
  unfold structOf
  rcases membersOf_cases names type.fields with
    ⟨members, hmembers, hnames, hfields⟩ | ⟨field, hfield, reason, hreason, herror⟩
  · rw [hmembers]
    dsimp only
    have hnaming : (members.map fun member => (⟨member.source, member.name⟩ : Naming)) = _ := hnames
    rw [hnaming]
    cases hdistinct : ensureDistinct .c type.id.shown
        (type.fields.flatMap fun field => memberNamings field (names.field field.id)) with
    | ok done =>
      refine .inl ⟨_, rfl, hfields, ?_⟩
      rw [← emitted_flatMap_memberNamings]
      exact (ensureDistinct_eq_ok_iff _ _ _ done).mp hdistinct
    | error unsupported =>
      exact .inr ⟨unsupported, rfl, .members (clash_of_ensureDistinct hdistinct)⟩
  · rw [herror]
    exact .inr ⟨_, rfl, .inexpressible hfield hreason rfl⟩

/-- Types have structs unless one of them has a defect. -/
theorem structsOf_cases (names : NameTable) (types : List TypeNode) :
    (∃ structs, structsOf names types = .ok structs ∧ ∀ type ∈ types,
      (∀ field ∈ type.fields, ∀ reason, ¬ Inexpressible field.type reason) ∧
      (type.fields.flatMap fun field => memberNames field (names.field field.id)).Nodup) ∨
    ∃ unsupported, structsOf names types = .error unsupported ∧
      ∃ type ∈ types, TypeDefect names type unsupported := by
  induction types with
  | nil => exact .inl ⟨[], rfl, by simp⟩
  | cons type rest ih =>
    rw [structsOf]
    rcases structOf_cases names type with ⟨struct, hstruct, hgood⟩ | ⟨unsupported, herror, hdefect⟩
    · rw [hstruct]
      rcases ih with ⟨others, hothers, hrest⟩ | ⟨unsupported, herror, other, hother, hdefect⟩
      · exact .inl ⟨struct :: others, by rw [hothers], List.forall_mem_cons.mpr ⟨hgood, hrest⟩⟩
      · exact .inr ⟨unsupported, by rw [herror], other, List.mem_cons_of_mem _ hother, hdefect⟩
    · exact .inr ⟨unsupported, by rw [herror], type, List.mem_cons_self, hdefect⟩

/-! ## Headers -/

/-- The members of a type under the names that a name table gives are those under the names computed
for its fields. -/
theorem flatMap_field_eq {α : Type} {options : NamingOptions} {graph : TypeGraph}
    {names : NameTable} (hids : ((graph.types.flatMap TypeNode.fields).map Field.id).Nodup)
    (hnames : namesOf options graph = .ok names) {type : TypeNode} (htype : type ∈ graph.types)
    (members : Field → String → List α) :
    (type.fields.flatMap fun field => members field (names.field field.id)) =
      type.fields.flatMap fun field => members field (memberName options field) := by
  refine List.flatMap_congr fun field hfield => ?_
  rw [nameTable_field_eq hids hnames htype hfield]

/-- A graph whose fields have identities of their own has a header if it is representable, and
otherwise a defect. -/
theorem build_cases {options : NamingOptions} {graph : TypeGraph} (hlinked : graph.Linked)
    (hids : ((graph.types.flatMap TypeNode.fields).map Field.id).Nodup) :
    (∃ header, build options graph = .ok header ∧ Representable options graph) ∨
    ∃ unsupported, build options graph = .error unsupported ∧ Defect options graph unsupported := by
  obtain ⟨hperm, -⟩ := placedTypes_ordered hlinked
  unfold build
  cases hstems : ensureStemsDistinct .c graph with
  | error unsupported => exact .inr ⟨unsupported, rfl, .stems (clash_of_ensureDistinct hstems)⟩
  | ok done =>
    cases hnames : namesOf options graph with
    | error unsupported =>
      refine .inr ⟨unsupported, rfl, ?_⟩
      rcases clash_of_nameTable_build hnames with ⟨type, htype, hclash⟩ | ⟨group, hgroup, hclash⟩
      · exact .fields htype hclash
      · obtain rfl := List.mem_singleton.mp hgroup
        exact .types hclash
    | ok names =>
      obtain ⟨hfields, htypes, -⟩ := (nameTable_build_eq_ok_iff _ _ _ _ _ _).mp hnames
      dsimp only
      rcases structsOf_cases names (placedTypes graph) with
        ⟨structs, hstructs, hgood⟩ | ⟨unsupported, herror, type, htype, hdefect⟩
      · rw [hstructs]
        refine .inl ⟨_, rfl, (ensureStemsDistinct_eq_ok_iff _ _ done).mp hstems,
          htypes ("", graph.types) List.mem_cons_self, hfields,
          fun type htype => (hgood type (hperm.mem_iff.mpr htype)).1, fun type htype => ?_⟩
        rw [← flatMap_field_eq hids hnames htype]
        exact (hgood type (hperm.mem_iff.mpr htype)).2
      · rw [herror]
        rw [hperm.mem_iff] at htype
        refine .inr ⟨unsupported, rfl, ?_⟩
        cases hdefect with
        | inexpressible hfield h heq => exact .inexpressible htype hfield h heq
        | members h => exact .members htype (flatMap_field_eq hids hnames htype memberNamings ▸ h)

/-- For all schemas that have a graph and all naming options, there is a C header exactly if module
stems, names of types, names of the fields of a type and names of the members of a struct are
distinct and every field's type has a counterpart. A refusal shows the place and the reason of one
of these conditions that fails. -/
theorem emit_iff_representable (files : List Schema.SchemaFile) (graph : TypeGraph)
    (options : NamingOptions) (hbuild : Graph.build files = .ok graph) :
    ((∃ emitted, emit options graph = .ok emitted) ↔ Representable options graph) ∧
      ∀ unsupported, emit options graph = .error unsupported →
        Defect options graph unsupported ∧ ¬ Representable options graph := by
  unfold emit
  rcases @build_cases options graph (Graph.linked_of_build hbuild)
    (fieldIds_nodup_of_build hbuild) with ⟨header, hheader, hgraph⟩ | ⟨unsupported, herror, hdefect⟩
  · rw [hheader]
    exact ⟨⟨fun _ => hgraph, fun _ => ⟨_, rfl⟩⟩, nofun⟩
  · rw [herror]
    refine ⟨⟨fun ⟨_, h⟩ => absurd h nofun, fun hgraph => absurd hgraph hdefect.not_representable⟩,
      fun other h => ?_⟩
    obtain rfl := Except.error.inj h
    exact ⟨hdefect, hdefect.not_representable⟩

/-- A list whose length would be called like another field. -/
def crowdedList : List Schema.SchemaFile :=
  [⟨"crowd.schema", "",
    [⟨"Crowd", "", [⟨"people", .list (.named [] "int"), false, none, [], none, .nowhere⟩,
    ⟨"people_len", .named [] "int", false, none, [], none, .nowhere⟩], none, .nowhere⟩]⟩]

/-- The tree has a header, and the crowded list has none. -/
theorem representable_sampleTree :
    (∃ graph, Graph.build sampleTree = .ok graph ∧ Representable sampleNaming graph) ∧
      ∃ graph, Graph.build crowdedList = .ok graph ∧ ¬ Representable sampleNaming graph ∧
        Defect sampleNaming graph
          ⟨.c, "Crowd.people_len", .sameName ⟨"people", "people_len", "people_len"⟩⟩ := by
  have htree : ((Graph.build sampleTree).toOption.bind fun graph =>
      (build sampleNaming graph).toOption).isSome = true := by cbv
  have hcrowd : ((Graph.build crowdedList).toOption.map fun graph => build sampleNaming graph) =
      some (.error ⟨.c, "Crowd.people_len", .sameName ⟨"people", "people_len", "people_len"⟩⟩) := by
        cbv
  constructor
  · obtain ⟨header, hfound⟩ := Option.isSome_iff_exists.mp htree
    obtain ⟨graph, hgraph, hheader⟩ := Option.bind_eq_some_iff.mp hfound
    have hbuild := eq_ok_of_toOption hgraph
    have hemit : emit sampleNaming graph = .ok [.ofLines path header.lines] := by
      rw [emit, eq_ok_of_toOption hheader]
    exact ⟨graph, hbuild, (emit_iff_representable sampleTree graph sampleNaming hbuild).1.mp
      ⟨_, hemit⟩⟩
  · obtain ⟨graph, hgraph, hrefused⟩ := Option.map_eq_some_iff.mp hcrowd
    have hbuild := eq_ok_of_toOption hgraph
    refine ⟨graph, hbuild,
      And.symm ((emit_iff_representable crowdedList graph sampleNaming hbuild).2 _ ?_)⟩
    rw [emit, hrefused]

end SchemaBindings.Bindings.CHeader
