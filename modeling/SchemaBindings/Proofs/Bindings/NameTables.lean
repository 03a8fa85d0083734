import SchemaBindings.Proofs.Bindings.Built
import SchemaBindings.Proofs.Graph.Fields
import SchemaBindings.Proofs.Naming.Identifiers

/-!
# Name tables of built graphs

Whatever names are computed for types and fields, a built graph has a table of them exactly if types
that share a scope and fields of one type are written differently. The table then gives every name
as it was computed. If there is no table, the refusal shows two different names of the scope that it
is located in, and what both become.

The names of types are checked by namespace, or all together, and behind those of the fields. The
conditions here speak of any two types, however they are grouped.
-/

namespace SchemaBindings.Bindings

open SchemaBindings.Graph (Field TypeId TypeNode)
open SchemaBindings.Naming (isWord_of_isIdentifier)
open SchemaBindings.Schema (IsIdentifier)

/-! ## Scopes of types -/

/-- Whether two types share a scope. -/
def TypeScope.Shares (scope : TypeScope) (type other : TypeNode) : Prop :=
  scope = .perNamespace → type.id.namespacePath = other.id.namespacePath

/-- How messages call the scope of a type. -/
def TypeScope.shownFor (scope : TypeScope) (type : TypeNode) : String :=
  match scope with
  | .perNamespace => namespaceShown type.id.namespacePath
  | .global => rootShown

/-- Whether types that share a scope, and fields that share a type, are written differently. -/
structure WrittenApart (graph : TypeGraph) (scope : TypeScope) (typeName : TypeNode → String)
    (fieldName : Field → String) : Prop where
  types : ∀ type ∈ graph.types, ∀ other ∈ graph.types, type ≠ other → scope.Shares type other →
    typeName type ≠ typeName other
  fields : ∀ type ∈ graph.types, ∀ field ∈ type.fields, ∀ other ∈ type.fields, field ≠ other →
    fieldName field ≠ fieldName other

/-- What a refusal may complain about: two types of one scope that are written alike, or two fields
of one type, in the order that they have there. It is located at what they become in their scope. -/
inductive WrittenAlike (graph : TypeGraph) (language : Language) (scope : TypeScope)
    (typeName : TypeNode → String) (fieldName : Field → String) : Unsupported → Prop
  | types {type other : TypeNode} (hmem : [type, other].Sublist graph.types)
      (hne : type.id ≠ other.id)
      (hshares : scope.Shares type other) (hsame : typeName type = typeName other) :
      WrittenAlike graph language scope typeName fieldName
        ⟨language, scope.shownFor type ++ "." ++ typeName type,
          .sameName ⟨type.id.shown, other.id.shown, typeName type⟩⟩
  | fields {type : TypeNode} {field other : Field} (htype : type ∈ graph.types)
      (hmem : [field, other].Sublist type.fields) (hne : field.name ≠ other.name)
      (hsame : fieldName field = fieldName other) :
      WrittenAlike graph language scope typeName fieldName
        ⟨language, type.id.shown ++ "." ++ fieldName field,
          .sameName ⟨field.name, other.name, fieldName field⟩⟩

/-- A group holds types of one scope, in their order. -/
theorem shares_of_mem_groups {scope : TypeScope} {graph : TypeGraph}
    {group : String × List TypeNode} (hgroup : group ∈ scope.groups graph) :
    group.2.Sublist graph.types ∧ ∀ type ∈ group.2, namespaceShown group.1 = scope.shownFor type ∧
      ∀ other ∈ group.2, scope.Shares type other := by
  cases scope with
  | perNamespace =>
    obtain ⟨path, -, rfl⟩ := List.mem_map.mp hgroup
    refine ⟨List.filter_sublist, fun type htype => ⟨?_, fun other hother _ => ?_⟩⟩
    · rw [TypeScope.shownFor, (mem_typesIn_iff.mp htype).2]
    · rw [(mem_typesIn_iff.mp htype).2, (mem_typesIn_iff.mp hother).2]
  | global =>
    obtain rfl := List.mem_singleton.mp hgroup
    exact ⟨.refl _, fun type _ => ⟨rfl, fun other _ hscope => absurd hscope (by simp)⟩⟩

/-- Types that share a scope are in one group. -/
theorem exists_group_of_shares {scope : TypeScope} {graph : TypeGraph} {type other : TypeNode}
    (htype : type ∈ graph.types) (hother : other ∈ graph.types)
    (hshares : scope.Shares type other) :
    ∃ group ∈ scope.groups graph, type ∈ group.2 ∧ other ∈ group.2 := by
  cases scope with
  | perNamespace =>
    exact ⟨_, List.mem_map_of_mem (namespacePath_mem htype), mem_typesIn_iff.mpr ⟨htype, rfl⟩,
      mem_typesIn_iff.mpr ⟨hother, (hshares rfl).symm⟩⟩
  | global => exact ⟨_, List.mem_singleton_self _, htype, hother⟩

/-- Where no name is computed twice in a group of types or for the fields of a type, names are
written apart. -/
theorem writtenApart_iff {graph : TypeGraph} (hlinked : graph.Linked) (scope : TypeScope)
    (typeName : TypeNode → String) (fieldName : Field → String) :
    WrittenApart graph scope typeName fieldName ↔
      (∀ type ∈ graph.types, (type.fields.map fieldName).Nodup) ∧
        ∀ group ∈ scope.groups graph, (group.2.map typeName).Nodup := by
  have htypes : graph.types.Nodup := .of_map _ hlinked.distinct
  have hfields : ∀ type ∈ graph.types, type.fields.Nodup :=
    fun type htype => .of_map _ (hlinked.fields_distinct type htype)
  constructor
  · intro hapart
    refine ⟨fun type htype => ?_, fun group hgroup => ?_⟩
    · refine (List.nodup_map_iff_inj_on (hfields type htype)).mpr
        fun field hfield other hother hsame => ?_
      by_contra hne
      exact hapart.fields type htype field hfield other hother hne hsame
    · obtain ⟨hsublist, hshares⟩ := shares_of_mem_groups hgroup
      refine (List.nodup_map_iff_inj_on (htypes.sublist hsublist)).mpr
        fun type htype other hother hsame => ?_
      by_contra hne
      exact hapart.types type (hsublist.subset htype) other (hsublist.subset hother) hne
        ((hshares type htype).2 other hother) hsame
  · intro ⟨hmembers, hgroups⟩
    refine ⟨fun type htype other hother hne hshares hsame => ?_,
      fun type htype field hfield other hother hne hsame => ?_⟩
    · obtain ⟨group, hgroup, htype, hother⟩ := exists_group_of_shares htype hother hshares
      exact hne (List.inj_on_of_nodup_map (hgroups group hgroup) htype hother hsame)
    · exact hne (List.inj_on_of_nodup_map (hmembers type htype) hfield hother hsame)

/-! ## Refusals -/

/-- Two names of a list that clash are different where no two elements have the same key. -/
theorem Clash.exists_elements {α β : Type} {language : Language} {scope : String}
    {elements : List α} {source : α → String} {emitted : α → String} {unsupported : Unsupported}
    (key : α → β) (hdistinct : (elements.map key).Nodup)
    (h : Clash language scope (elements.map fun a => ⟨source a, emitted a⟩) unsupported) :
    ∃ a b, [a, b].Sublist elements ∧ key a ≠ key b ∧ emitted a = emitted b ∧
      unsupported = ⟨language, scope ++ "." ++ emitted a,
        .sameName ⟨source a, source b, emitted a⟩⟩ := by
  obtain ⟨first, second, hsublist, hsame, rfl⟩ := h
  obtain ⟨pair, hpair, heq⟩ := List.sublist_map_iff.mp hsublist
  obtain ⟨a, b, rfl, rfl, rfl⟩ : ∃ a b, pair = [a, b] ∧ ⟨source a, emitted a⟩ = first ∧
    ⟨source b, emitted b⟩ = second := by
    match pair, heq with
    | [a, b], heq =>
      simp only [List.map_cons, List.map_nil, List.cons.injEq, and_true] at heq
      exact ⟨a, b, rfl, heq.1.symm, heq.2.symm⟩
  have hkeys := hdistinct.sublist (hpair.map key)
  refine ⟨a, b, hpair, by simpa using hkeys, hsame, ?_⟩
  rw [show emitted a = emitted b from hsame]

/-- A refusal complains about names that are written alike. -/
theorem writtenAlike_of_build_error {graph : TypeGraph} (hlinked : graph.Linked)
    {language : Language} {scope : TypeScope} {typeName : TypeNode → String}
    {fieldName : Field → String} {unsupported : Unsupported}
    (h : NameTable.build graph language scope typeName fieldName = .error unsupported) :
    WrittenAlike graph language scope typeName fieldName unsupported := by
  rcases clash_of_nameTable_build h with ⟨type, htype, hclash⟩ | ⟨group, hgroup, hclash⟩
  · obtain ⟨field, other, hmem, hne, hsame, rfl⟩ :=
      hclash.exists_elements Field.name (hlinked.fields_distinct type htype)
    exact .fields htype hmem hne hsame
  · obtain ⟨hsublist, hshares⟩ := shares_of_mem_groups hgroup
    obtain ⟨type, other, hmem, hne, hsame, rfl⟩ :=
      hclash.exists_elements TypeNode.id (hlinked.distinct.sublist (hsublist.map _))
    have htype : type ∈ group.2 := hmem.subset (by simp)
    have hother : other ∈ group.2 := hmem.subset (by simp)
    rw [(hshares type htype).1]
    exact .types (hmem.trans hsublist) hne ((hshares type htype).2 other hother) hsame

/-! ## Names in messages -/

/-- Types of one namespace are shown differently. -/
theorem shown_ne_of_namespace {id other : TypeId} (hne : id ≠ other)
    (hnamespace : id.namespacePath = other.namespacePath) :
    id.shown ≠ other.shown := by
  obtain ⟨path, name⟩ := id
  obtain ⟨otherPath, otherName⟩ := other
  obtain rfl : path = otherPath := hnamespace
  intro hshown
  refine hne ?_
  unfold TypeId.shown at hshown
  split at hshown
  · exact congrArg _ hshown
  · exact congrArg _ ((String.append_right_inj _).mp hshown)

/-- What is in front of a last dot and what is behind it can be told apart. -/
theorem append_dot_inj {front behind otherFront otherBehind : List Char} (h : '.' ∉ behind)
    (hother : '.' ∉ otherBehind) (heq : front ++ '.' :: behind = otherFront ++ '.' :: otherBehind) :
    front = otherFront ∧ behind = otherBehind := by
  rcases List.append_eq_append_iff.mp heq with ⟨more, rfl, hmore⟩ | ⟨more, rfl, hmore⟩
  · cases more with
    | nil => exact ⟨by simp, (List.cons.inj hmore).2⟩
    | cons c more => exact absurd (by simp [(List.cons.inj hmore).2]) h
  · cases more with
    | nil => exact ⟨by simp, (List.cons.inj hmore).2.symm⟩
    | cons c more => exact absurd (by simp [(List.cons.inj hmore).2]) hother

/-- Types whose names have no dot are shown differently. -/
theorem shown_ne_of_dotless {id other : TypeId} (hne : id ≠ other) (hname : '.' ∉ id.name.toList)
    (hother : '.' ∉ other.name.toList) : id.shown ≠ other.shown := by
  by_cases hnamespace : id.namespacePath = other.namespacePath
  · exact shown_ne_of_namespace hne hnamespace
  intro hshown
  have hdot : ".".toList = ['.'] := rfl
  unfold TypeId.shown at hshown
  split at hshown
  · next hroot =>
    rw [if_neg fun hsame => hnamespace (hroot.trans hsame.symm)] at hshown
    exact hname (by rw [hshown, String.toList_append, String.toList_append, hdot]; simp)
  · split at hshown
    · exact hother (by rw [← hshown, String.toList_append, String.toList_append, hdot]; simp)
    · have hchars := congrArg String.toList hshown
      simp only [String.toList_append, hdot, List.append_assoc, List.singleton_append] at hchars
      exact hnamespace (String.toList_inj.mp (append_dot_inj hname hother hchars).1)

/-- An identifier has no dot. -/
theorem dotless_of_isIdentifier {name : String} (h : IsIdentifier name) : '.' ∉ name.toList :=
  fun hmem => absurd ((isWord_of_isIdentifier h).2 '.' hmem) (by decide)

/-- The names that a refusal shows are different, also where all types share one scope if names are
spelled as in schemas. -/
theorem WrittenAlike.shown_ne {graph : TypeGraph} {language : Language} {scope : TypeScope}
    {typeName : TypeNode → String} {fieldName : Field → String} {unsupported : Unsupported}
    (h : WrittenAlike graph language scope typeName fieldName unsupported)
    (hspelled : scope = .global → Graph.NamesSpelled graph) :
    ∃ first second emitted, unsupported.reason = .sameName ⟨first, second, emitted⟩ ∧
      first ≠ second := by
  cases h with
  | fields _ _ hne _ => exact ⟨_, _, _, rfl, hne⟩
  | @types type other hmem hne hshares _ =>
    refine ⟨_, _, _, rfl, ?_⟩
    cases scope with
    | perNamespace => exact shown_ne_of_namespace hne (hshares rfl)
    | global =>
      have hname := (hspelled rfl).type
      exact shown_ne_of_dotless hne (dotless_of_isIdentifier (hname type (hmem.subset (by simp))))
        (dotless_of_isIdentifier (hname other (hmem.subset (by simp))))

/-! ## Name tables -/

/-- A built graph has a table of names exactly if they are written apart. The table gives every type
and every field the name that was computed for it. Where there is none, the refusal complains about
names that are written alike, and the two that it shows are different; where all types share one
scope, as far as names are spelled as in schemas. -/
theorem nameTable_iff_writtenApart (files : List Schema.SchemaFile) (graph : TypeGraph)
    (language : Language) (scope : TypeScope) (typeName : TypeNode → String)
    (fieldName : Field → String) (hbuild : Graph.build files = .ok graph) :
    ((∃ names, NameTable.build graph language scope typeName fieldName = .ok names) ↔
      WrittenApart graph scope typeName fieldName) ∧
    (∀ names, NameTable.build graph language scope typeName fieldName = .ok names →
      ∀ type ∈ graph.types, names.type type.id = typeName type ∧
        ∀ field ∈ type.fields, names.field field.id = fieldName field) ∧
    ∀ unsupported, NameTable.build graph language scope typeName fieldName = .error unsupported →
      WrittenAlike graph language scope typeName fieldName unsupported ∧
        ((scope = .global →
          ∀ declaration ∈ Graph.declarationsOf files, ∃ file, declaration.Spelled file) →
          ∃ first second emitted, unsupported.reason = .sameName ⟨first, second, emitted⟩ ∧
            first ≠ second) := by
  have hlinked := Graph.linked_of_build hbuild
  refine ⟨?_, fun names hnames type htype => ⟨nameTable_type_eq hlinked.distinct hnames htype,
    fun field hfield =>
    nameTable_field_eq (Graph.fieldIds_nodup_of_build hbuild) hnames htype hfield⟩,
    fun unsupported herror => ?_⟩
  · rw [writtenApart_iff hlinked]
    constructor
    · intro ⟨names, hnames⟩
      obtain ⟨hmembers, hgroups, -⟩ := (nameTable_build_eq_ok_iff _ _ _ _ _ _).mp hnames
      exact ⟨hmembers, hgroups⟩
    · intro ⟨hmembers, hgroups⟩
      exact ⟨_, (nameTable_build_eq_ok_iff _ _ _ _ _ _).mpr ⟨hmembers, hgroups, rfl⟩⟩
  · have halike := writtenAlike_of_build_error hlinked herror
    exact ⟨halike,
      fun hspelled =>
        halike.shown_ne fun hscope => Graph.namesSpelled_of_build hbuild (hspelled hscope)⟩

/-- Two namespaces with a type of the same name. -/
def sampleTwins : List Schema.SchemaFile :=
  [⟨"a.schema", "geo",
    [⟨"Point", "geo", [⟨"x", .named [] "int", false, none, [], none, .nowhere⟩], none, .nowhere⟩]⟩,
    ⟨"b.schema", "", [⟨"Point", "", [], none, .nowhere⟩]⟩]

/-- The graph of two types of the same name in two namespaces. -/
def twinsGraph : TypeGraph :=
  ⟨[⟨⟨"", "Point"⟩, [], none, .nowhere⟩,
    ⟨⟨"geo", "Point"⟩,
      [⟨⟨⟨"geo", "Point"⟩, "x"⟩, .primitive .int, false, none, [], none, false, .nowhere⟩], none,
      .nowhere⟩]⟩

/-- Names that keep nothing of the namespace are a table if every namespace is a scope of its own,
and none if all types share one. -/
theorem nameTable_sampleTwins : Graph.build sampleTwins = .ok twinsGraph ∧
    (∀ declaration ∈ Graph.declarationsOf sampleTwins, ∃ file, declaration.Spelled file) ∧
    WrittenApart twinsGraph .perNamespace (fun type => type.id.name) Field.name ∧
    NameTable.build twinsGraph .c .global (fun type => type.id.name) Field.name =
      .error ⟨.c, "<root>.Point", .sameName ⟨"Point", "geo.Point", "Point"⟩⟩ ∧
    WrittenAlike twinsGraph .c .global (fun type => type.id.name) Field.name
      ⟨.c, "<root>.Point", .sameName ⟨"Point", "geo.Point", "Point"⟩⟩ ∧
    ∃ first second emitted, Reason.sameName ⟨"Point", "geo.Point", "Point"⟩ =
        .sameName ⟨first, second, emitted⟩ ∧
      first ≠ second := by
  have hbuild : Graph.build sampleTwins = .ok twinsGraph := by cbv
  have hspelled : ∀ declaration ∈ Graph.declarationsOf sampleTwins, ∃ file,
      declaration.Spelled file := by
    intro declaration hdeclaration
    refine ⟨Schema.Span.nowhere.file, ?_⟩
    rcases List.mem_pair.mp hdeclaration with rfl | rfl
    · exact ⟨by decide, ⟨["geo"], by decide, by decide⟩,
        by simpa using ⟨by decide, .named (by simp) (by decide), rfl⟩, rfl⟩
    · exact ⟨by decide, ⟨[], by decide, by decide⟩, by simp, rfl⟩
  have hnames : NameTable.build twinsGraph .c .perNamespace (fun type => type.id.name) Field.name =
      .ok ⟨[(⟨"", "Point"⟩, "Point"), (⟨"geo", "Point"⟩, "Point")],
        [(⟨⟨"geo", "Point"⟩, "x"⟩, "x")]⟩ := by cbv
  have herror : NameTable.build twinsGraph .c .global (fun type => type.id.name) Field.name =
      .error ⟨.c, "<root>.Point", .sameName ⟨"Point", "geo.Point", "Point"⟩⟩ := by cbv
  obtain ⟨halike, hshown⟩ := (nameTable_iff_writtenApart _ _ _ _ _ _ hbuild).2.2 _ herror
  exact ⟨hbuild, hspelled, (nameTable_iff_writtenApart _ _ _ _ _ _ hbuild).1.mp ⟨_, hnames⟩,
    herror, halike, hshown fun _ => hspelled⟩

end SchemaBindings.Bindings
