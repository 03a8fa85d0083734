import SchemaBindings.Proofs.Bindings.ReservedWords

/-!
# What the structs of a header hold by value

A member holds a struct by value if its declaration has nothing but the name of the struct in front
of the member's own. So does a member of a standard type, where a struct is written like that type.
The names of types in a namespace are not escaped, and `uint8_t` is no reserved word, so there may
be such structs. The structs of a header stand behind all that they hold by value exactly if none of
them is written like a standard type that it uses itself, or that one in front of it uses.
-/

namespace SchemaBindings.Bindings.CHeader

open SchemaBindings.Graph (Field TypeNode)
open SchemaBindings.Naming (moduleStem)
open SchemaBindings.Text

/-! ## Declarations -/

/-- Whether the declaration of a member has nothing but a name in front of the member's own. -/
def Member.Embeds (member : Member) (name : String) : Prop :=
  member.declaration = name ++ " " ++ member.name ++ ";"

/-- The word that a type is written as, unless it is a pointer. -/
def BaseType.word? : BaseType → Option String
  | .int64 => some "int64_t"
  | .uint8 => some "uint8_t"
  | .double => some "double"
  | .bool => some "bool"
  | .constCharPointer => none
  | .size => some "size_t"
  | .struct name => some name

/-- A star is no blank. -/
theorem append_star_ne (text name : String) : text ++ "*" ≠ name ++ " " := by
  intro h
  have hlast := congrArg (fun line => line.toList.getLast?) h
  simp at hlast

/-- A type is written as a word with a blank behind it, unless it is a pointer. -/
theorem BaseType.text_eq_iff (base : BaseType) (name : String) :
    base.text = name ++ " " ↔ base.word? = some name := by
  cases base with
  | int64 => exact (@String.append_left_inj "int64_t" name " ").trans Option.some_inj.symm
  | uint8 => exact (@String.append_left_inj "uint8_t" name " ").trans Option.some_inj.symm
  | double => exact (@String.append_left_inj "double" name " ").trans Option.some_inj.symm
  | bool => exact (@String.append_left_inj "bool" name " ").trans Option.some_inj.symm
  | constCharPointer => exact iff_of_false (append_star_ne "const char " name) nofun
  | size => exact (@String.append_left_inj "size_t" name " ").trans Option.some_inj.symm
  | struct other => exact (String.append_left_inj " ").trans Option.some_inj.symm

/-- A member embeds what its type is written as, unless it is a pointer. -/
theorem Member.embeds_iff (member : Member) (name : String) :
    member.Embeds name ↔ member.pointer = false ∧ member.base.word? = some name := by
  rw [Embeds, declaration, String.append_left_inj, String.append_left_inj]
  cases member.pointer with
  | true => exact iff_of_false (append_star_ne _ name) (by simp)
  | false =>
    rw [if_neg Bool.false_ne_true, String.append_empty, BaseType.text_eq_iff]
    exact (and_iff_right rfl).symm

/-! ## Standard types -/

/-- The standard types other than truth values and floats that the members of a field have and are
no pointers to. -/
def fieldWords (field : Field) : List String :=
  match field.type with
  | .primitive .int => ["int64_t"]
  | .list _ => ["size_t"]
  | _ => []

/-- The standard types other than truth values and floats that the members of a struct have and are
no pointers to. -/
def standardWords (type : TypeNode) : List String :=
  if type.fields.isEmpty then ["uint8_t"] else type.fields.flatMap fieldWords

/-- What a member of a field embeds is the struct of its type, or a standard type. -/
theorem word_of_mem_fieldMembers {names : NameTable} {field : Field} {members : List Member}
    (h : fieldMembers names field = .ok members) {member : Member} (hmember : member ∈ members)
    {word : String} (hpointer : member.pointer = false) (hword : member.base.word? = some word) :
    member.base = .struct word ∨ word ∈ ["bool", "double"] ∨ word ∈ fieldWords field := by
  obtain ⟨values, hvalues, rfl⟩ := fieldMembers_eq_ok h
  rcases List.mem_append.mp hmember with hflag | hvalue
  · rw [(of_mem_flagMember hflag).2] at hword
    obtain rfl := Option.some.inj hword
    exact .inr (.inl (by decide))
  · rcases valueMembers_eq_ok hvalues with ⟨element, base, htype, -, rfl⟩ | ⟨base, hbase, rfl⟩
    · rcases List.mem_pair.mp hvalue with rfl | rfl
      · exact absurd hpointer Bool.true_eq_false_eq_False
      · obtain rfl := Option.some.inj hword
        exact .inr (.inr (by simp [fieldWords, htype]))
    · obtain rfl := List.mem_singleton.mp hvalue
      cases htype : field.type with
      | primitive kind =>
        rw [htype] at hbase
        cases kind with
        | int =>
          obtain rfl := Option.some.inj hbase
          obtain rfl := Option.some.inj hword
          exact .inr (.inr (by simp [fieldWords, htype]))
        | float | bool =>
          obtain rfl := Option.some.inj hbase
          obtain rfl := Option.some.inj hword
          exact .inr (.inl (by decide))
        | string =>
          obtain rfl := Option.some.inj hbase
          cases hword
        | any => cases hbase
      | named id =>
        rw [htype] at hbase
        obtain rfl := Option.some.inj hbase
        obtain rfl := Option.some.inj hword
        exact .inl rfl
      | list element =>
        rw [htype] at hbase
        cases hbase

/-- Every standard type of a field is embedded by one of its members. -/
theorem exists_embeds_of_mem_fieldWords {names : NameTable} {field : Field} {members : List Member}
    (h : fieldMembers names field = .ok members) {word : String} (hword : word ∈ fieldWords field) :
    ∃ member ∈ members, member.Embeds word := by
  obtain ⟨values, hvalues, rfl⟩ := fieldMembers_eq_ok h
  simp only [Member.embeds_iff]
  rcases valueMembers_eq_ok hvalues with ⟨element, base, htype, -, rfl⟩ | ⟨base, hbase, rfl⟩
  · obtain rfl : word = "size_t" := by simpa [fieldWords, htype] using hword
    exact ⟨lengthMember field (names.field field.id), by simp, rfl, rfl⟩
  · refine ⟨_, List.mem_append_right _ List.mem_cons_self, ?_⟩
    cases htype : field.type with
    | primitive kind =>
      cases kind with
      | int =>
        obtain rfl : word = "int64_t" := by simpa [fieldWords, htype] using hword
        rw [htype] at hbase
        obtain rfl := Option.some.inj hbase
        exact ⟨by simp [byPointer, Field.isNamed, htype], rfl⟩
      | float | bool | string | any => simp [fieldWords, htype] at hword
    | named id => simp [fieldWords, htype] at hword
    | list element =>
      rw [htype] at hbase
      cases hbase

/-- Every field has a member. -/
theorem fieldMembers_ne_nil {names : NameTable} {field : Field} {members : List Member}
    (h : fieldMembers names field = .ok members) : members ≠ [] := by
  obtain ⟨values, hvalues, rfl⟩ := fieldMembers_eq_ok h
  rcases valueMembers_eq_ok hvalues with ⟨_, _, -, -, rfl⟩ | ⟨_, -, rfl⟩
  · simp
  · simp

/-- Only where there are no fields there are no members. -/
theorem isEmpty_members {names : NameTable} {fields : List Field} {members : List Member}
    (h : membersOf names fields = .ok members) : members.isEmpty = fields.isEmpty := by
  cases fields with
  | nil =>
    obtain rfl := Except.ok.inj h
    rfl
  | cons field rest =>
    obtain ⟨part, hpart, hsubset⟩ := (membersOf_eq_ok h).1 field List.mem_cons_self
    obtain ⟨member, hmember⟩ := List.exists_mem_of_ne_nil part (fieldMembers_ne_nil hpart)
    exact List.isEmpty_eq_false_iff.mpr (List.ne_nil_of_mem (hsubset hmember))

/-- What a printed member of a struct embeds is the struct of its own type, or a standard type. -/
theorem word_of_mem_printed {names : NameTable} {type : TypeNode} {struct : Struct}
    (h : structOf names type = .ok struct) {member : Member} (hmember : member ∈ struct.printed)
    {word : String} (hembeds : member.Embeds word) :
    (member ∈ struct.members ∧ member.base = .struct word ∧ member.pointer = false) ∨
      word ∈ ["bool", "double"] ∨ word ∈ standardWords type := by
  obtain ⟨-, hmembers, -⟩ := structOf_eq_ok h
  obtain ⟨hpointer, hword⟩ := (Member.embeds_iff member word).mp hembeds
  rw [Struct.printed, isEmpty_members hmembers] at hmember
  rw [standardWords]
  split at hmember
  · next hempty =>
    obtain rfl := List.mem_singleton.mp hmember
    obtain rfl := Option.some.inj hword
    exact .inr (.inr (by simp [hempty]))
  · next hempty =>
    obtain ⟨field, hfield, part, hpart, hin⟩ := (membersOf_eq_ok hmembers).2 member hmember
    rw [if_neg hempty]
    rcases word_of_mem_fieldMembers hpart hin hpointer hword with hbase | hplain | hstandard
    · exact .inl ⟨hmember, hbase, hpointer⟩
    · exact .inr (.inl hplain)
    · exact .inr (.inr (List.mem_flatMap.mpr ⟨field, hfield, hstandard⟩))

/-- Every standard type of a struct is embedded by one of its printed members. -/
theorem exists_embeds_of_mem_standardWords {names : NameTable} {type : TypeNode} {struct : Struct}
    (h : structOf names type = .ok struct) {word : String} (hword : word ∈ standardWords type) :
    ∃ member ∈ struct.printed, member.Embeds word := by
  obtain ⟨-, hmembers, -⟩ := structOf_eq_ok h
  rw [Struct.printed, isEmpty_members hmembers]
  rw [standardWords] at hword
  split at hword
  · next hempty =>
    obtain rfl := List.mem_singleton.mp hword
    rw [if_pos hempty]
    exact ⟨unusedMember, List.mem_singleton.mpr rfl, (Member.embeds_iff _ _).mpr ⟨rfl, rfl⟩⟩
  · next hempty =>
    obtain ⟨field, hfield, hword⟩ := List.mem_flatMap.mp hword
    obtain ⟨part, hpart, hsubset⟩ := (membersOf_eq_ok hmembers).1 field hfield
    obtain ⟨member, hmember, hembeds⟩ := exists_embeds_of_mem_fieldWords hpart hword
    rw [if_neg hempty]
    exact ⟨member, hsubset hmember, hembeds⟩

/-! ## Layers -/

/-- Whether every struct of a header stands behind all those that it holds by value. -/
def Header.Layered (header : Header) : Prop :=
  ∀ before struct after, header.structs = before ++ struct :: after →
    ∀ member ∈ struct.printed, ∀ other ∈ header.structs, member.Embeds other.name → other ∈ before

/-- Whether no type is written like a standard type that it uses itself, or that one in front of it
uses. -/
def WordsApart (options : NamingOptions) (graph : TypeGraph) : Prop :=
  ∀ front type back, placedTypes graph = front ++ type :: back →
    ∀ word ∈ standardWords type, ∀ other ∈ type :: back, structName options other ≠ word

/-- All standard types of a struct are whole numbers, lengths, or the one that stands for none. -/
theorem mem_of_mem_standardWords {type : TypeNode} {word : String} (h : word ∈ standardWords type) :
    word ∈ ["int64_t", "size_t", "uint8_t"] := by
  rw [standardWords] at h
  split at h
  · obtain rfl := List.mem_singleton.mp h
    decide
  · obtain ⟨field, -, hword⟩ := List.mem_flatMap.mp h
    rw [fieldWords] at hword
    split at hword
    · obtain rfl := List.mem_singleton.mp hword
      decide
    · obtain rfl := List.mem_singleton.mp hword
      decide
    · exact absurd hword List.not_mem_nil

/-- Words are apart where no type at all is written like one of these three standard types. -/
theorem wordsApart_of_notMem {options : NamingOptions} {graph : TypeGraph} (hlinked : graph.Linked)
    (h : ∀ type ∈ graph.types, structName options type ∉ ["int64_t", "size_t", "uint8_t"]) :
    WordsApart options graph := by
  intro front type back hplaced word hword other hother heq
  have hmem : other ∈ graph.types := by
    rw [← (placedTypes_ordered hlinked).1.mem_iff, hplaced]
    exact List.mem_append_right _ hother
  exact h other hmem (heq ▸ mem_of_mem_standardWords hword)

/-- No struct is named like a truth value or a float. -/
theorem structName_notMem (options : NamingOptions) (type : TypeNode) :
    structName options type ∉ ["bool", "double"] := by
  intro h
  have hreserved : ∀ word ∈ ["bool", "double"], word ∈ reserved := by decide
  have hescaped : ∀ namespacePath ∈ ["size", "int64"],
      namespacePath ≠ "" ∧ moduleStem namespacePath ++ "_" ++ "t" ∉ ["bool", "double"] := by decide
  obtain ⟨hmem, hname⟩ := (structName_mem_reserved_iff options type).mp (hreserved _ h)
  obtain ⟨hne, hplain⟩ := hescaped _ hmem
  rw [structName, if_neg hne, hname] at h
  exact hplain h

/-- Where types stand one behind the other, so do their structs. -/
theorem structsOf_append_eq_ok {names : NameTable} {front back : List TypeNode}
    {structs : List Struct} (h : structsOf names (front ++ back) = .ok structs) :
    ∃ before after, structs = before ++ after ∧ structsOf names front = .ok before ∧
      structsOf names back = .ok after := by
  induction front generalizing structs with
  | nil => exact ⟨[], structs, rfl, rfl, h⟩
  | cons type rest ih =>
    obtain ⟨struct, others, rfl, hstruct, hothers⟩ := structsOf_cons_eq_ok h
    obtain ⟨before, after, rfl, hbefore, hafter⟩ := ih hothers
    exact ⟨struct :: before, after, rfl, by rw [structsOf, hstruct, hbefore], hafter⟩

/-- The structs of a header that represents a graph have distinct names. -/
theorem Header.Represents.names_nodup {options : NamingOptions} {graph : TypeGraph}
    {header : Header} (h : header.Represents options graph) :
    (header.structs.map Struct.name).Nodup :=
  h.structs_perm.nodup_iff.mpr h.forward_nodup

/-- The structs of the header of a linked graph stand behind all that they hold by value exactly if
words are apart. -/
theorem layered_iff {options : NamingOptions} {graph : TypeGraph} {header : Header}
    (hlinked : graph.Linked) (h : build options graph = .ok header) :
    header.Layered ↔ WordsApart options graph := by
  have hrepresents := represents_of_build hlinked h
  obtain ⟨-, names, structs, hnames, hstructs, rfl⟩ := build_eq_ok h
  have hname : ∀ type ∈ placedTypes graph, names.type type.id = structName options type :=
    fun type htype => nameTable_type_eq hlinked.distinct hnames
      ((placedTypes_ordered hlinked).1.mem_iff.mp htype)
  have hnodup := hrepresents.names_nodup
  constructor
  · intro hlayered front type back hplaced word hword other hother heq
    rw [hplaced] at hname
    obtain ⟨before, behind, rfl, -, hbehind⟩ := structsOf_append_eq_ok (hplaced ▸ hstructs)
    obtain ⟨struct, after, rfl, hstruct, -⟩ := structsOf_cons_eq_ok hbehind
    obtain ⟨member, hmember, hembeds⟩ := exists_embeds_of_mem_standardWords hstruct hword
    obtain ⟨held, hheld, hok⟩ := exists_mem_structsOf hbehind hother
    have hheldname : held.name = word := by
      rw [(structOf_eq_ok hok).1, hname other (List.mem_append_right _ hother), heq]
    have hbefore := hlayered before struct after rfl member hmember held
      (List.mem_append_right _ hheld) (hheldname ▸ hembeds)
    rw [List.map_append, List.nodup_append] at hnodup
    exact hnodup.2.2 _ (List.mem_map_of_mem hbefore) _ (List.mem_map_of_mem hheld) rfl
  · intro hapart before struct after hsplit member hmember other hother hembeds
    obtain rfl : structs = before ++ struct :: after := hsplit
    obtain ⟨front, type, back, hplaced, hstruct, hbefore⟩ := structsOf_split hstructs
    have hbehind := map_name_structsOf hstructs
    rw [hplaced, List.map_append, List.map_append, hbefore] at hbehind
    replace hbehind := List.append_cancel_left hbehind
    rcases word_of_mem_printed hstruct hmember hembeds with ⟨hin, hbase, hpointer⟩ | hplain | hword
    · obtain ⟨same, hsame, heq⟩ := List.mem_map.mp
        (hrepresents.embedded_before before struct after rfl member hin _ hbase hpointer)
      have hmem := List.mem_append_left (struct :: after) hsame
      obtain rfl := List.inj_on_of_nodup_map hnodup hmem hother heq
      exact hsame
    · obtain ⟨found, hfound, hok⟩ := exists_structOf_eq_ok hstructs hother
      rw [(structOf_eq_ok hok).1, hname found hfound] at hplain
      exact absurd hplain (structName_notMem options found)
    · rcases List.mem_append.mp hother with hother | hother
      · exact hother
      · have hlike : other.name ∈ (struct :: after).map Struct.name := List.mem_map_of_mem hother
        rw [hbehind] at hlike
        obtain ⟨found, hfound, heq⟩ := List.mem_map.mp hlike
        have hmem : found ∈ placedTypes graph := hplaced ▸ List.mem_append_right _ hfound
        rw [hname found hmem] at heq
        exact absurd heq (hapart front type back hplaced _ hword found hfound)

/-! ## Emitted headers -/

/-- If a built graph has C bindings, they are one file, whose text is a header that represents the
graph: one line declares each type ahead and one line starts its definition. Every struct stands
behind those that it holds by value exactly if no type is written like a standard type that it uses
itself, or that one in front of it uses. -/
theorem emit_represents (files : List Schema.SchemaFile) (graph : TypeGraph)
    (options : NamingOptions) (emitted : List EmittedFile) (hbuild : Graph.build files = .ok graph)
    (hemit : emit options graph = .ok emitted) :
    ∃ header : Header, header.Represents options graph ∧
      (header.Layered ↔ WordsApart options graph) ∧ emitted = [.ofLines path header.lines] ∧
      linesStarting "typedef struct " header.lines = (graph.types.map (structName options)).map
        (fun name => "typedef struct " ++ name ++ " " ++ name ++ ";") ∧
      (linesStarting "struct " header.lines).Perm ((graph.types.map (structName options)).map
        fun name => "struct " ++ name ++ " \x7b") := by
  unfold emit at hemit
  split at hemit
  · contradiction
  next header hheader =>
  obtain rfl := Except.ok.inj hemit
  have hlinked := Graph.linked_of_build hbuild
  have hrepresents := represents_of_build hlinked hheader
  refine ⟨header, hrepresents, layered_iff hlinked hheader, rfl, ?_, ?_⟩
  · rw [linesStarting_typedef, hrepresents.forward_eq]
  · have hperm := hrepresents.structs_perm.map fun name => "struct " ++ name ++ " \x7b"
    rw [hrepresents.forward_eq, List.map_map] at hperm
    rw [linesStarting_definition]
    exact hperm

/-- A tree of nodes in one namespace, each at a point of another. -/
def sampleTree : List Schema.SchemaFile :=
  [⟨"tree.schema", "",
      [⟨"Node", "",
        [⟨"at", .named ["geo"] "Point", true, none, [], none, .nowhere⟩,
          ⟨"next", .named [] "Node", true, none, [], none, .nowhere⟩,
          ⟨"parts", .list (.named [] "Node"), false, none, [], some "Children", .nowhere⟩],
        none, .nowhere⟩]⟩,
    ⟨"geo.schema", "geo",
      [⟨"Point", "geo", [⟨"x", .named [] "float", false, none, [], none, .nowhere⟩],
        some "A point", .nowhere⟩]⟩]

/-- All names are written as they are in the schema. -/
def sampleNaming : NamingOptions := ⟨some .preserve, some .preserve⟩

/-- The tree has a header that represents it, with every struct behind those that it holds. -/
theorem represents_sampleTree :
    ∃ graph emitted, Graph.build sampleTree = .ok graph ∧ emit sampleNaming graph = .ok emitted ∧
      ∃ header : Header, header.Represents sampleNaming graph ∧ header.Layered ∧
        emitted = [.ofLines path header.lines] ∧
        linesStarting "typedef struct " header.lines =
          (graph.types.map (structName sampleNaming)).map
            (fun name => "typedef struct " ++ name ++ " " ++ name ++ ";") ∧
        (linesStarting "struct " header.lines).Perm ((graph.types.map (structName sampleNaming)).map
          fun name => "struct " ++ name ++ " \x7b") := by
  have hmade : (Graph.build sampleTree).toOption.bind (fun graph =>
      (build sampleNaming graph).toOption.map fun _ =>
        graph.types.map (structName sampleNaming)) = some ["Node", "geo_Point"] := by cbv
  obtain ⟨graph, hgraph, hmade⟩ := Option.bind_eq_some_iff.mp hmade
  obtain ⟨header, hheader, hnames⟩ := Option.map_eq_some_iff.mp hmade
  have hbuild := eq_ok_of_toOption hgraph
  have hemit : emit sampleNaming graph = .ok [.ofLines path header.lines] := by
    rw [emit, eq_ok_of_toOption hheader]
  have hplain : ∀ name ∈ graph.types.map (structName sampleNaming),
      name ∉ ["int64_t", "size_t", "uint8_t"] := by
    rw [hnames]
    decide
  rw [List.forall_mem_map] at hplain
  have hapart := wordsApart_of_notMem (Graph.linked_of_build hbuild) hplain
  obtain ⟨shown, hrepresents, hlayered, hshown⟩ :=
    emit_represents sampleTree graph sampleNaming _ hbuild hemit
  exact ⟨graph, _, hbuild, hemit, shown, hrepresents, hlayered.mpr hapart, hshown⟩

/-- A whole number in front of a struct that is written like its type: the header is made, and the
first struct holds by value the second one. -/
theorem exists_header_not_layered :
    ∃ (graph : TypeGraph) (header : Header),
      Graph.build [schemaFileOf "" "A", schemaFileOf "int64" "t"] = .ok graph ∧
      emit keptNaming graph = .ok [.ofLines path header.lines] ∧
      header.structs.map (fun struct => (struct.name, struct.printed.map Member.declaration)) =
        [("A", ["int64_t x;"]), ("int64_t", ["int64_t x;"])] ∧
      ¬ header.Layered := by
  have hmade : (Graph.build [schemaFileOf "" "A", schemaFileOf "int64" "t"]).toOption.bind
      (fun graph => (build keptNaming graph).toOption.map Header.structs) =
        some [⟨"A", [], [⟨"x", "x", .int64, false, []⟩]⟩,
          ⟨"int64_t", [], [⟨"x", "x", .int64, false, []⟩]⟩] := by cbv
  obtain ⟨graph, hgraph, hmade⟩ := Option.bind_eq_some_iff.mp hmade
  obtain ⟨header, hheader, hstructs⟩ := Option.map_eq_some_iff.mp hmade
  have hemit : emit keptNaming graph = .ok [.ofLines path header.lines] := by
    rw [emit, eq_ok_of_toOption hheader]
  refine ⟨graph, header, eq_ok_of_toOption hgraph, hemit, by rw [hstructs]; rfl, ?_⟩
  intro hlayered
  have hbefore := hlayered [] ⟨"A", [], [⟨"x", "x", .int64, false, []⟩]⟩ _ hstructs
    ⟨"x", "x", .int64, false, []⟩ (by decide) ⟨"int64_t", [], [⟨"x", "x", .int64, false, []⟩]⟩
    (by rw [hstructs]; decide) rfl
  exact absurd hbefore List.not_mem_nil

end SchemaBindings.Bindings.CHeader
