import SchemaBindings.Proofs.Bindings.Built
import SchemaBindings.Proofs.Bindings.Placement
import SchemaBindings.Proofs.Text.Starts

/-!
# What a C header gives for a type graph

The header of a linked graph declares every type ahead once and defines it once, with members of
distinct names. A struct that another embeds is defined in front of it, and what lies on a cycle of
references is a pointer. The lines of the header show exactly these declarations and definitions.
-/

namespace SchemaBindings.Bindings.CHeader

open Relation (ReflTransGen)
open SchemaBindings.Graph (Field FieldType TypeId TypeNode)
open SchemaBindings.Text

/-! ## Members -/

/-- A single value is a struct exactly if it is of a declared type. -/
theorem baseType?_eq_struct_iff (names : NameTable) (type : FieldType) (name : String) :
    baseType? names type = some (.struct name) ↔ ∃ id, type = .named id ∧ name = names.type id := by
  cases type with
  | primitive kind => cases kind <;> simp [baseType?]
  | named id => simp [baseType?, eq_comm]
  | list element => simp [baseType?]

/-- The members that hold a field's value: a pointer and a length for a list, and a single member
for any other type. -/
theorem valueMembers_eq_ok {names : NameTable} {field : Field} {name : String}
    {members : List Member} (h : valueMembers names field name = .ok members) :
    (∃ element base, field.type = .list element ∧ baseType? names element = some base ∧
      members = [⟨field.name, name, base, true, fieldDoc field true⟩, lengthMember field name]) ∨
    ∃ base, baseType? names field.type = some base ∧
      members = [⟨field.name, name, base, byPointer field, fieldDoc field true⟩] := by
  unfold valueMembers at h
  split at h
  · contradiction
  · next element _ htype =>
    split at h
    · next base hbase => exact .inl ⟨element, base, htype, hbase, (Except.ok.inj h).symm⟩
    · contradiction
  · split at h
    · next base hbase => exact .inr ⟨base, hbase, (Except.ok.inj h).symm⟩
    · contradiction

/-- The members of a field are its flag, if it has one, and those that hold its value. -/
theorem fieldMembers_eq_ok {names : NameTable} {field : Field} {members : List Member}
    (h : fieldMembers names field = .ok members) :
    ∃ values, valueMembers names field (names.field field.id) = .ok values ∧
      members = flagMember field (names.field field.id) ++ values := by
  unfold fieldMembers at h
  dsimp only at h
  split at h
  · next values hvalues => exact ⟨values, hvalues, (Except.ok.inj h).symm⟩
  · contradiction

/-- A flag belongs to its field and holds no struct. -/
theorem of_mem_flagMember {field : Field} {name : String} {member : Member}
    (h : member ∈ flagMember field name) : member.source = field.name ∧ member.base = .bool := by
  unfold flagMember at h
  split at h
  · obtain rfl := List.mem_singleton.mp h
    exact ⟨rfl, rfl⟩
  · exact absurd h List.not_mem_nil

/-- What a field says about a member of a struct type that belongs to it: the type is the one that
the field refers to, and the member is a pointer unless the field holds the struct itself and is not
recursive. -/
structure HoldsStruct (names : NameTable) (field : Field) (member : Member) : Prop where
  named : ∀ name, member.base = .struct name →
    ∃ id, field.type.target? = some id ∧ name = names.type id
  embedded : ∀ name, member.base = .struct name → member.pointer = false →
    ∃ id, field.type = .named id ∧ name = names.type id ∧ field.recursive = false

/-- Every member of a field belongs to it and has the type that the field refers to. -/
theorem of_mem_fieldMembers {names : NameTable} {field : Field} {members : List Member}
    (h : fieldMembers names field = .ok members) {member : Member} (hmember : member ∈ members) :
    member.source = field.name ∧ HoldsStruct names field member := by
  obtain ⟨values, hvalues, rfl⟩ := fieldMembers_eq_ok h
  rcases List.mem_append.mp hmember with hflag | hvalue
  · obtain ⟨hsource, hbase⟩ := of_mem_flagMember hflag
    exact ⟨hsource, by simp [hbase], by simp [hbase]⟩
  · rcases valueMembers_eq_ok hvalues with ⟨element, base, htype, hbase, rfl⟩ | ⟨base, hbase, rfl⟩
    · rcases List.mem_pair.mp hvalue with rfl | rfl
      · refine ⟨rfl, fun name hname => ?_, by simp⟩
        rw [show base = .struct name from hname, baseType?_eq_struct_iff] at hbase
        obtain ⟨id, rfl, rfl⟩ := hbase
        exact ⟨id, by simp [htype, FieldType.target?], rfl⟩
      · exact ⟨rfl, by simp [lengthMember], by simp [lengthMember]⟩
    · obtain rfl := List.mem_singleton.mp hvalue
      have hstruct : ∀ name, base = .struct name →
          ∃ id, field.type = .named id ∧ name = names.type id := by
        intro name hname
        rwa [hname, baseType?_eq_struct_iff] at hbase
      refine ⟨rfl, fun name hname => ?_, fun name hname hpointer => ?_⟩
      · obtain ⟨id, hid, rfl⟩ := hstruct name hname
        exact ⟨id, by simp [hid, FieldType.target?], rfl⟩
      · obtain ⟨id, hid, rfl⟩ := hstruct name hname
        exact ⟨id, hid, rfl, by simpa [byPointer, Field.isNamed, hid] using hpointer⟩

/-- A field that refers to a type has a member of that type. -/
theorem exists_mem_fieldMembers {names : NameTable} {field : Field} {members : List Member}
    (h : fieldMembers names field = .ok members) {id : TypeId}
    (htarget : field.type.target? = some id) :
    ∃ member ∈ members, member.base = .struct (names.type id) := by
  obtain ⟨values, hvalues, rfl⟩ := fieldMembers_eq_ok h
  rcases valueMembers_eq_ok hvalues with ⟨element, base, htype, hbase, rfl⟩ | ⟨base, hbase, rfl⟩
  · refine ⟨_, List.mem_append_right _ List.mem_cons_self, ?_⟩
    cases element with
    | primitive kind => simp [htype, FieldType.target?] at htarget
    | named other =>
      obtain rfl : other = id := by simpa [htype, FieldType.target?] using htarget
      exact (Option.some.inj hbase).symm
    | list inner => simp [baseType?] at hbase
  · refine ⟨_, List.mem_append_right _ List.mem_cons_self, ?_⟩
    cases htype : field.type with
    | primitive kind => simp [htype, FieldType.target?] at htarget
    | named other =>
      obtain rfl : other = id := by simpa [htype, FieldType.target?] using htarget
      rw [htype] at hbase
      exact (Option.some.inj hbase).symm
    | list inner => simp [htype, baseType?] at hbase

/-- A pointer to a struct is declared with a star behind the name of the struct. -/
theorem Member.declaration_eq {member : Member} {name : String} (hbase : member.base = .struct name)
    (hpointer : member.pointer = true) :
    member.declaration = name ++ " *" ++ member.name ++ ";" := by
  have hstar : " " ++ "*" = " *" := rfl
  rw [declaration, hbase, BaseType.text, hpointer, if_pos rfl, @String.append_assoc name, hstar]

/-- The members of fields are those of each of them. -/
theorem membersOf_eq_ok {names : NameTable} {fields : List Field} {members : List Member}
    (h : membersOf names fields = .ok members) :
    (∀ field ∈ fields, ∃ part, fieldMembers names field = .ok part ∧ part ⊆ members) ∧
      ∀ member ∈ members, ∃ field ∈ fields, ∃ part, fieldMembers names field = .ok part ∧
        member ∈ part := by
  induction fields generalizing members with
  | nil =>
    obtain rfl := Except.ok.inj h
    simp
  | cons field rest ih =>
    rw [membersOf] at h
    cases hfield : fieldMembers names field with
    | error unsupported => simp [hfield] at h
    | ok part =>
      cases hrest : membersOf names rest with
      | error unsupported => simp [hfield, hrest] at h
      | ok others =>
        rw [hfield, hrest] at h
        obtain rfl := Except.ok.inj h
        obtain ⟨hparts, hmembers⟩ := ih hrest
        constructor
        · refine List.forall_mem_cons.mpr ⟨⟨part, hfield, List.subset_append_left _ _⟩, ?_⟩
          intro other hother
          obtain ⟨otherPart, hok, hsubset⟩ := hparts other hother
          exact ⟨otherPart, hok, fun member hmember => List.mem_append_right _ (hsubset hmember)⟩
        · intro member hmember
          rcases List.mem_append.mp hmember with hmember | hmember
          · exact ⟨field, List.mem_cons_self, part, hfield, hmember⟩
          · obtain ⟨other, hother, hfound⟩ := hmembers member hmember
            exact ⟨other, List.mem_cons_of_mem _ hother, hfound⟩

/-! ## Structs -/

/-- The struct of a type carries its name, and its members are those of its fields, with distinct
names. -/
theorem structOf_eq_ok {names : NameTable} {type : TypeNode} {struct : Struct}
    (h : structOf names type = .ok struct) :
    struct.name = names.type type.id ∧ membersOf names type.fields = .ok struct.members ∧
      (struct.members.map Member.name).Nodup := by
  unfold structOf at h
  split at h
  · contradiction
  · next members hmembers =>
    split at h
    · contradiction
    · next done hdistinct =>
      obtain rfl := Except.ok.inj h
      refine ⟨rfl, hmembers, ?_⟩
      have hnames := (ensureDistinct_eq_ok_iff _ _ _ done).mp hdistinct
      rwa [List.map_map] at hnames

/-- Structs are made of one type after the other. -/
theorem structsOf_cons_eq_ok {names : NameTable} {type : TypeNode} {types : List TypeNode}
    {structs : List Struct} (h : structsOf names (type :: types) = .ok structs) :
    ∃ struct others, structs = struct :: others ∧ structOf names type = .ok struct ∧
      structsOf names types = .ok others := by
  rw [structsOf] at h
  cases hstruct : structOf names type with
  | error unsupported => simp [hstruct] at h
  | ok struct =>
    cases hothers : structsOf names types with
    | error unsupported => simp [hstruct, hothers] at h
    | ok others =>
      rw [hstruct, hothers] at h
      exact ⟨struct, others, (Except.ok.inj h).symm, rfl, rfl⟩

/-- Structs carry the names of their types, in the same order. -/
theorem map_name_structsOf {names : NameTable} {types : List TypeNode} {structs : List Struct}
    (h : structsOf names types = .ok structs) :
    structs.map Struct.name = types.map fun type => names.type type.id := by
  induction types generalizing structs with
  | nil =>
    obtain rfl := Except.ok.inj h
    rfl
  | cons type rest ih =>
    obtain ⟨struct, others, rfl, hstruct, hothers⟩ := structsOf_cons_eq_ok h
    rw [List.map_cons, List.map_cons, (structOf_eq_ok hstruct).1, ih hothers]

/-- Every type has its struct. -/
theorem exists_mem_structsOf {names : NameTable} {types : List TypeNode} {structs : List Struct}
    (h : structsOf names types = .ok structs) {type : TypeNode} (htype : type ∈ types) :
    ∃ struct ∈ structs, structOf names type = .ok struct := by
  induction types generalizing structs with
  | nil => exact absurd htype List.not_mem_nil
  | cons first rest ih =>
    obtain ⟨struct, others, rfl, hstruct, hothers⟩ := structsOf_cons_eq_ok h
    rcases List.mem_cons.mp htype with rfl | htype
    · exact ⟨struct, List.mem_cons_self, hstruct⟩
    · obtain ⟨found, hfound, hok⟩ := ih hothers htype
      exact ⟨found, List.mem_cons_of_mem _ hfound, hok⟩

/-- Where a struct stands among structs, its type stands among their types. -/
theorem structsOf_split {names : NameTable} {types : List TypeNode} {before after : List Struct}
    {struct : Struct} (h : structsOf names types = .ok (before ++ struct :: after)) :
    ∃ front type back, types = front ++ type :: back ∧ structOf names type = .ok struct ∧
      before.map Struct.name = front.map fun type => names.type type.id := by
  induction before generalizing types with
  | nil =>
    cases types with
    | nil => simp [structsOf] at h
    | cons type rest =>
      obtain ⟨first, others, hsplit, hstruct, -⟩ := structsOf_cons_eq_ok h
      obtain ⟨rfl, -⟩ := List.cons_eq_cons.mp hsplit
      exact ⟨[], type, rest, rfl, hstruct, rfl⟩
  | cons first before ih =>
    cases types with
    | nil => simp [structsOf] at h
    | cons type rest =>
      obtain ⟨same, others, hsplit, hfirst, hothers⟩ := structsOf_cons_eq_ok h
      obtain ⟨rfl, rfl⟩ := List.cons_eq_cons.mp hsplit
      obtain ⟨front, found, back, rfl, hstruct, hnames⟩ := ih hothers
      refine ⟨type :: front, found, back, rfl, hstruct, ?_⟩
      rw [List.map_cons, List.map_cons, (structOf_eq_ok hfirst).1, hnames]

/-! ## Headers -/

/-- What a header is to give for a type graph. -/
structure Header.Represents (options : NamingOptions) (graph : TypeGraph) (header : Header) :
    Prop where
  /-- Every type is declared ahead, under its own name. -/
  forward_eq : header.forward = graph.types.map (structName options)
  forward_nodup : header.forward.Nodup
  /-- Every type declared ahead is defined once, and nothing else is. -/
  structs_perm : (header.structs.map Struct.name).Perm header.forward
  members_nodup : ∀ struct ∈ header.structs, (struct.members.map Member.name).Nodup
  /-- A struct that is embedded is defined in front of the one that embeds it. -/
  embedded_before : ∀ before struct after, header.structs = before ++ struct :: after →
    ∀ member ∈ struct.members, ∀ name, member.base = .struct name → member.pointer = false →
      name ∈ before.map Struct.name
  /-- A field whose type reaches its owner again has a member of that type, and only pointers to it,
  which are declared as such. -/
  cycle_pointer : ∀ type ∈ graph.types, ∀ field ∈ type.fields, ∀ target ∈ graph.types,
    field.type.target? = some target.id → ReflTransGen graph.RefersTo target.id type.id →
      ∃ struct ∈ header.structs, struct.name = structName options type ∧
        (∃ member ∈ struct.members, member.source = field.name ∧
          member.base = .struct (structName options target)) ∧
        ∀ member ∈ struct.members, member.source = field.name → ∀ name, member.base = .struct name →
          member.pointer = true ∧ member.declaration = name ++ " *" ++ member.name ++ ";"

/-- The header that is built for a linked graph represents it. A struct is made of a type of the
graph, which stands behind the types that it embeds. -/
theorem represents_of_build {options : NamingOptions} {graph : TypeGraph} {header : Header}
    (hlinked : graph.Linked) (h : build options graph = .ok header) :
    header.Represents options graph := by
  obtain ⟨-, names, structs, hnames, hstructs, rfl⟩ := build_eq_ok h
  obtain ⟨hperm, hordered⟩ := placedTypes_ordered hlinked
  have hname : ∀ type ∈ graph.types, names.type type.id = structName options type :=
    fun type htype => nameTable_type_eq hlinked.distinct hnames htype
  have hforward : (graph.types.map fun type => names.type type.id) =
      graph.types.map (structName options) :=
    List.map_congr_left hname
  have hmade : ∀ before struct after, structs = before ++ struct :: after → ∃ type ∈ graph.types,
      structOf names type = .ok struct ∧ ∀ other, Embeds graph type other →
        names.type other.id ∈ before.map Struct.name := by
    intro before struct after hsplit
    obtain ⟨front, type, back, hplaced, hstruct, hbefore⟩ := structsOf_split (hsplit ▸ hstructs)
    refine ⟨type, hperm.mem_iff.mp (by simp [hplaced]), hstruct, fun other hother => ?_⟩
    rw [hbefore]
    exact List.mem_map_of_mem (hordered front type back hplaced other hother)
  refine ⟨hforward, ?_, ?_, ?_, ?_, ?_⟩
  · obtain ⟨-, hdistinct, -⟩ := (nameTable_build_eq_ok_iff _ _ _ _ _ _).mp hnames
    rw [hforward]
    exact hdistinct ("", graph.types) List.mem_cons_self
  · rw [map_name_structsOf hstructs]
    exact hperm.map _
  · intro struct hstruct
    obtain ⟨before, after, hsplit⟩ := List.append_of_mem hstruct
    obtain ⟨type, -, hmade, -⟩ := hmade before struct after hsplit
    exact (structOf_eq_ok hmade).2.2
  · intro before struct after hsplit member hmember name hbase hpointer
    obtain ⟨type, htype, hmade, hbefore⟩ := hmade before struct after hsplit
    obtain ⟨-, hmembers⟩ := membersOf_eq_ok (structOf_eq_ok hmade).2.1
    obtain ⟨field, hfield, part, hpart, hmem⟩ := hmembers member hmember
    obtain ⟨id, hnamed, rfl, hrecursive⟩ :=
      (of_mem_fieldMembers hpart hmem).2.embedded name hbase hpointer
    have htarget :=
      hlinked.target_mem type htype field hfield id (by rw [hnamed, FieldType.target?])
    obtain ⟨other, hfind⟩ := exists_find?_eq_some htarget
    obtain ⟨-, rfl⟩ := find?_eq_some hfind
    exact hbefore other ((embeds_iff graph type other).mpr
      ⟨field, hfield, hrecursive, other.id, hnamed, hfind⟩)
  · intro type htype field hfield target htarget hrefers hreaches
    have hmarked :=
      (hlinked.recursive_iff type htype field hfield).mpr ⟨target.id, hrefers, hreaches⟩
    obtain ⟨struct, hstruct, hok⟩ := exists_mem_structsOf hstructs (hperm.mem_iff.mpr htype)
    obtain ⟨hstructName, hmembersOf, -⟩ := structOf_eq_ok hok
    obtain ⟨hparts, hmembers⟩ := membersOf_eq_ok hmembersOf
    refine ⟨struct, hstruct, hstructName.trans (hname type htype), ?_, ?_⟩
    · obtain ⟨part, hpart, hsubset⟩ := hparts field hfield
      obtain ⟨member, hmember, hbase⟩ := exists_mem_fieldMembers hpart hrefers
      exact ⟨member, hsubset hmember, (of_mem_fieldMembers hpart hmember).1,
        hname target htarget ▸ hbase⟩
    · intro member hmember hsource name hbase
      obtain ⟨source, hfound, part, hpart, hmem⟩ := hmembers member hmember
      obtain ⟨hname, hholds⟩ := of_mem_fieldMembers hpart hmem
      obtain rfl := List.inj_on_of_nodup_map (hlinked.fields_distinct type htype) hfound hfield
        (hname.symm.trans hsource)
      have hpointer : member.pointer = true := by
        by_contra hvalue
        obtain ⟨-, -, -, hunmarked⟩ := hholds.embedded name hbase (by simpa using hvalue)
        rw [hmarked] at hunmarked
        exact Bool.noConfusion hunmarked
      exact ⟨hpointer, Member.declaration_eq hbase hpointer⟩

/-! ## Lines -/

/-- A line of a block comment starts with a slash or a blank. -/
theorem firstChar?_of_mem_blockComment {indent : String}
    (hindent : indent = "" ∨ firstChar? indent = some ' ') {docs : List String} {line : String}
    (h : line ∈ blockComment indent docs) :
    firstChar? line = some '/' ∨ firstChar? line = some ' ' := by
  unfold blockComment at h
  split at h
  · exact absurd h List.not_mem_nil
  · obtain rfl := List.mem_singleton.mp h
    rcases hindent with rfl | hindent
    · exact .inl (firstChar?_append (firstChar?_append rfl _) _)
    · exact .inr (firstChar?_append (firstChar?_append (firstChar?_append hindent _) _) _)
  · rcases List.mem_append.mp h with h | h
    · rcases List.mem_cons.mp h with rfl | h
      · rcases hindent with rfl | hindent
        · exact .inl rfl
        · exact .inr (firstChar?_append hindent _)
      · obtain ⟨doc, -, rfl⟩ := List.mem_map.mp h
        right
        rcases hindent with rfl | hindent
        · split
          · rfl
          · exact firstChar?_append rfl _
        · split
          · exact firstChar?_append hindent _
          · exact firstChar?_append (firstChar?_append hindent _) _
    · obtain rfl := List.mem_singleton.mp h
      rcases hindent with rfl | hindent
      · exact .inr rfl
      · exact .inr (firstChar?_append hindent _)

/-- Block comments declare nothing. -/
theorem linesStarting_blockComment {start : String} {c : Char} (hstart : firstChar? start = some c)
    (hslash : c ≠ '/') (hblank : c ≠ ' ') {indent : String}
    (hindent : indent = "" ∨ firstChar? indent = some ' ') (docs : List String) :
    linesStarting start (blockComment indent docs) = [] := by
  refine linesStarting_eq_nil hstart fun line hline => ?_
  rcases firstChar?_of_mem_blockComment hindent hline with h | h
  · simpa [h] using hslash.symm
  · simpa [h] using hblank.symm

/-- The line of a member is indented. -/
theorem firstChar?_of_mem_memberLines {member : Member} {line : String} (h : line ∈ member.lines) :
    firstChar? line = some '/' ∨ firstChar? line = some ' ' := by
  rcases List.mem_append.mp h with h | h
  · exact firstChar?_of_mem_blockComment (.inr rfl) h
  · obtain rfl := List.mem_singleton.mp h
    exact .inr (firstChar?_append rfl _)

/-- Of the lines of a struct, only one starts with a letter: the one that defines it. -/
theorem linesStarting_struct {start : String} {c : Char} (hstart : firstChar? start = some c)
    (hslash : c ≠ '/') (hblank : c ≠ ' ') (hbrace : c ≠ '\x7d') (struct : Struct) :
    linesStarting start struct.lines =
      linesStarting start ["struct " ++ struct.name ++ " \x7b"] := by
  have hmembers : linesStarting start (struct.printed.flatMap Member.lines) = [] := by
    refine linesStarting_eq_nil hstart fun line hline => ?_
    obtain ⟨member, -, hmember⟩ := List.mem_flatMap.mp hline
    rcases firstChar?_of_mem_memberLines hmember with h | h
    · simpa [h] using hslash.symm
    · simpa [h] using hblank.symm
  have hend : linesStarting start ["\x7d;"] = [] := by
    refine linesStarting_eq_nil hstart fun line hline => ?_
    obtain rfl := List.mem_singleton.mp hline
    simpa [firstChar?] using hbrace.symm
  rw [Struct.lines, linesStarting_append, linesStarting_append,
    linesStarting_blockComment hstart hslash hblank (.inl rfl), hend,
    List.nil_append, List.append_nil, ← List.singleton_append, linesStarting_append,
    hmembers, List.append_nil]

/-- Of the lines of a header, only forward declarations and definitions start with a letter. -/
theorem linesStarting_header {start : String} {c : Char} (hstart : firstChar? start = some c)
    (hslash : c ≠ '/') (hblank : c ≠ ' ') (hbrace : c ≠ '\x7d') (hmark : c ≠ '#')
    (header : Header) :
    linesStarting start header.lines =
      linesStarting start (header.forward.map
        fun name => "typedef struct " ++ name ++ " " ++ name ++ ";") ++
        linesStarting start
          (header.structs.map fun struct => "struct " ++ struct.name ++ " \x7b") := by
  have hhead : linesStarting start ["/* " ++ banner ++ " */", "", "#pragma once", "",
        "#include <stdbool.h>",
      "#include <stddef.h>", "#include <stdint.h>"] = [] := by
    refine linesStarting_eq_nil hstart fun line hline => ?_
    have hfirst : firstChar? line = some '/' ∨ firstChar? line = none ∨
        firstChar? line = some '#' := by
      revert line
      decide
    rcases hfirst with h | h | h
    · simpa [h] using hslash.symm
    · simp [h]
    · simpa [h] using hmark.symm
  have hempty : linesStarting start [""] = [] :=
    linesStarting_eq_nil hstart fun line hline => by simp [List.mem_singleton.mp hline, firstChar?]
  have hgap : linesStarting start (if header.structs.isEmpty then [] else [""]) = [] := by
    split
    · rfl
    · exact hempty
  have hstructs : linesStarting start (header.structs.flatMap fun struct => "" :: struct.lines) =
      linesStarting start
        (header.structs.map fun struct => "struct " ++ struct.name ++ " \x7b") := by
    rw [linesStarting_flatMap, List.map_eq_flatMap, linesStarting_flatMap]
    refine congrArg (fun f => List.flatMap f header.structs) (funext fun struct => ?_)
    rw [← List.singleton_append, linesStarting_append, hempty, List.nil_append,
      linesStarting_struct hstart hslash hblank hbrace]
  rw [Header.lines, linesStarting_append, linesStarting_append, linesStarting_append,
    hhead, hgap, hstructs, List.nil_append, List.nil_append]

/-- The lines of a header that start like a forward declaration are its forward declarations. -/
theorem linesStarting_typedef (header : Header) :
    linesStarting "typedef struct " header.lines =
      header.forward.map fun name => "typedef struct " ++ name ++ " " ++ name ++ ";" := by
  have hstructs : linesStarting "typedef struct "
      (header.structs.map fun struct => "struct " ++ struct.name ++ " \x7b") = [] := by
    refine linesStarting_eq_nil (c := 't') rfl fun line hline => ?_
    obtain ⟨struct, -, rfl⟩ := List.mem_map.mp hline
    rw [firstChar?_append (firstChar?_append (c := 's') rfl _) _]
    decide
  rw [linesStarting_header (c := 't') rfl (by decide) (by decide) (by decide) (by decide), hstructs,
    List.append_nil]
  simp only [String.append_assoc, linesStarting_map_append]

/-- The lines of a header that start like a definition are its definitions. -/
theorem linesStarting_definition (header : Header) :
    linesStarting "struct " header.lines =
      header.structs.map fun struct => "struct " ++ struct.name ++ " \x7b" := by
  have hforward : linesStarting "struct "
      (header.forward.map fun name => "typedef struct " ++ name ++ " " ++ name ++ ";") = [] := by
    refine linesStarting_eq_nil (c := 's') rfl fun line hline => ?_
    obtain ⟨name, -, rfl⟩ := List.mem_map.mp hline
    simp only [String.append_assoc]
    rw [firstChar?_append (c := 't') rfl _]
    decide
  rw [linesStarting_header (c := 's') rfl (by decide) (by decide) (by decide) (by decide), hforward,
    List.nil_append]
  simp only [String.append_assoc, linesStarting_map_append]

end SchemaBindings.Bindings.CHeader
