import SchemaBindings.Proofs.Graph.Definitions
import SchemaBindings.Proofs.Graph.Meaning
import SchemaBindings.Proofs.Graph.References

/-!
# Which schema files make a type graph

What schema files must satisfy is stated on their declarations alone: names are distinct, every
field is sound, and no type contains itself. Building succeeds for exactly these files. The cycle
check runs on looked-up types from which unresolved fields were dropped; where all fields are sound,
it sees the declared references.
-/

namespace SchemaBindings.Graph

open Relation (TransGen)
open SchemaBindings.Schema (SchemaFile TypeDecl)

/-- Whether a value of a declared type always holds a value of another: some field that is neither
optional nor a list means that type. -/
def Contains (files : List SchemaFile) (a b : TypeId) : Prop :=
  ∃ declaration ∈ declarationsOf files, declaredId declaration = a ∧
    ∃ field ∈ declaration.fields, field.optional = false ∧
      Means (Declared files) declaration.namespacePath field.type (.named b)

/-- What the declarations of schema files have to satisfy. -/
structure WellFormed (files : List SchemaFile) : Prop where
  types_distinct : ((declarationsOf files).map declaredId).Nodup
  fields_distinct : ∀ declaration ∈ declarationsOf files,
    (declaration.fields.map Schema.Field.name).Nodup
  fields_sound : ∀ declaration ∈ declarationsOf files, ∀ field ∈ declaration.fields,
    ∃ type, Sound (Declared files) declaration.namespacePath field type
  acyclic : ∀ id, ¬ TransGen (Contains files) id id

/-- The identities of the declarations that count. -/
def knownIds (files : List SchemaFile) : List TypeId :=
  (firstDeclarations files).map declaredId

/-- The types that the declarations become, before recursion is marked. -/
def resolvedTypes (files : List SchemaFile) : List TypeNode :=
  (firstDeclarations files).map (resolveDeclaration (knownIds files))

/-- Building succeeds exactly if none of its checks reports anything. -/
theorem build_eq_ok_iff (files : List SchemaFile) (graph : TypeGraph) :
    build files = .ok graph ↔
      duplicates [] (declarationsOf files) = [] ∧
        (firstDeclarations files).flatMap (declarationErrors (knownIds files)) = [] ∧
        containmentErrors (resolvedTypes files) = [] ∧
        graph = ⟨markRecursive (resolvedTypes files)⟩ := by
  simp only [build, List.isEmpty_iff, List.append_eq_nil_iff]
  split
  · next h =>
    rw [Except.ok.injEq, eq_comm]
    exact ⟨fun hgraph => ⟨h.1.1, h.1.2, h.2, hgraph⟩, fun hgraph => hgraph.2.2.2⟩
  · next h =>
    simp only [reduceCtorEq, false_iff]
    exact fun hall => h ⟨⟨hall.1, hall.2.1⟩, hall.2.2.1⟩

/-- The resolved types have distinct identities. -/
theorem resolvedTypes_nodup (files : List SchemaFile) :
    ((resolvedTypes files).map TypeNode.id).Nodup := by
  rw [resolvedTypes, List.map_map]
  exact firstDeclarations_nodup files

/-- The known identities are those of the declared types. -/
theorem mem_knownIds_eq (files : List SchemaFile) : (· ∈ knownIds files) = Declared files :=
  funext fun id => propext (mem_map_firstDeclarations_iff files id)

/-- What a reference means refers to a declared type, if to any. -/
theorem Means.declared {declared : TypeId → Prop} {namespacePath : String}
    {reference : Schema.TypeRef} {type : FieldType} {id : TypeId}
    (h : Means declared namespacePath reference type) (htarget : type.target? = some id) :
    declared id := by
  induction h with
  | primitive kind => simp [FieldType.target?] at htarget
  | own name hword hown => exact Option.some.inj htarget ▸ hown
  | root name hword hown hroot => exact Option.some.inj htarget ▸ hroot
  | qualified first others name hdeclared => exact Option.some.inj htarget ▸ hdeclared
  | list element type _ ih => exact ih htarget

/-- The fields of a resolved declaration are those of its first fields whose reference means a
type. -/
theorem mem_resolveDeclaration_fields_iff (known : List TypeId) (declaration : TypeDecl)
    (field : Field) :
    field ∈ (resolveDeclaration known declaration).fields ↔
      ∃ source ∈ firstFields declaration, resolveField known (declaredId declaration) source =
        .ok field := by
  simp only [resolveDeclaration, List.mem_mergeSort, List.mem_filterMap]
  refine exists_congr fun source => and_congr_right fun _ => ?_
  cases resolveField known (declaredId declaration) source with
  | error _ => simp [Except.toOption]
  | ok _ => simp [Except.toOption]

/-- A resolved field has another type as a part exactly if it is not optional and its reference
means that type. -/
theorem directTarget?_resolveField_iff (known : List TypeId) (owner : TypeId)
    (source : Schema.Field) (target : TypeId) :
    (∃ field, resolveField known owner source = .ok field ∧ directTarget? field = some target) ↔
      source.optional = false ∧
      Means (· ∈ known) owner.namespacePath source.type (.named target) := by
  rw [← resolve_eq_ok_iff, resolveField]
  cases hresolve : resolve known owner.namespacePath source.type with
  | error reference => simp
  | ok type =>
    cases type with
    | named id => cases source.optional <;> simp [directTarget?]
    | primitive kind => simp [directTarget?]
    | list element => simp [directTarget?]

/-- Where field names are distinct, the resolved types refer to each other as parts exactly as the
declared types contain each other. -/
theorem refers_resolvedTypes_iff (files : List SchemaFile)
    (htypes : ((declarationsOf files).map declaredId).Nodup)
    (hfields : ∀ declaration ∈ declarationsOf files,
      (declaration.fields.map Schema.Field.name).Nodup) (a b : TypeId) :
    Refers directTarget? (resolvedTypes files) a b ↔ Contains files a b := by
  have hperm := firstDeclarations_perm htypes
  constructor
  · intro h
    obtain ⟨⟨type, htype, rfl, field, hfield, htarget⟩, -⟩ := h
    obtain ⟨declaration, hdeclaration, rfl⟩ := List.mem_map.mp htype
    obtain ⟨source, hsource, hresolve⟩ := (mem_resolveDeclaration_fields_iff _ _ field).mp hfield
    have hmem := hperm.mem_iff.mp hdeclaration
    rw [firstFields, firstBy_eq_self _ _ (hfields declaration hmem)] at hsource
    obtain ⟨hoptional, hmeans⟩ :=
      (directTarget?_resolveField_iff _ _ source b).mp ⟨field, hresolve, htarget⟩
    exact ⟨declaration, hmem, rfl, source, hsource, hoptional, mem_knownIds_eq files ▸ hmeans⟩
  · intro h
    obtain ⟨declaration, hmem, rfl, source, hsource, hoptional, hmeans⟩ := h
    rw [← mem_knownIds_eq] at hmeans
    obtain ⟨field, hresolve, htarget⟩ := (directTarget?_resolveField_iff (knownIds files)
      (declaredId declaration) source b).mpr ⟨hoptional, hmeans⟩
    rw [← firstBy_eq_self _ _ (hfields declaration hmem)] at hsource
    refine ⟨⟨_, List.mem_map_of_mem (hperm.mem_iff.mpr hmem), rfl, field, ?_, htarget⟩, ?_⟩
    · exact (mem_resolveDeclaration_fields_iff _ _ field).mpr ⟨source, hsource, hresolve⟩
    · rw [resolvedTypes, List.map_map]
      exact hmeans.declared rfl

/-- Where field names are distinct, a declaration is not reported exactly if all its fields are
sound. -/
theorem declarationErrors_eq_nil_iff (files : List SchemaFile) (declaration : TypeDecl)
    (hfields : (declaration.fields.map Schema.Field.name).Nodup) :
    declarationErrors (knownIds files) declaration = [] ↔
      ∀ field ∈ declaration.fields,
        ∃ type, Sound (Declared files) declaration.namespacePath field type := by
  rw [declarationErrors, firstFields, firstBy_eq_self _ _ hfields, List.flatMap_eq_nil_iff]
  refine forall₂_congr fun field _ => ?_
  rw [fieldErrors_eq_nil_iff, mem_knownIds_eq]
  rfl

/-- The checks report nothing exactly for well-formed schema files. -/
theorem checks_eq_nil_iff (files : List SchemaFile) :
    (duplicates [] (declarationsOf files) = [] ∧
      (firstDeclarations files).flatMap (declarationErrors (knownIds files)) = [] ∧
      containmentErrors (resolvedTypes files) = []) ↔ WellFormed files := by
  rw [duplicates_eq_nil_iff [] (declarationsOf files) List.nodup_nil,
    containmentErrors_eq_nil_iff (resolvedTypes files) (resolvedTypes_nodup files), List.nil_append,
    List.flatMap_eq_nil_iff]
  constructor
  · intro h
    obtain ⟨⟨htypes, hfields⟩, herrors, hacyclic⟩ := h
    have hperm := firstDeclarations_perm htypes
    refine ⟨htypes, hfields, fun declaration hmem => ?_, fun a hcycle => hacyclic a ?_⟩
    · exact (declarationErrors_eq_nil_iff files declaration (hfields declaration hmem)).mp
        (herrors declaration (hperm.mem_iff.mpr hmem))
    · exact hcycle.lift id fun a b => (refers_resolvedTypes_iff files htypes hfields a b).mpr
  · intro h
    obtain ⟨htypes, hfields, hsound, hacyclic⟩ := h
    have hperm := firstDeclarations_perm htypes
    refine ⟨⟨htypes, hfields⟩, fun declaration hdeclaration => ?_, fun a hcycle => hacyclic a ?_⟩
    · have hmem := hperm.mem_iff.mp hdeclaration
      exact (declarationErrors_eq_nil_iff files declaration (hfields declaration hmem)).mpr
        (hsound declaration hmem)
    · exact hcycle.lift id fun a b => (refers_resolvedTypes_iff files htypes hfields a b).mp

/-- Building gives the resolved types with recursion marked, exactly for well-formed schema
files. -/
theorem build_eq_ok_iff_wellFormed (files : List SchemaFile) (graph : TypeGraph) :
    build files = .ok graph ↔ WellFormed files ∧ graph = ⟨markRecursive (resolvedTypes files)⟩ := by
  rw [build_eq_ok_iff, ← checks_eq_nil_iff]
  tauto

/-- Building succeeds exactly for well-formed schema files. -/
theorem exists_build_eq_ok_iff (files : List SchemaFile) :
    (∃ graph, build files = .ok graph) ↔ WellFormed files := by
  constructor
  · intro h
    obtain ⟨graph, hbuild⟩ := h
    exact ((build_eq_ok_iff_wellFormed files graph).mp hbuild).1
  · intro hwell
    exact ⟨_, (build_eq_ok_iff_wellFormed files _).mpr ⟨hwell, rfl⟩⟩

end SchemaBindings.Graph
