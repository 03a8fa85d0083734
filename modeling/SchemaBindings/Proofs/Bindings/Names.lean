import SchemaBindings.Bindings.Names
import SchemaBindings.Proofs.Graph.Definitions

/-!
# When names of a scope are distinct

A scope is accepted exactly if no two of its names are written alike. A name table exists exactly if
this holds of the fields of each type and of the types of each scope, and it then gives every type
the name that was computed for it.
-/

namespace SchemaBindings.Bindings

open SchemaBindings.Graph (Field TypeId TypeNode find?_eq_none_iff_nodup nodup_map_append_singleton)

/-! ## One scope -/

/-- Behind names that are written differently, there is no collision exactly if all names are. -/
theorem firstCollision?_eq_none_iff (seen names : List Naming)
    (hseen : (seen.map Naming.emitted).Nodup) :
    firstCollision? seen names = none ↔ ((seen ++ names).map Naming.emitted).Nodup := by
  induction names generalizing seen with
  | nil => simpa [firstCollision?] using hseen
  | cons naming rest ih =>
    have hiff := find?_eq_none_iff_nodup Naming.emitted seen naming hseen
    rw [firstCollision?]
    split
    · next first hfound =>
      simp only [reduceCtorEq, false_iff]
      intro hnodup
      rw [hiff.mpr (nodup_map_append_singleton hnodup)] at hfound
      contradiction
    · next hnone =>
      rw [ih (seen ++ [naming]) (hiff.mp hnone), List.append_assoc, List.singleton_append]

/-- A scope has no complaint exactly if its names are written differently. -/
theorem collisionIn?_eq_none_iff (language : Language) (scope : String) (names : List Naming) :
    collisionIn? language scope names = none ↔ (names.map Naming.emitted).Nodup := by
  rw [collisionIn?, Option.map_eq_none_iff, firstCollision?_eq_none_iff [] names List.nodup_nil,
    List.nil_append]

/-- A scope is accepted exactly if its names are written differently. -/
theorem ensureDistinct_eq_ok_iff (language : Language) (scope : String) (names : List Naming)
    (done : Unit) :
    ensureDistinct language scope names = .ok done ↔ (names.map Naming.emitted).Nodup := by
  rw [← collisionIn?_eq_none_iff language scope, ensureDistinct]
  cases collisionIn? language scope names with
  | none => simp
  | some unsupported => simp

/-- Module stems are accepted exactly if they are distinct. -/
theorem ensureStemsDistinct_eq_ok_iff (language : Language) (graph : TypeGraph) (done : Unit) :
    ensureStemsDistinct language graph = .ok done ↔
      (graph.namespaces.map Naming.moduleStem).Nodup := by
  rw [ensureStemsDistinct, ensureDistinct_eq_ok_iff, List.map_map]
  rfl

/-! ## Complaints -/

/-- A complaint about a scope: it shows the first two names that are written alike, in their order,
and what they become. -/
def Clash (language : Language) (scope : String) (names : List Naming) (unsupported : Unsupported) :
    Prop :=
  ∃ first second : Naming, [first, second].Sublist names ∧ first.emitted = second.emitted ∧
    unsupported = ⟨language, scope ++ "." ++ second.emitted,
      .sameName ⟨first.source, second.source, second.emitted⟩⟩

/-- Where a clash is, names are written alike. -/
theorem Clash.not_nodup {language : Language} {scope : String} {names : List Naming}
    {unsupported : Unsupported} (h : Clash language scope names unsupported) :
    ¬ (names.map Naming.emitted).Nodup := by
  obtain ⟨first, second, hsublist, hsame, -⟩ := h
  have htwice := hsublist.map Naming.emitted
  rw [List.map_cons, List.map_singleton, hsame] at htwice
  intro hnodup
  exact List.nodup_iff_sublist.mp hnodup second.emitted htwice

/-- A collision is that of two names, one behind the other. -/
theorem firstCollision?_eq_some {seen names : List Naming} {collision : Collision}
    (h : firstCollision? seen names = some collision) :
    ∃ first second : Naming, [first, second].Sublist (seen ++ names) ∧
      first.emitted = second.emitted ∧
      collision = ⟨first.source, second.source, second.emitted⟩ := by
  induction names generalizing seen with
  | nil => simp [firstCollision?] at h
  | cons naming rest ih =>
    rw [firstCollision?] at h
    split at h
    · next first hfound =>
      have hsame : first.emitted = naming.emitted := by simpa using List.find?_some hfound
      have hfirst : [first].Sublist seen :=
        List.singleton_sublist.mpr (List.mem_of_find?_eq_some hfound)
      have hsecond : [naming].Sublist (naming :: rest) :=
        List.singleton_sublist.mpr List.mem_cons_self
      exact ⟨first, naming, hfirst.append hsecond, hsame, (Option.some.inj h).symm⟩
    · obtain ⟨first, second, hsublist, hsame, heq⟩ := ih h
      rw [List.append_assoc, List.singleton_append] at hsublist
      exact ⟨first, second, hsublist, hsame, heq⟩

/-- The complaint about a scope is a clash of its names. -/
theorem clash_of_collisionIn? {language : Language} {scope : String} {names : List Naming}
    {unsupported : Unsupported} (h : collisionIn? language scope names = some unsupported) :
    Clash language scope names unsupported := by
  obtain ⟨collision, hcollision, rfl⟩ := Option.map_eq_some_iff.mp h
  obtain ⟨first, second, hsublist, hsame, rfl⟩ := firstCollision?_eq_some hcollision
  exact ⟨first, second, hsublist, hsame, rfl⟩

/-- A scope that is refused has a clash. -/
theorem clash_of_ensureDistinct {language : Language} {scope : String} {names : List Naming}
    {unsupported : Unsupported} (h : ensureDistinct language scope names = .error unsupported) :
    Clash language scope names unsupported := by
  unfold ensureDistinct at h
  split at h
  · next complaint hcomplaint =>
    rw [← Except.error.inj h]
    exact clash_of_collisionIn? hcomplaint
  · contradiction

/-! ## Name tables -/

/-- A name table exists exactly if the fields of each type and the types of each scope are named
differently. -/
theorem nameTable_build_eq_ok_iff (graph : TypeGraph) (language : Language) (scope : TypeScope)
    (typeName : TypeNode → String) (fieldName : Field → String) (names : NameTable) :
    NameTable.build graph language scope typeName fieldName = .ok names ↔
      (∀ type ∈ graph.types, (type.fields.map fieldName).Nodup) ∧
        (∀ group ∈ scope.groups graph, (group.2.map typeName).Nodup) ∧
        names = ⟨graph.types.map fun type => (type.id, typeName type),
          graph.types.flatMap
            fun type => type.fields.map fun field => (field.id, fieldName field)⟩ := by
  have hcheck : ((graph.types.map fun type => collisionIn? language type.id.shown
          (type.fields.map fun field => ⟨field.name, fieldName field⟩)) ++
        (scope.groups graph).map fun group => collisionIn? language (namespaceShown group.1)
          (group.2.map fun type => ⟨type.id.shown, typeName type⟩)).findSome? id = none ↔
      (∀ type ∈ graph.types, (type.fields.map fieldName).Nodup) ∧
        ∀ group ∈ scope.groups graph, (group.2.map typeName).Nodup := by
    rw [List.findSome?_eq_none_iff, List.forall_mem_append, List.forall_mem_map,
      List.forall_mem_map]
    simp only [id, collisionIn?_eq_none_iff, List.map_map, Function.comp_def]
  unfold NameTable.build
  dsimp only
  split
  · next unsupported hfound =>
    simp only [reduceCtorEq, false_iff]
    intro h
    rw [hcheck.mpr ⟨h.1, h.2.1⟩] at hfound
    contradiction
  · next hfound =>
    obtain ⟨hmembers, hgroups⟩ := hcheck.mp hfound
    rw [Except.ok.injEq, eq_comm]
    exact ⟨fun hnames => ⟨hmembers, hgroups, hnames⟩, fun h => h.2.2⟩

/-- Where there is no name table, the fields of a type clash, or the types of a scope. -/
theorem clash_of_nameTable_build {graph : TypeGraph} {language : Language} {scope : TypeScope}
    {typeName : TypeNode → String} {fieldName : Field → String} {unsupported : Unsupported}
    (h : NameTable.build graph language scope typeName fieldName = .error unsupported) :
    (∃ type ∈ graph.types, Clash language type.id.shown
      (type.fields.map fun field => ⟨field.name, fieldName field⟩) unsupported) ∨
    ∃ group ∈ scope.groups graph, Clash language (namespaceShown group.1)
      (group.2.map fun type => ⟨type.id.shown, typeName type⟩) unsupported := by
  unfold NameTable.build at h
  dsimp only at h
  split at h
  · next complaint hfound =>
    obtain rfl := Except.error.inj h
    obtain ⟨complaint?, hmem, hcomplaint⟩ := List.exists_of_findSome?_eq_some hfound
    rw [id, eq_comm] at hcomplaint
    rcases List.mem_append.mp hmem with hmember | hgroup
    · obtain ⟨type, htype, heq⟩ := List.mem_map.mp hmember
      exact .inl ⟨type, htype, clash_of_collisionIn? (heq.trans hcomplaint.symm)⟩
    · obtain ⟨group, hgroup, heq⟩ := List.mem_map.mp hgroup
      exact .inr ⟨group, hgroup, clash_of_collisionIn? (heq.trans hcomplaint.symm)⟩
  · contradiction

/-- Where keys are distinct, every element's value is found at its key. -/
theorem lookup_map_of_mem {α β γ : Type} [DecidableEq β] (key : α → β) (value : α → γ)
    {elements : List α} (hdistinct : (elements.map key).Nodup) {a : α} (ha : a ∈ elements) :
    (elements.map fun a => (key a, value a)).lookup (key a) = some (value a) := by
  induction elements with
  | nil => exact absurd ha List.not_mem_nil
  | cons b rest ih =>
    rw [List.map_cons, List.nodup_cons] at hdistinct
    rcases List.mem_cons.mp ha with rfl | ha
    · simp
    · have hne : key a ≠ key b := fun heq => hdistinct.1 (heq ▸ List.mem_map_of_mem ha)
      rw [List.map_cons, List.lookup_cons, beq_eq_false_iff_ne.mpr hne]
      exact ih hdistinct.2 ha

/-- A name table gives a type of the graph the name computed for it. -/
theorem nameTable_type_eq {graph : TypeGraph} (hdistinct : (graph.types.map TypeNode.id).Nodup)
    {language : Language} {scope : TypeScope} {typeName : TypeNode → String}
    {fieldName : Field → String} {names : NameTable}
    (hbuild : NameTable.build graph language scope typeName fieldName = .ok names) {type : TypeNode}
    (htype : type ∈ graph.types) : names.type type.id = typeName type := by
  obtain ⟨-, -, rfl⟩ := (nameTable_build_eq_ok_iff _ _ _ _ _ _).mp hbuild
  rw [NameTable.type, lookup_map_of_mem TypeNode.id typeName hdistinct htype, Option.getD_some]

/-- Where no two fields have the same identity, it gives a field of the graph the name computed for
it. -/
theorem nameTable_field_eq {graph : TypeGraph}
    (hdistinct : ((graph.types.flatMap TypeNode.fields).map Field.id).Nodup) {language : Language}
    {scope : TypeScope} {typeName : TypeNode → String} {fieldName : Field → String}
    {names : NameTable}
    (hbuild : NameTable.build graph language scope typeName fieldName = .ok names) {type : TypeNode}
    (htype : type ∈ graph.types) {field : Field} (hfield : field ∈ type.fields) :
    names.field field.id = fieldName field := by
  obtain ⟨-, -, rfl⟩ := (nameTable_build_eq_ok_iff _ _ _ _ _ _).mp hbuild
  have hmem : field ∈ graph.types.flatMap TypeNode.fields :=
    List.mem_flatMap.mpr ⟨type, htype, hfield⟩
  rw [NameTable.field, ← List.map_flatMap, lookup_map_of_mem Field.id fieldName hdistinct hmem,
    Option.getD_some]

end SchemaBindings.Bindings
