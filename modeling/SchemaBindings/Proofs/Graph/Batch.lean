import SchemaBindings.Proofs.Graph.Knots
import SchemaBindings.Proofs.Schema.Places

/-!
# All that is wrong with schema files, in order

What is reported about schema files is told for each declaration and each field on its own, by the
declarations in front of it and by what its reference means. First come repeated names, each with
the place where the name occurred first. Then come the fields that count: a reference that means
nothing, or else a default value, validators and a port that do not fit the type found. Last come
the knots of types that contain themselves.

The errors of building are exactly these. None depends on whether there are others, and where
declarations and fields stand at places of their own, as in files that are parsed, no two are the
same.
-/

namespace SchemaBindings.Graph

open SchemaBindings.Schema (SchemaFile Span TypeDecl TypeRef Validator)

/-! ## One element behind the other -/

/-- What is reported about the elements of a list, one behind the other, where `about` tells what is
reported about an element that has others in front of it. -/
inductive Reported {α : Type} (about : List α → α → List GraphError → Prop) :
    (earlier elements : List α) → List GraphError → Prop
  | nil (earlier : List α) : Reported about earlier [] []
  | cons {earlier rest : List α} {a : α} {errors others : List GraphError}
      (hfirst : about earlier a errors)
      (hrest : Reported about (earlier ++ [a]) rest others) : Reported about earlier
      (a :: rest) (errors ++ others)

/-- One error, unless a condition holds. -/
inductive Unless (condition : Prop) (error : GraphError) : List GraphError → Prop
  | holds (h : condition) : Unless condition error []
  | fails (h : ¬ condition) : Unless condition error [error]

/-- One error for an element whose key occurred before, which names the earliest element with that
key. -/
inductive Repeats {α κ : Type} (key : α → κ) (error : α → α → GraphError) (earlier : List α)
    (a : α) :
    List GraphError → Prop
  | new (h : ∀ other ∈ earlier, key other ≠ key a) : Repeats key error earlier a []
  | again {before behind : List α} {first : α} (hearlier : earlier = before ++ first :: behind)
      (hbefore : ∀ other ∈ before, key other ≠ key a) (hfirst : key first = key a) :
      Repeats key error earlier a [error first a]

/-! ## Repeated names -/

/-- The errors for a declaration that repeats the name of an earlier one, and for its fields that
repeat the name of an earlier field. -/
inductive ReportsRepeated (earlier : List TypeDecl) (declaration : TypeDecl) :
    List GraphError → Prop
  | intro {own fields : List GraphError}
      (hown : Repeats declaredId
        (fun first again => .duplicateType (declaredId again) first.span again.span) earlier
        declaration own)
      (hfields : Reported (Repeats Schema.Field.name fun first again =>
        .duplicateField ⟨declaredId declaration, again.name⟩ first.span again.span) []
        declaration.fields fields) :
      ReportsRepeated earlier declaration (own ++ fields)

/-! ## Fields -/

/-- Whether a reference means nothing, for a name in it that means nothing. -/
inductive MeansNothing (declared : TypeId → Prop) (namespacePath : String) :
    TypeRef → TypeRef → Prop
  | named {qualifier : List String} {name : String}
      (h : ∀ type, ¬ Means declared namespacePath (.named qualifier name) type) :
      MeansNothing declared namespacePath (.named qualifier name) (.named qualifier name)
  | list {element name : TypeRef} (h : MeansNothing declared namespacePath element name) :
      MeansNothing declared namespacePath (.list element) name

/-- The integer that is the default of a field with a port in it. -/
def portDefault? (field : Schema.Field) : Option Int :=
  match field.default? with
  | some (.integer value) => if .port ∈ field.validators then some value else none
  | _ => none

/-- The errors for a field of a type: one for a reference that means nothing; where it means a type,
one for a default that does not fit, one for each validator that does not fit and one for the
default of a port that is none. -/
inductive ReportsField (files : List SchemaFile) (owner : TypeId) (field : Schema.Field) :
    List GraphError → Prop
  | unknown {name : TypeRef}
      (h : MeansNothing (Declared files) owner.namespacePath field.type name) :
      ReportsField files owner field [.unresolved ⟨owner, field.name⟩ name field.span]
  | known {type : FieldType} {defaults validators ports : List GraphError}
      (hmeans : Means (Declared files) owner.namespacePath field.type type)
      (hdefaults : Reported (fun _ value => Unless (Fits type value)
        (.unfitDefault ⟨owner, field.name⟩ type value field.span)) []
        field.default?.toList defaults)
      (hvalidators : Reported (fun _ validator => Unless (Checks validator type)
        (.unfitValidator ⟨owner, field.name⟩ validator type field.span)) []
        field.validators validators)
      (hports : Reported (fun _ value => Unless (0 ≤ value ∧ value ≤ 65535)
        (.portOutOfRange ⟨owner, field.name⟩ type value field.span)) []
        (portDefault? field).toList ports) :
      ReportsField files owner field (defaults ++ validators ++ ports)

/-- The errors for a field that has others in front of it. Only the first field of a name counts. -/
inductive ReportsFirst (files : List SchemaFile) (owner : TypeId) (earlier : List Schema.Field)
    (field : Schema.Field) :
    List GraphError → Prop
  | again (h : field.name ∈ earlier.map Schema.Field.name) : ReportsFirst files
      owner earlier field []
  | first {errors : List GraphError} (h : field.name ∉ earlier.map Schema.Field.name)
      (hfield : ReportsField files owner field errors) : ReportsFirst files
      owner earlier field errors

/-- Whether declarations are the first ones of their names, in the order of types. -/
structure Counted (files : List SchemaFile) (declarations : List TypeDecl) : Prop where
  mem_iff : ∀ declaration, declaration ∈ declarations ↔ ∃ before behind,
    declarationsOf files = before ++ declaration :: behind ∧
      ∀ other ∈ before, declaredId other ≠ declaredId declaration
  ordered : declarations.Pairwise fun a b => (declaredId a).upTo (declaredId b) = true ∧
    declaredId a ≠ declaredId b

/-! ## All reports -/

/-- What is reported about schema files: repeated names in the order of files, the fields that count
in the order of types, and the knots in the order of their first types. -/
structure Batch (files : List SchemaFile) (repeated faulty knotted : List GraphError) : Prop where
  repeated : Reported ReportsRepeated [] (declarationsOf files) repeated
  faulty : ∃ declarations, Counted files declarations ∧
    Reported (fun _ declaration => Reported (ReportsFirst files (declaredId declaration))
      [] declaration.fields) [] declarations faulty
  knotted : ∃ knots : List (Set TypeId), (∀ knot, knot ∈ knots ↔ Knot files knot) ∧
    knots.Pairwise Precedes ∧
    List.Forall₂ (ReportsKnot files) knots knotted

/-- Whether all declarations and fields stand at places of their own, and no field is given a
validator twice. -/
structure Placed (files : List SchemaFile) : Prop where
  places : ((declarationsOf files).flatMap TypeDecl.places).Nodup
  validators : ∀ declaration ∈ declarationsOf files, ∀ field ∈ declaration.fields,
    field.validators.Nodup

/-- Whether schema files are parsed from sources of different paths. -/
structure Parsed (files : List SchemaFile) : Prop where
  sources : ∀ file ∈ files, ∃ source, Schema.parse file.path source = .ok file
  paths : (files.map SchemaFile.path).Nodup

/-! ## Reports by recursion -/

/-- A function that goes through a list gives what is reported about its elements, if it gives for
each what is reported about that one. -/
theorem reported_iff {α : Type} {about : List α → α → List GraphError → Prop}
    (report : List α → α → List GraphError) (reports : List α → List α → List GraphError)
    (habout : ∀ earlier a errors, about earlier a errors ↔ errors = report earlier a)
    (hnil : ∀ earlier, reports earlier [] = [])
    (hcons : ∀ earlier a rest, reports earlier (a :: rest) = report earlier a ++
      reports (earlier ++ [a]) rest)
    (earlier elements : List α) (errors : List GraphError) :
    Reported about earlier elements errors ↔ errors = reports earlier elements := by
  constructor
  · intro h
    induction h with
    | nil earlier => exact (hnil earlier).symm
    | cons hfirst _ ih => rw [hcons, ih, (habout _ _ _).mp hfirst]
  · rintro rfl
    induction elements generalizing earlier with
    | nil =>
      rw [hnil]
      exact .nil earlier
    | cons a rest ih =>
      rw [hcons]
      exact .cons ((habout _ _ _).mpr rfl) (ih (earlier ++ [a]))

/-- A function that tells what is reported about each element, whatever is in front of it, tells
what is reported about all. -/
theorem reported_flatMap_iff {α : Type} {about : α → List GraphError → Prop}
    {report : α → List GraphError} (habout : ∀ a errors, about a errors ↔ errors = report a)
    (earlier elements : List α) (errors : List GraphError) :
    Reported (fun _ => about) earlier elements errors ↔ errors = elements.flatMap report :=
  reported_iff _ (fun _ elements => elements.flatMap report) (fun _ => habout) (fun _ => rfl)
    (fun _ _ _ => List.flatMap_cons) earlier elements errors

/-- A check that decides a condition tells whether its error is reported. -/
theorem unless_iff {condition : Prop} {check : Bool} (hcheck : check = true ↔ condition)
    (error : GraphError) (errors : List GraphError) :
    Unless condition error errors ↔ errors = if check then [] else [error] := by
  constructor
  · intro h
    cases h with
    | holds h => rw [if_pos (hcheck.mpr h)]
    | fails h => rw [if_neg fun hholds => h (hcheck.mp hholds)]
  · rintro rfl
    split
    · next h => exact .holds (hcheck.mp h)
    · next h => exact .fails fun hholds => h (hcheck.mpr hholds)

/-- Looking for the first earlier element with the same key tells whether a repeated one is
reported. -/
theorem repeats_iff {α κ : Type} [DecidableEq κ] (key : α → κ) (error : α → α → GraphError)
    (earlier : List α) (a : α) (errors : List GraphError) :
    Repeats key error earlier a errors ↔
      errors = ((earlier.find? fun other => key other = key a).map
        fun first => error first a).toList := by
  constructor
  · intro h
    cases h with
    | new h =>
      rw [List.find?_eq_none.mpr (by simpa using h)]
      rfl
    | @again before behind first hearlier hbefore hfirst =>
      have hfound : (earlier.find? fun other => key other = key a) = some first := by
        rw [hearlier, List.find?_append, List.find?_eq_none.mpr (by simpa using hbefore)]
        simp [hfirst]
      rw [hfound]
      rfl
  · rintro rfl
    cases hfound : earlier.find? fun other => key other = key a with
    | some first =>
      obtain ⟨hfirst, before, behind, hearlier, hbefore⟩ := List.find?_eq_some_iff_append.mp hfound
      exact .again hearlier (by simpa using hbefore) (by simpa using hfirst)
    | none => exact .new (by simpa using List.find?_eq_none.mp hfound)

/-! ## What building reports -/

/-- Repeated names are reported as they are looked for. -/
theorem reportsRepeated_iff (earlier declarations : List TypeDecl) (errors : List GraphError) :
    Reported ReportsRepeated earlier declarations errors ↔
    errors = duplicates earlier declarations := by
  refine reported_iff (fun earlier declaration =>
    ((earlier.find? fun other => declaredId other = declaredId declaration).map fun first =>
      .duplicateType (declaredId declaration) first.span declaration.span).toList ++
        duplicateFields (declaredId declaration) [] declaration.fields) duplicates
    (fun earlier declaration errors => ?_) (fun _ => rfl) (fun earlier declaration rest => ?_)
    earlier declarations errors
  · have hfields : ∀ fields, Reported (Repeats Schema.Field.name fun first again =>
        .duplicateField ⟨declaredId declaration, again.name⟩ first.span again.span) []
        declaration.fields fields ↔
          fields = duplicateFields (declaredId declaration) [] declaration.fields := by
      refine reported_iff _ (duplicateFields (declaredId declaration))
        (repeats_iff _ _) (fun _ => rfl) (fun earlier field rest => ?_) [] declaration.fields
      rw [duplicateFields]
      cases earlier.find? fun other => other.name = field.name <;> rfl
    constructor
    · intro h
      obtain ⟨hown, hrest⟩ := h
      rw [(repeats_iff _ _ _ _ _).mp hown, (hfields _).mp hrest]
    · rintro rfl
      exact .intro ((repeats_iff _ _ _ _ _).mpr rfl) ((hfields _).mpr rfl)
  · rw [duplicates]
    cases earlier.find? fun other => declaredId other = declaredId declaration <;> rfl

/-- Looking up a reference fails exactly if it means nothing, with the name in it that means
nothing. -/
theorem resolve_eq_error_iff (known : List TypeId) (namespacePath : String)
    (reference name : TypeRef) :
    resolve known namespacePath reference = .error name ↔
      MeansNothing (· ∈ known) namespacePath reference name := by
  constructor
  · intro h
    induction reference with
    | list element ih =>
      rw [resolve] at h
      cases helement : resolve known namespacePath element with
      | ok type => simp [helement] at h
      | error other =>
        rw [helement] at h
        obtain rfl := Except.error.inj h
        exact .list (ih helement)
    | named qualifier word =>
      have hnothing : ∀ type, ¬ Means (· ∈ known) namespacePath (.named qualifier word) type := by
        intro type hmeans
        rw [hmeans.resolve_eq] at h
        contradiction
      have hname : TypeRef.named qualifier word = name := by
        rw [resolve] at h
        split at h
        · contradiction
        · split at h
          · contradiction
          · exact Except.error.inj h
      exact hname ▸ .named hnothing
  · intro h
    induction h with
    | @named qualifier word hnothing =>
      cases hresolve : resolve known namespacePath (.named qualifier word) with
      | ok type => exact absurd ((resolve_eq_ok_iff ..).mp hresolve) (hnothing type)
      | error other =>
        rw [resolve] at hresolve
        split at hresolve
        · contradiction
        · split at hresolve
          · contradiction
          · exact congrArg _ (Except.error.inj hresolve).symm
    | list _ ih => rw [resolve, ih]

/-- Reporting each element that fails a check is looking for those that do. -/
theorem flatMap_unless {α : Type} (check : α → Bool) (error : α → GraphError) (elements : List α) :
    (elements.flatMap fun a => if check a then [] else [error a]) =
      (elements.filter fun a => !check a).map error := by
  induction elements with
  | nil => rfl
  | cons a rest ih => cases hcheck : check a <;> simp [hcheck, ih]

section Field

variable {owner : TypeId} {field : Schema.Field} {type : FieldType} {errors : List GraphError}

/-- A default is reported as it is checked. -/
theorem reportsDefault_iff :
    Reported (fun _ value => Unless (Fits type value)
      (.unfitDefault ⟨owner, field.name⟩ type value field.span)) []
      field.default?.toList errors ↔ errors = defaultErrors ⟨owner, field.name⟩ type field := by
  rw [reported_flatMap_iff fun value => unless_iff (defaultFits_iff type value) _, defaultErrors]
  cases field.default? with
  | none => rfl
  | some value => simp

/-- Validators are reported as they are checked. -/
theorem reportsValidators_iff :
    Reported (fun _ validator => Unless (Checks validator type)
      (.unfitValidator ⟨owner, field.name⟩ validator type field.span)) [] field.validators errors ↔
        errors = validatorErrors ⟨owner, field.name⟩ type field := by
  rw [reported_flatMap_iff fun validator => unless_iff (validatorFits_iff validator type) _,
    flatMap_unless]
  rfl

/-- A port is reported as it is checked. -/
theorem reportsPort_iff :
    Reported (fun _ value => Unless (0 ≤ value ∧ value ≤ 65535)
      (.portOutOfRange ⟨owner, field.name⟩ type value field.span)) [] (portDefault?
      field).toList errors ↔
        errors = portErrors ⟨owner, field.name⟩ type field := by
  have hport : ∀ value, isPort value = true ↔ 0 ≤ value ∧ value ≤ 65535 := by simp [isPort]
  rw [reported_flatMap_iff fun value => unless_iff (hport value) _, portErrors, portDefault?]
  cases field.default? with
  | none => rfl
  | some literal =>
    cases literal with
    | integer value =>
      by_cases hmem : .port ∈ field.validators
      · cases hvalue : isPort value <;> simp [hmem, hvalue]
      · simp [hmem]
    | float _ => rfl
    | text _ => rfl
    | boolean _ => rfl

end Field

/-- Fields are reported as they are checked. -/
theorem reportsField_iff (files : List SchemaFile) (owner : TypeId) (field : Schema.Field)
    (errors : List GraphError) :
    ReportsField files owner field errors ↔ errors = fieldErrors (knownIds files) owner field := by
  constructor
  · intro h
    cases h with
    | unknown h =>
      rw [← mem_knownIds_eq, ← resolve_eq_error_iff] at h
      rw [fieldErrors_of_error h]
    | known hmeans hdefaults hvalidators hports =>
      rw [← mem_knownIds_eq, ← resolve_eq_ok_iff] at hmeans
      rw [fieldErrors_of_ok hmeans, reportsDefault_iff.mp hdefaults,
        reportsValidators_iff.mp hvalidators, reportsPort_iff.mp hports]
  · rintro rfl
    cases hresolve : resolve (knownIds files) owner.namespacePath field.type with
    | error name =>
      rw [fieldErrors_of_error hresolve]
      rw [resolve_eq_error_iff, mem_knownIds_eq] at hresolve
      exact .unknown hresolve
    | ok type =>
      rw [fieldErrors_of_ok hresolve]
      rw [resolve_eq_ok_iff, mem_knownIds_eq] at hresolve
      exact .known hresolve (reportsDefault_iff.mpr rfl) (reportsValidators_iff.mpr rfl)
        (reportsPort_iff.mpr rfl)

/-- The fields of a type are reported as the first ones of their names are checked. -/
theorem reportsFirst_iff (files : List SchemaFile) (owner : TypeId) (fields : List Schema.Field)
    (errors : List GraphError) :
    Reported (ReportsFirst files owner) [] fields errors ↔
      errors = (firstBy Schema.Field.name fields).flatMap (fieldErrors (knownIds files) owner) := by
  have hreported := reported_iff
    (fun earlier field => if field.name ∈ earlier.map Schema.Field.name then []
      else fieldErrors (knownIds files) owner field)
    (fun earlier fields => ((firstBy Schema.Field.name fields).filter fun field =>
      field.name ∉ earlier.map Schema.Field.name).flatMap (fieldErrors (knownIds files) owner))
    (fun earlier field (errors : List GraphError) =>
      (?_ : ReportsFirst files owner earlier field errors ↔ _))
    (fun _ => rfl) (fun earlier field rest => ?_) [] fields errors
  · rw [hreported]
    simp
  · constructor
    · intro h
      cases h with
      | again h => rw [if_pos h]
      | first h hfield => rw [if_neg h, (reportsField_iff files owner field errors).mp hfield]
    · rintro rfl
      split
      · next h => exact .again h
      · next h => exact .first h ((reportsField_iff files owner field _).mpr rfl)
  · rw [filter_firstBy_cons, List.flatMap_append]
    split
    · rfl
    · rw [List.flatMap_singleton]

/-- The declarations that count are the first ones of their names, in the order of types. -/
theorem counted_iff (files : List SchemaFile) (declarations : List TypeDecl) :
    Counted files declarations ↔ declarations = firstDeclarations files := by
  have hcounted : Counted files (firstDeclarations files) := by
    refine ⟨fun declaration => ?_, ?_⟩
    · rw [firstDeclarations, (List.mergeSort_perm _ _).mem_iff, mem_firstBy_iff]
    · have hsorted := List.pairwise_map.mp (firstDeclarations_sorted files)
      exact hsorted.and (List.pairwise_map.mp (firstDeclarations_nodup files))
  constructor
  · intro h
    have hanti : Std.Antisymm fun a b : TypeDecl =>
        (declaredId a).upTo (declaredId b) = true ∧ declaredId a ≠ declaredId b :=
      ⟨fun a b hab hba => absurd (TypeId.upTo_antisymm _ _ hab.1 hba.1) hab.2⟩
    have hirrefl : Std.Irrefl fun a b : TypeDecl =>
        (declaredId a).upTo (declaredId b) = true ∧ declaredId a ≠ declaredId b :=
      ⟨fun a haa => haa.2 rfl⟩
    exact h.ordered.eq_of_mem_iff hcounted.ordered
      fun declaration => by rw [h.mem_iff, hcounted.mem_iff]
  · rintro rfl
    exact hcounted

/-- The declarations that count are reported by their fields. -/
theorem reportsCounted_iff (files : List SchemaFile) (errors : List GraphError) :
    (∃ declarations, Counted files declarations ∧
      Reported (fun _ declaration => Reported (ReportsFirst files (declaredId declaration))
        [] declaration.fields) [] declarations errors) ↔
      errors = (firstDeclarations files).flatMap (declarationErrors (knownIds files)) := by
  simp only [counted_iff, exists_eq_left]
  exact reported_flatMap_iff
    (fun declaration => reportsFirst_iff files (declaredId declaration) declaration.fields) [] _ _

/-! ## No error twice -/

/-- The field that a reference, a default value, a validator or a port is reported for. -/
def GraphError.field? : GraphError → Option FieldId
  | .unresolved field _ _ => some field
  | .unfitDefault field _ _ _ => some field
  | .unfitValidator field _ _ _ => some field
  | .portOutOfRange field _ _ _ => some field
  | _ => none

/-- All that is reported for a field is reported for that very field. -/
theorem field?_of_mem_fieldErrors {known : List TypeId} {owner : TypeId} {field : Schema.Field}
    {error : GraphError} (h : error ∈ fieldErrors known owner field) :
    error.field? = some ⟨owner, field.name⟩ := by
  obtain ⟨missing, -, rfl⟩ | ⟨type, -, ⟨value, rfl⟩ | ⟨validator, rfl⟩ | ⟨value, rfl⟩⟩ :=
    cases_of_mem_fieldErrors h <;> rfl

/-- Repeated fields are reported at their own places, one behind the other. -/
theorem spans_duplicateFields_sublist (owner : TypeId) (earlier fields : List Schema.Field) :
    ((duplicateFields owner earlier fields).map GraphError.span).Sublist
      (fields.map Schema.Field.span) := by
  induction fields generalizing earlier with
  | nil => exact .slnil
  | cons field rest ih =>
    rw [duplicateFields, List.map_append, List.map_cons]
    split
    · exact (ih _).cons_cons field.span
    · exact (ih _).cons field.span

/-- Repeated names are reported at their own places, one behind the other. -/
theorem spans_duplicates_sublist (earlier declarations : List TypeDecl) :
    ((duplicates earlier declarations).map GraphError.span).Sublist
      (declarations.flatMap TypeDecl.places) := by
  induction declarations generalizing earlier with
  | nil => exact .slnil
  | cons declaration rest ih =>
    have hfields := spans_duplicateFields_sublist (declaredId declaration) [] declaration.fields
    rw [duplicates, List.map_append, List.map_append, List.flatMap_cons]
    refine List.Sublist.append ?_ (ih _)
    split
    · exact hfields.cons_cons declaration.span
    · exact hfields.cons declaration.span

/-- Where validators are distinct, nothing is reported twice for a field. -/
theorem fieldErrors_nodup (known : List TypeId) (owner : TypeId) {field : Schema.Field}
    (h : field.validators.Nodup) :
    (fieldErrors known owner field).Nodup := by
  cases hresolve : resolve known owner.namespacePath field.type with
  | error reference =>
    rw [fieldErrors_of_error hresolve]
    exact List.nodup_singleton _
  | ok type =>
    have hdefault : (defaultErrors ⟨owner, field.name⟩ type field).Nodup := by
      unfold defaultErrors
      repeat' split
      all_goals simp
    have hport : (portErrors ⟨owner, field.name⟩ type field).Nodup := by
      unfold portErrors
      repeat' split
      all_goals simp
    have hvalidators : (validatorErrors ⟨owner, field.name⟩ type field).Nodup :=
      (h.filter _).map fun a b hab => (GraphError.unfitValidator.inj hab).2.1
    rw [fieldErrors_of_ok hresolve]
    refine List.nodup_append.mpr ⟨List.nodup_append.mpr ⟨hdefault, hvalidators, ?_⟩, hport, ?_⟩
    · intro error herror other hother
      obtain ⟨value, rfl⟩ := exists_of_mem_defaultErrors herror
      obtain ⟨validator, rfl⟩ := exists_of_mem_validatorErrors hother
      exact GraphError.noConfusion
    · intro error herror other hother
      obtain ⟨value, rfl⟩ := exists_of_mem_portErrors hother
      rcases List.mem_append.mp herror with herror | herror
      · obtain ⟨value, rfl⟩ := exists_of_mem_defaultErrors herror
        exact GraphError.noConfusion
      · obtain ⟨validator, rfl⟩ := exists_of_mem_validatorErrors herror
        exact GraphError.noConfusion

/-- Where validators are distinct, nothing is reported twice for the fields that count. -/
theorem declarationErrors_nodup {files : List SchemaFile}
    (h : ∀ declaration ∈ declarationsOf files,
      ∀ field ∈ declaration.fields, field.validators.Nodup) :
    ((firstDeclarations files).flatMap (declarationErrors (knownIds files))).Nodup := by
  refine List.nodup_flatMap.mpr
    ⟨fun declaration hdeclaration => List.nodup_flatMap.mpr ⟨fun field hfield => ?_, ?_⟩, ?_⟩
  · have hsource := (firstBy_sublist Schema.Field.name declaration.fields).subset hfield
    exact fieldErrors_nodup _ _
      (h declaration (mem_of_mem_firstDeclarations hdeclaration) field hsource)
  · have hfirst := List.pairwise_map.mp (firstBy_nodup Schema.Field.name declaration.fields)
    refine hfirst.imp fun hnames error herror hother => ?_
    have hsame := (field?_of_mem_fieldErrors herror).symm.trans (field?_of_mem_fieldErrors hother)
    exact hnames (FieldId.mk.inj (Option.some.inj hsame)).2
  · refine (List.pairwise_map.mp (firstDeclarations_nodup files)).imp
      fun hids error herror hother => ?_
    obtain ⟨field, -, herror⟩ := List.mem_flatMap.mp herror
    obtain ⟨other, -, hother⟩ := List.mem_flatMap.mp hother
    have hsame := (field?_of_mem_fieldErrors herror).symm.trans (field?_of_mem_fieldErrors hother)
    exact hids (FieldId.mk.inj (Option.some.inj hsame)).1

/-- The error for a knot is about its first type. -/
theorem ReportsKnot.exists_least {files : List SchemaFile} {knot : Set TypeId} {error : GraphError}
    (h : ReportsKnot files knot error) :
    ∃ least cycle span, error = .containsItself least cycle span ∧ least ∈ knot ∧
      ∀ b ∈ knot, least.upTo b = true := by
  obtain ⟨least, way, span, hmem, hleast, -⟩ := h
  exact ⟨least, _, span, rfl, hmem, hleast⟩

/-- Errors that report knots, one behind the other, are different. -/
theorem nodup_of_reportsKnot {files : List SchemaFile} {knots : List (Set TypeId)}
    {errors : List GraphError} (hreports : List.Forall₂ (ReportsKnot files) knots errors)
    (hknots : knots.Pairwise Precedes) : errors.Nodup := by
  induction hreports with
  | nil => exact List.nodup_nil
  | @cons knot error knots errors hreport hrest ih =>
    obtain ⟨hfirst, hothers⟩ := List.pairwise_cons.mp hknots
    refine List.nodup_cons.mpr ⟨fun hmem => ?_, ih hothers⟩
    obtain ⟨other, hother, hagain⟩ := exists_of_forall₂ hrest hmem
    obtain ⟨before, hbefore, hprecedes⟩ := hfirst other hother
    obtain ⟨least, cycle, span, rfl, -, hleast⟩ := hreport.exists_least
    obtain ⟨same, _, _, hsame, hmem, -⟩ := hagain.exists_least
    obtain ⟨rfl, -, -⟩ := GraphError.containsItself.inj hsame
    obtain ⟨hupTo, hne⟩ := hprecedes least hmem
    exact hne (TypeId.upTo_antisymm _ _ hupTo (hleast before hbefore))

/-- Where places and the validators of each field are distinct, no error is reported twice. -/
theorem buildErrors_nodup {files : List SchemaFile} (hplaced : Placed files) :
    (buildErrors files).Nodup := by
  obtain ⟨knots, -, hsorted, hreports⟩ := containmentErrors_report files
  have hrepeated : (duplicates [] (declarationsOf files)).Nodup :=
    List.Nodup.of_map _ (hplaced.places.sublist (spans_duplicates_sublist [] _))
  have hfaulty := declarationErrors_nodup hplaced.validators
  rw [buildErrors_eq]
  refine List.nodup_append.mpr
    ⟨List.nodup_append.mpr ⟨hrepeated, hfaulty, ?_⟩, nodup_of_reportsKnot hreports hsorted, ?_⟩
  · rintro error herror _ hother rfl
    obtain ⟨declaration, -, hother⟩ := List.mem_flatMap.mp hother
    obtain ⟨field, -, hother⟩ := List.mem_flatMap.mp hother
    have hrepetition := isRepetition_of_mem_duplicates herror
    have hfield := field?_of_mem_fieldErrors hother
    cases error <;> contradiction
  · rintro error herror _ hother rfl
    obtain ⟨knot, -, hreport⟩ := exists_of_forall₂ hreports hother
    obtain ⟨least, cycle, span, rfl, -⟩ := hreport.exists_least
    rcases List.mem_append.mp herror with herror | herror
    · have hcontainment := isContainment_of_mem_duplicates herror
      contradiction
    · obtain ⟨declaration, -, herror⟩ := List.mem_flatMap.mp herror
      obtain ⟨field, -, herror⟩ := List.mem_flatMap.mp herror
      have hcontainment := isContainment_of_mem_fieldErrors herror
      contradiction

/-- The declarations and fields of parsed files stand at places of their own, and no field has a
validator twice. Places of different files lie in different files. -/
theorem Parsed.placed {files : List SchemaFile} (h : Parsed files) : Placed files := by
  constructor
  · have hflat : (declarationsOf files).flatMap TypeDecl.places =
        files.flatMap fun file => file.declarations.flatMap TypeDecl.places :=
      List.flatMap_assoc
    rw [hflat]
    refine List.nodup_flatMap.mpr ⟨fun file hfile => ?_, ?_⟩
    · obtain ⟨source, hparse⟩ := h.sources file hfile
      exact (Schema.places_of_parse hparse).1
    · refine (List.pairwise_map.mp h.paths).imp_of_mem
        fun {file other} hfile hother hpaths place hplace hagain => ?_
      obtain ⟨source, hparse⟩ := h.sources file hfile
      obtain ⟨source', hparse'⟩ := h.sources other hother
      have hin := (Schema.places_of_parse hparse).2.1 place hplace
      have hin' := (Schema.places_of_parse hparse').2.1 place hagain
      exact hpaths (hin.symm.trans hin')
  · intro declaration hdeclaration
    obtain ⟨file, hfile, hdeclaration⟩ := List.mem_flatMap.mp hdeclaration
    obtain ⟨source, hparse⟩ := h.sources file hfile
    exact (Schema.places_of_parse hparse).2.2 declaration hdeclaration

/-! ## All errors -/

/-- For all schema files, building reports what is wrong with them in order: repeated names, the
fields that count, and the knots of types that contain themselves. What is wrong with names and
fields leaves no choice of errors. Where places and the validators of each field are distinct, as in
parsed files of different paths, no error is reported twice. -/
theorem buildErrors_batch (files : List SchemaFile) :
    ∃ repeated faulty knotted, buildErrors files = repeated ++ faulty ++ knotted ∧
      Batch files repeated faulty knotted ∧
      (∀ others others' others'', Batch files others others' others'' → others = repeated ∧
        others' = faulty) ∧
      (Placed files → (buildErrors files).Nodup) ∧ (Parsed files → (buildErrors files).Nodup) := by
  have hbatch : Batch files _ _ _ :=
    ⟨(reportsRepeated_iff _ _ _).mpr rfl, (reportsCounted_iff files _).mpr rfl,
      containmentErrors_report files⟩
  refine ⟨_, _, _, buildErrors_eq files, hbatch,
    fun others others' others'' hbatch => ?_, buildErrors_nodup,
    fun hparsed => buildErrors_nodup hparsed.placed⟩
  exact ⟨(reportsRepeated_iff _ _ _).mp hbatch.repeated,
    (reportsCounted_iff files _).mp hbatch.faulty⟩

/-- A type declared twice that holds itself, with a repeated field, a reference that means nothing
and a port out of range that is also no URL. -/
def crowdedSchemas : List SchemaFile :=
  [⟨"a.schema", "", [
      ⟨"A", "", [⟨"port", .named [] "int", false, some (.integer 70000), [.url, .port], none,
        ⟨"a.schema", ⟨2, 3⟩⟩⟩, ⟨"lost", .list (.named [] "Lost"), false, some (.boolean true),
        [.port], none, ⟨"a.schema", ⟨3, 3⟩⟩⟩, ⟨"port", .named [] "Lost", false, none, [], none,
        ⟨"a.schema", ⟨4, 3⟩⟩⟩, ⟨"me", .named [] "A", false, none, [], none, ⟨"a.schema", ⟨5, 3⟩⟩⟩],
        none, ⟨"a.schema", ⟨1, 1⟩⟩⟩,
      ⟨"A", "", [⟨"port", .named [] "Lost", false, none, [], none, ⟨"a.schema", ⟨8, 3⟩⟩⟩], none,
        ⟨"a.schema", ⟨7, 1⟩⟩⟩]⟩]

/-- The declarations of these schemas stand at distinct places, and their errors are distinct. -/
theorem crowdedSchemas_nodup : Placed crowdedSchemas ∧ (buildErrors crowdedSchemas).Nodup := by
  have hplaced : Placed crowdedSchemas := ⟨by decide, by decide⟩
  obtain ⟨repeated, faulty, knotted, -, -, -, hnodup, -⟩ := buildErrors_batch crowdedSchemas
  exact ⟨hplaced, hnodup hplaced⟩

example : (buildErrors crowdedSchemas).map GraphError.span =
    [⟨"a.schema", ⟨4, 3⟩⟩, ⟨"a.schema", ⟨7, 1⟩⟩, ⟨"a.schema", ⟨2, 3⟩⟩, ⟨"a.schema", ⟨2, 3⟩⟩,
      ⟨"a.schema", ⟨3, 3⟩⟩, ⟨"a.schema", ⟨5, 3⟩⟩] := by
  cbv

end SchemaBindings.Graph
