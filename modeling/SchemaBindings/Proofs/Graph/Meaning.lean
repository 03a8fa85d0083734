import Mathlib.Data.List.Basic
import SchemaBindings.Graph.Resolution

/-!
# What references mean and which values fit

The rules for references, default values and validators, each as a relation of its own, and that the
functions which look references up and check fields decide them. A field has no error exactly when
its reference means a type for which all else about the field is right.
-/

namespace SchemaBindings.Graph

open SchemaBindings.Schema (Literal Primitive TypeRef Validator dotted)

/-! ## References -/

/-- What a reference in a namespace means, given which types are declared. A name without qualifier
is a built-in type, else a type of the namespace, else a root type; a qualified one is exactly the
type of the namespace that it names; a list means the list of what its element means. -/
inductive Means (declared : TypeId → Prop) (namespacePath : String) : TypeRef → FieldType → Prop
  | primitive (kind : Primitive) : Means declared namespacePath (.named [] kind.word)
      (.primitive kind)
  | own (name : String) (hword : ∀ kind : Primitive, kind.word ≠ name)
      (hown : declared ⟨namespacePath, name⟩) :
      Means declared namespacePath (.named [] name) (.named ⟨namespacePath, name⟩)
  | root (name : String) (hword : ∀ kind : Primitive, kind.word ≠ name)
      (hown : ¬ declared ⟨namespacePath, name⟩) (hroot : declared ⟨"", name⟩) :
      Means declared namespacePath (.named [] name) (.named ⟨"", name⟩)
  | qualified (first : String) (others : List String) (name : String)
      (hdeclared : declared ⟨dotted (first :: others), name⟩) :
      Means declared namespacePath (.named (first :: others) name)
        (.named ⟨dotted (first :: others), name⟩)
  | list (element : TypeRef) (type : FieldType)
      (helement : Means declared namespacePath element type) :
      Means declared namespacePath (.list element) (.list type)

/-- A word is looked up as the built-in type that it is the word of. -/
theorem ofWord?_eq_some_iff (word : String) (kind : Primitive) :
    Primitive.ofWord? word = some kind ↔ kind.word = word := by
  constructor
  · intro h
    simpa using List.find?_some h
  · intro h
    subst h
    cases kind <;> rfl

/-- A word is not found among the built-in types exactly when it is the word of none. -/
theorem ofWord?_eq_none_iff (word : String) :
    Primitive.ofWord? word = none ↔ ∀ kind : Primitive, kind.word ≠ word := by
  constructor
  · intro h kind hkind
    rw [(ofWord?_eq_some_iff word kind).mpr hkind] at h
    exact Option.some_ne_none kind h
  · intro h
    cases hfound : Primitive.ofWord? word with
    | none => rfl
    | some kind => exact absurd ((ofWord?_eq_some_iff word kind).mp hfound) (h kind)

/-- Looking up the word of a built-in type finds that type. -/
theorem resolve_word (known : List TypeId) (namespacePath : String) (kind : Primitive) :
    resolve known namespacePath (.named [] kind.word) = .ok (.primitive kind) := by
  simp [resolve, (ofWord?_eq_some_iff kind.word kind).mpr rfl]

/-- Looking up another unqualified name tries its own namespace and then the root. -/
theorem resolve_unqualified (known : List TypeId) (namespacePath name : String)
    (hword : ∀ kind : Primitive, kind.word ≠ name) :
    resolve known namespacePath (.named [] name) =
      if ⟨namespacePath, name⟩ ∈ known then .ok (.named ⟨namespacePath, name⟩)
      else if ⟨"", name⟩ ∈ known then .ok (.named ⟨"", name⟩)
      else .error (.named [] name) := by
  have hnone := (ofWord?_eq_none_iff name).mpr hword
  by_cases hown : (⟨namespacePath, name⟩ : TypeId) ∈ known
  · simp [resolve, hnone, candidates, hown]
  · by_cases hroot : (⟨"", name⟩ : TypeId) ∈ known
    · simp [resolve, hnone, candidates, hown, hroot]
    · simp [resolve, hnone, candidates, hown, hroot]

/-- Looking up a qualified name tries exactly the type of the namespace that it names. -/
theorem resolve_qualified (known : List TypeId) (namespacePath first : String)
    (others : List String) (name : String) :
    resolve known namespacePath (.named (first :: others) name) =
      if ⟨dotted (first :: others), name⟩ ∈ known then .ok (.named ⟨dotted (first :: others), name⟩)
      else .error (.named (first :: others) name) := by
  by_cases hdeclared : (⟨dotted (first :: others), name⟩ : TypeId) ∈ known
  · simp [resolve, candidates, hdeclared]
  · simp [resolve, candidates, hdeclared]

/-- Looking up a reference finds what it means. -/
theorem Means.resolve_eq {known : List TypeId} {namespacePath : String} {reference : TypeRef}
    {type : FieldType} (h : Means (· ∈ known) namespacePath reference type) :
    resolve known namespacePath reference = .ok type := by
  induction h with
  | primitive kind => exact resolve_word known namespacePath kind
  | own name hword hown => rw [resolve_unqualified known namespacePath name hword, if_pos hown]
  | root name hword hown hroot =>
    rw [resolve_unqualified known namespacePath name hword, if_neg hown, if_pos hroot]
  | qualified first others name hdeclared =>
    rw [resolve_qualified known namespacePath first others name, if_pos hdeclared]
  | list element type _ ih => rw [resolve, ih]

/-- What looking up a reference finds is what it means. -/
theorem means_of_resolve_eq (known : List TypeId) (namespacePath : String) (reference : TypeRef)
    (type : FieldType) (h : resolve known namespacePath reference = .ok type) :
    Means (· ∈ known) namespacePath reference type := by
  induction reference generalizing type with
  | list element ih =>
    rw [resolve] at h
    cases helement : resolve known namespacePath element with
    | error reference => simp [helement] at h
    | ok found =>
      rw [helement] at h
      obtain rfl := Except.ok.inj h
      exact .list element found (ih found helement)
  | named qualifier name =>
    cases qualifier with
    | cons first others =>
      rw [resolve_qualified] at h
      split at h
      · next hdeclared =>
        obtain rfl := Except.ok.inj h
        exact .qualified first others name hdeclared
      · contradiction
    | nil =>
      cases hword : Primitive.ofWord? name with
      | some kind =>
        obtain rfl := (ofWord?_eq_some_iff name kind).mp hword
        rw [resolve_word] at h
        obtain rfl := Except.ok.inj h
        exact .primitive kind
      | none =>
        have hnone := (ofWord?_eq_none_iff name).mp hword
        rw [resolve_unqualified known namespacePath name hnone] at h
        split at h
        · next hown =>
          obtain rfl := Except.ok.inj h
          exact .own name hnone hown
        · next hown =>
          split at h
          · next hroot =>
            obtain rfl := Except.ok.inj h
            exact .root name hnone hown hroot
          · contradiction

/-- Looking up a reference succeeds exactly with what it means. -/
theorem resolve_eq_ok_iff (known : List TypeId) (namespacePath : String) (reference : TypeRef)
    (type : FieldType) :
    resolve known namespacePath reference = .ok type ↔
      Means (· ∈ known) namespacePath reference type :=
  ⟨means_of_resolve_eq known namespacePath reference type, Means.resolve_eq⟩

/-! ## Fields -/

/-- Which default values fit a type: an integer also stands for a float, and `any` takes every
value. -/
inductive Fits : FieldType → Literal → Prop
  | any (value : Literal) : Fits (.primitive .any) value
  | int (value : Int) : Fits (.primitive .int) (.integer value)
  | wholeFloat (value : Int) : Fits (.primitive .float) (.integer value)
  | float (value : Number.Binary64) : Fits (.primitive .float) (.float value)
  | bool (value : Bool) : Fits (.primitive .bool) (.boolean value)
  | string (content : String) : Fits (.primitive .string) (.text content)

/-- Which validators can check values of a type. -/
inductive Checks : Validator → FieldType → Prop
  | int : Checks .number (.primitive .int)
  | float : Checks .number (.primitive .float)
  | port : Checks .port (.primitive .int)
  | string : Checks .string (.primitive .string)
  | url : Checks .url (.primitive .string)

/-- The check of defaults decides which values fit. -/
theorem defaultFits_iff (type : FieldType) (value : Literal) :
    defaultFits type value = true ↔ Fits type value := by
  constructor
  · fun_cases defaultFits type value with
    | case1 => exact fun _ => .any value
    | case2 value => exact fun _ => .int value
    | case3 value => exact fun _ => .wholeFloat value
    | case4 value => exact fun _ => .float value
    | case5 value => exact fun _ => .bool value
    | case6 content => exact fun _ => .string content
    | case7 => exact fun h => absurd h Bool.false_ne_true
  · intro h
    cases h <;> rfl

/-- The check of validators decides which can check a type. -/
theorem validatorFits_iff (validator : Validator) (type : FieldType) :
    validatorFits validator type = true ↔ Checks validator type := by
  constructor
  · fun_cases validatorFits validator type with
    | case1 => exact fun _ => .int
    | case2 => exact fun _ => .float
    | case3 => exact fun _ => .port
    | case4 => exact fun _ => .string
    | case5 => exact fun _ => .url
    | case6 => exact fun h => absurd h Bool.false_ne_true
  · intro h
    cases h <;> rfl

/-- What is right about a field of a namespace whose reference means a type. -/
structure Sound (declared : TypeId → Prop) (namespacePath : String) (field : Schema.Field)
    (type : FieldType) : Prop where
  means : Means declared namespacePath field.type type
  default_fits : ∀ value, field.default? = some value → Fits type value
  validators_fit : ∀ validator ∈ field.validators, Checks validator type
  port_in_range : .port ∈ field.validators → ∀ value, field.default? = some (.integer value) →
    0 ≤ value ∧ value ≤ 65535

/-- A default is not reported exactly if it fits. -/
theorem defaultErrors_eq_nil_iff (id : FieldId) (type : FieldType) (field : Schema.Field) :
    defaultErrors id type field = [] ↔ ∀ value, field.default? = some value → Fits type value := by
  unfold defaultErrors
  cases field.default? with
  | none => simp
  | some value => simp [← defaultFits_iff]

/-- Validators are not reported exactly if all of them fit. -/
theorem validatorErrors_eq_nil_iff (id : FieldId) (type : FieldType) (field : Schema.Field) :
    validatorErrors id type field = [] ↔ ∀ validator ∈ field.validators, Checks validator type := by
  simp [validatorErrors, ← validatorFits_iff]

/-- A port's default is not reported exactly if it is in the range of ports. -/
theorem portErrors_eq_nil_iff (id : FieldId) (type : FieldType) (field : Schema.Field) :
    portErrors id type field = [] ↔
      (.port ∈ field.validators → ∀ value, field.default? = some (.integer value) →
        0 ≤ value ∧ value ≤ 65535) := by
  unfold portErrors
  split
  · next value hvalue => simp [hvalue, isPort]
  · next hother => exact ⟨fun _ _ value hvalue => (hother value hvalue).elim, fun _ => rfl⟩

/-- Checking a default reports nothing but a default. -/
theorem exists_of_mem_defaultErrors {id : FieldId} {type : FieldType} {field : Schema.Field}
    {error : GraphError} (h : error ∈ defaultErrors id type field) :
    ∃ value, error = .unfitDefault id type value field.span := by
  unfold defaultErrors at h
  split at h
  · next value _ =>
    split at h
    · exact absurd h List.not_mem_nil
    · exact ⟨value, List.mem_singleton.mp h⟩
  · exact absurd h List.not_mem_nil

/-- Checking validators reports nothing but validators. -/
theorem exists_of_mem_validatorErrors {id : FieldId} {type : FieldType} {field : Schema.Field}
    {error : GraphError} (h : error ∈ validatorErrors id type field) :
    ∃ validator, error = .unfitValidator id validator type field.span := by
  obtain ⟨validator, -, rfl⟩ := List.mem_map.mp h
  exact ⟨validator, rfl⟩

/-- Checking a port reports nothing but ports. -/
theorem exists_of_mem_portErrors {id : FieldId} {type : FieldType} {field : Schema.Field}
    {error : GraphError} (h : error ∈ portErrors id type field) :
    ∃ value, error = .portOutOfRange id type value field.span := by
  unfold portErrors at h
  split at h
  · next value _ =>
    split at h
    · exact ⟨value, List.mem_singleton.mp h⟩
    · exact absurd h List.not_mem_nil
  · exact absurd h List.not_mem_nil

/-- Only the reference of a field is reported if it means nothing. -/
theorem fieldErrors_of_error {known : List TypeId} {owner : TypeId} {field : Schema.Field}
    {name : TypeRef} (h : resolve known owner.namespacePath field.type = .error name) :
    fieldErrors known owner field = [.unresolved ⟨owner, field.name⟩ name field.span] := by
  simp only [fieldErrors, resolveField, h]

/-- The default, the validators and the port of a field are reported if its reference means a
type. -/
theorem fieldErrors_of_ok {known : List TypeId} {owner : TypeId} {field : Schema.Field}
    {type : FieldType} (h : resolve known owner.namespacePath field.type = .ok type) :
    fieldErrors known owner field = defaultErrors ⟨owner, field.name⟩ type field ++
      validatorErrors ⟨owner, field.name⟩ type field ++
        portErrors ⟨owner, field.name⟩ type field := by
  simp only [fieldErrors, resolveField, h]

/-- For a field it is reported that its reference means nothing, or that its default value, a
validator or its port does not fit the type that it means. -/
theorem cases_of_mem_fieldErrors {known : List TypeId} {owner : TypeId} {field : Schema.Field}
    {error : GraphError} (h : error ∈ fieldErrors known owner field) :
    (∃ missing, resolve known owner.namespacePath field.type = .error missing ∧
      error = .unresolved ⟨owner, field.name⟩ missing field.span) ∨
    ∃ type, resolve known owner.namespacePath field.type = .ok type ∧
      ((∃ value, error = .unfitDefault ⟨owner, field.name⟩ type value field.span) ∨
        (∃ validator, error = .unfitValidator ⟨owner, field.name⟩ validator type field.span) ∨
        ∃ value, error = .portOutOfRange ⟨owner, field.name⟩ type value field.span) := by
  cases hresolve : resolve known owner.namespacePath field.type with
  | error missing =>
    rw [fieldErrors_of_error hresolve] at h
    exact .inl ⟨missing, rfl, List.mem_singleton.mp h⟩
  | ok type =>
    rw [fieldErrors_of_ok hresolve, List.mem_append, List.mem_append] at h
    refine .inr ⟨type, rfl, ?_⟩
    rcases h with (hdefault | hvalidator) | hport
    · exact .inl (exists_of_mem_defaultErrors hdefault)
    · exact .inr (.inl (exists_of_mem_validatorErrors hvalidator))
    · exact .inr (.inr (exists_of_mem_portErrors hport))

/-- A field is not reported exactly if its reference means a type for which all is right. -/
theorem fieldErrors_eq_nil_iff (known : List TypeId) (owner : TypeId) (field : Schema.Field) :
    fieldErrors known owner field = [] ↔
      ∃ type, Sound (· ∈ known) owner.namespacePath field type := by
  unfold fieldErrors resolveField
  cases hresolve : resolve known owner.namespacePath field.type with
  | error reference =>
    simp only [List.cons_ne_nil, false_iff, not_exists]
    intro type hsound
    rw [hsound.means.resolve_eq] at hresolve
    contradiction
  | ok type =>
    simp only [List.append_eq_nil_iff, defaultErrors_eq_nil_iff, validatorErrors_eq_nil_iff,
      portErrors_eq_nil_iff]
    constructor
    · intro h
      obtain ⟨⟨hdefault, hvalidators⟩, hport⟩ := h
      exact ⟨type, (resolve_eq_ok_iff ..).mp hresolve, hdefault, hvalidators, hport⟩
    · intro h
      obtain ⟨other, hsound⟩ := h
      rw [hsound.means.resolve_eq] at hresolve
      obtain rfl := Except.ok.inj hresolve
      exact ⟨⟨hsound.default_fits, hsound.validators_fit⟩, hsound.port_in_range⟩

end SchemaBindings.Graph
