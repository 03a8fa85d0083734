import Mathlib.Data.List.Nodup
import SchemaBindings.Graph.Resolution

/-!
# First definitions and repeated ones

The declarations that count are the first of their names: each name keeps one, none is added, and
nothing is dropped where names are distinct. Repeated definitions are reported exactly if there are
any.
-/

namespace SchemaBindings.Graph

open SchemaBindings.Schema (SchemaFile TypeDecl)

variable {α β : Type} [DecidableEq β]

/-! ## The first with each key -/

/-- Only elements of the list are kept, in their order. -/
theorem firstBy_sublist (key : α → β) (elements : List α) :
    (firstBy key elements).Sublist elements := by
  induction elements with
  | nil => exact List.Sublist.refl []
  | cons a rest ih => exact (List.filter_sublist.trans ih).cons_cons a

/-- No key is kept twice. -/
theorem firstBy_nodup (key : α → β) (elements : List α) :
    ((firstBy key elements).map key).Nodup := by
  induction elements with
  | nil => exact List.nodup_nil
  | cons a rest ih =>
    rw [firstBy, List.map_cons, List.nodup_cons]
    constructor
    · intro h
      obtain ⟨other, hother, hkey⟩ := List.mem_map.mp h
      exact of_decide_eq_true (List.mem_filter.mp hother).2 hkey
    · exact ih.sublist (List.filter_sublist.map key)

/-- Every key is kept. -/
theorem mem_map_firstBy_iff (key : α → β) (elements : List α) (k : β) :
    k ∈ (firstBy key elements).map key ↔ k ∈ elements.map key := by
  induction elements with
  | nil => rfl
  | cons a rest ih =>
    by_cases hk : k = key a
    · simp [firstBy, hk]
    · rw [List.map_cons, List.mem_cons, or_iff_right hk, ← ih, firstBy,
        List.map_cons, List.mem_cons, or_iff_right hk]
      constructor
      · intro h
        exact (List.filter_sublist.map key).subset h
      · intro h
        obtain ⟨b, hb, rfl⟩ := List.mem_map.mp h
        exact List.mem_map_of_mem (List.mem_filter.mpr ⟨hb, by simpa using hk⟩)

/-- What is kept are the elements with none of their key in front of them. -/
theorem mem_firstBy_iff (key : α → β) (elements : List α) (a : α) :
    a ∈ firstBy key elements ↔
      ∃ before behind, elements = before ++ a :: behind ∧ ∀ other ∈ before, key other ≠ key a := by
  induction elements with
  | nil => simp [firstBy]
  | cons first rest ih =>
    rw [firstBy, List.mem_cons, List.mem_filter, ih, decide_eq_true_eq]
    constructor
    · intro h
      rcases h with rfl | ⟨⟨before, behind, rfl, hbefore⟩, hkey⟩
      · exact ⟨[], rest, rfl, by simp⟩
      · exact ⟨first :: before, behind, rfl, List.forall_mem_cons.mpr ⟨Ne.symm hkey, hbefore⟩⟩
    · intro h
      obtain ⟨before, behind, heq, hbefore⟩ := h
      cases before with
      | nil => exact .inl (List.cons.inj heq).1.symm
      | cons other before =>
        obtain ⟨rfl, rfl⟩ := List.cons.inj heq
        rw [List.forall_mem_cons] at hbefore
        exact .inr ⟨⟨before, behind, rfl, hbefore.2⟩, Ne.symm hbefore.1⟩

/-- What is kept behind other elements: the first element unless they have its key, and what is kept
behind it. -/
theorem filter_firstBy_cons (key : α → β) (earlier : List α) (a : α) (rest : List α) :
    ((firstBy key (a :: rest)).filter fun other => key other ∉ earlier.map key) =
      (if key a ∈ earlier.map key then [] else [a]) ++
        (firstBy key rest).filter fun other => key other ∉ (earlier ++ [a]).map key := by
  have hrest : ((firstBy key rest).filter fun other => key other ≠ key a).filter
      (fun other => key other ∉ earlier.map key) =
      (firstBy key rest).filter fun other => key other ∉ (earlier ++ [a]).map key := by
    rw [List.filter_filter]
    refine List.filter_congr fun other _ => ?_
    rw [List.map_append, List.map_singleton, ← Bool.decide_and]
    simp only [List.mem_append, List.mem_singleton, not_or, ne_eq]
  rw [firstBy, List.filter_cons, hrest]
  by_cases hmem : key a ∈ earlier.map key
  · rw [if_pos hmem, if_neg (by simpa using hmem)]
    rfl
  · rw [if_neg hmem, if_pos (by simpa using hmem)]
    rfl

/-- Where keys are distinct, all elements are kept. -/
theorem firstBy_eq_self (key : α → β) (elements : List α) (h : (elements.map key).Nodup) :
    firstBy key elements = elements := by
  induction elements with
  | nil => rfl
  | cons a rest ih =>
    rw [List.map_cons, List.nodup_cons] at h
    rw [firstBy, ih h.2, List.filter_eq_self.mpr]
    intro b hb
    have hne : key b ≠ key a := fun heq => h.1 (heq ▸ List.mem_map_of_mem hb)
    simpa using hne

/-! ## Declarations that count -/

/-- Whether some file declares a type. -/
def Declared (files : List SchemaFile) (id : TypeId) : Prop :=
  ∃ declaration ∈ declarationsOf files, declaredId declaration = id

/-- The declarations that count have distinct identities. -/
theorem firstDeclarations_nodup (files : List SchemaFile) :
    ((firstDeclarations files).map declaredId).Nodup :=
  ((List.mergeSort_perm _ _).map declaredId).nodup_iff.mpr (firstBy_nodup declaredId _)

/-- The declarations that count are declarations of some file. -/
theorem mem_of_mem_firstDeclarations {files : List SchemaFile} {declaration : TypeDecl}
    (h : declaration ∈ firstDeclarations files) : declaration ∈ declarationsOf files :=
  (firstBy_sublist declaredId _).subset ((List.mergeSort_perm _ _).mem_iff.mp h)

/-- The identities of the declarations that count are those of all declared types. -/
theorem mem_map_firstDeclarations_iff (files : List SchemaFile) (id : TypeId) :
    id ∈ (firstDeclarations files).map declaredId ↔ Declared files id := by
  rw [firstDeclarations, ((List.mergeSort_perm _ _).map declaredId).mem_iff, mem_map_firstBy_iff]
  exact List.mem_map

/-- Where identities are distinct, all declarations count. -/
theorem firstDeclarations_perm {files : List SchemaFile}
    (h : ((declarationsOf files).map declaredId).Nodup) :
    (firstDeclarations files).Perm (declarationsOf files) := by
  rw [firstDeclarations, firstBy_eq_self declaredId _ h]
  exact List.mergeSort_perm _ _

/-! ## Repeated definitions -/

/-- Where the keys so far are distinct, no earlier element has the key of the next one exactly if
the keys stay distinct with it. -/
theorem find?_eq_none_iff_nodup (key : α → β) (earlier : List α) (a : α)
    (hearlier : (earlier.map key).Nodup) :
    (earlier.find? fun other => key other = key a) = none ↔ ((earlier ++ [a]).map key).Nodup := by
  rw [List.map_append, List.map_singleton, List.nodup_append, List.find?_eq_none]
  simp [hearlier]

omit [DecidableEq β] in
/-- Keys that are distinct up to the end of a list are distinct up to any of its elements. -/
theorem nodup_map_append_singleton {key : α → β} {earlier rest : List α} {a : α}
    (h : ((earlier ++ a :: rest).map key).Nodup) : ((earlier ++ [a]).map key).Nodup := by
  refine h.sublist (List.Sublist.map key ?_)
  exact (List.Sublist.refl earlier).append (List.singleton_sublist.mpr List.mem_cons_self)

/-- Fields behind others with distinct names are not reported as repeated exactly if all names are
distinct. -/
theorem duplicateFields_eq_nil_iff (owner : TypeId) (earlier fields : List Schema.Field)
    (hearlier : (earlier.map Schema.Field.name).Nodup) :
    duplicateFields owner earlier fields = [] ↔
      ((earlier ++ fields).map Schema.Field.name).Nodup := by
  induction fields generalizing earlier with
  | nil => simpa [duplicateFields] using hearlier
  | cons field rest ih =>
    have hiff := find?_eq_none_iff_nodup Schema.Field.name earlier field hearlier
    rw [duplicateFields]
    split
    · next first hfound =>
      simp only [List.singleton_append, List.cons_ne_nil, false_iff]
      intro hnodup
      rw [hiff.mpr (nodup_map_append_singleton hnodup)] at hfound
      contradiction
    · next hnone =>
      rw [List.nil_append, ih (earlier ++ [field]) (hiff.mp hnone), List.append_assoc,
        List.singleton_append]

/-- Declarations behind others with distinct identities are not reported as repeated exactly if all
identities are distinct and each declaration's fields have distinct names. -/
theorem duplicates_eq_nil_iff (earlier declarations : List TypeDecl)
    (hearlier : (earlier.map declaredId).Nodup) :
    duplicates earlier declarations = [] ↔
      ((earlier ++ declarations).map declaredId).Nodup ∧
        ∀ declaration ∈ declarations, (declaration.fields.map Schema.Field.name).Nodup := by
  induction declarations generalizing earlier with
  | nil => simpa [duplicates] using hearlier
  | cons declaration rest ih =>
    have hiff := find?_eq_none_iff_nodup declaredId earlier declaration hearlier
    have hfields := duplicateFields_eq_nil_iff (declaredId declaration) [] declaration.fields
      List.nodup_nil
    rw [duplicates, List.append_eq_nil_iff, List.append_eq_nil_iff, hfields, List.nil_append,
      List.forall_mem_cons]
    split
    · next first hfound =>
      simp only [List.cons_ne_nil, false_and, false_iff, not_and]
      intro hnodup
      rw [hiff.mpr (nodup_map_append_singleton hnodup)] at hfound
      contradiction
    · next hnone =>
      rw [ih (earlier ++ [declaration]) (hiff.mp hnone), List.append_assoc, List.singleton_append]
      constructor
      · intro h
        obtain ⟨⟨-, hfirst⟩, hnodup, hothers⟩ := h
        exact ⟨hnodup, hfirst, hothers⟩
      · intro h
        obtain ⟨hnodup, hfirst, hothers⟩ := h
        exact ⟨⟨rfl, hfirst⟩, hnodup, hothers⟩

/-- Whether an error is about a repeated name. -/
def GraphError.isRepetition : GraphError → Bool
  | .duplicateType .. => true
  | .duplicateField .. => true
  | _ => false

/-- Fields are reported as repeated names. -/
theorem isRepetition_of_mem_duplicateFields {owner : TypeId} {earlier fields : List Schema.Field}
    {error : GraphError} (h : error ∈ duplicateFields owner earlier fields) :
    error.isRepetition = true := by
  induction fields generalizing earlier with
  | nil => exact absurd h List.not_mem_nil
  | cons field rest ih =>
    rcases List.mem_append.mp h with h | h
    · split at h
      · obtain rfl := List.mem_singleton.mp h
        rfl
      · exact absurd h List.not_mem_nil
    · exact ih h

/-- Declarations are reported as repeated names. -/
theorem isRepetition_of_mem_duplicates {earlier declarations : List TypeDecl} {error : GraphError}
    (h : error ∈ duplicates earlier declarations) : error.isRepetition = true := by
  induction declarations generalizing earlier with
  | nil => exact absurd h List.not_mem_nil
  | cons declaration rest ih =>
    rcases List.mem_append.mp h with h | h
    · rcases List.mem_append.mp h with h | h
      · split at h
        · obtain rfl := List.mem_singleton.mp h
          rfl
        · exact absurd h List.not_mem_nil
      · exact isRepetition_of_mem_duplicateFields h
    · exact ih h

end SchemaBindings.Graph
