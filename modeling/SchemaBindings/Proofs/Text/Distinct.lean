import Mathlib.Data.List.Nodup
import SchemaBindings.Text.Distinct

/-!
# What dropping repeats keeps

Dropping repeats keeps every element, once.
-/

namespace SchemaBindings.Text

variable {α : Type} [DecidableEq α]

/-- Every element is kept and none is added. -/
theorem mem_distinct_iff (elements : List α) (a : α) : a ∈ distinct elements ↔ a ∈ elements := by
  induction elements with
  | nil => rfl
  | cons b rest ih =>
    rw [distinct, List.mem_cons, List.mem_filter, ih, List.mem_cons]
    by_cases h : a = b <;> simp [h]

/-- No element is kept twice. -/
theorem distinct_nodup (elements : List α) : (distinct elements).Nodup := by
  induction elements with
  | nil => exact List.nodup_nil
  | cons b rest ih =>
    rw [distinct, List.nodup_cons]
    refine ⟨fun h => ?_, ih.filter _⟩
    exact of_decide_eq_true (List.mem_filter.mp h).2 rfl

/-- A set of names holds the names, and no other. -/
theorem mem_nameSet_iff (names : List String) (name : String) :
    name ∈ nameSet names ↔ name ∈ names := by
  rw [nameSet, sortNames, List.mem_mergeSort, mem_distinct_iff]

/-- A set of names holds no name twice. -/
theorem nameSet_nodup (names : List String) : (nameSet names).Nodup := by
  rw [nameSet, sortNames, (List.mergeSort_perm _ _).nodup_iff]
  exact distinct_nodup names

end SchemaBindings.Text
