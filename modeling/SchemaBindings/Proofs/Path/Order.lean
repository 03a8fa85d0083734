import Mathlib
import SchemaBindings.Path.Basic

/-!
# The order of paths

The components of a path, each as its rank and its text, make up a key. Paths come one after the
other as their keys do in the linear order of lists, and paths with the same key have the same
components. So paths in order are strictly increasing, and what they are in the end depends only on
which components there are.
-/

namespace SchemaBindings.Path

/-! ## Keys -/

/-- The text of a component that is a name. -/
def Component.text : Component → String
  | .name text => text
  | _ => ""

/-- What the order of components goes by. -/
def Component.key (component : Component) : ℕ ×ₗ String :=
  toLex (component.rank, component.text)

/-- What the order of paths goes by. -/
def key (path : Path) : List (ℕ ×ₗ String) :=
  path.components.map Component.key

/-- A component comes before another one exactly if its key does. -/
theorem Component.before_iff (a b : Component) : a.before b = true ↔ a.key < b.key := by
  rw [key, key, Prod.Lex.toLex_lt_toLex]
  cases a <;> cases b <;> simp [before, rank, text]

/-- Different components have different keys. -/
theorem Component.key_injective : Function.Injective Component.key := by
  intro a b h
  obtain ⟨hrank, htext⟩ := Prod.ext_iff.mp (toLex.injective h)
  cases a <;> cases b <;> simp_all [rank, text]

/-- Components come before others, one by one, exactly if their keys do. -/
theorem lex_before_iff (as bs : List Component) :
    as.lex bs Component.before = true ↔ as.map Component.key < bs.map Component.key := by
  induction as generalizing bs with
  | nil => cases bs <;> simp
  | cons a as ih =>
    cases bs with
    | nil => simp
    | cons b bs =>
      rw [List.lex, Bool.or_eq_true, Bool.and_eq_true, beq_iff_eq, ih, Component.before_iff,
        List.map_cons, List.map_cons, List.cons_lt_cons_iff, Component.key_injective.eq_iff]

/-- A path comes before another one exactly if its key does. -/
theorem before_iff (a b : Path) : a.before b = true ↔ a.key < b.key :=
  lex_before_iff _ _

/-- Paths with the same key have the same components. -/
theorem key_eq_iff (a b : Path) : a.key = b.key ↔ a.components = b.components :=
  Component.key_injective.list_map.eq_iff

/-! ## Paths in order -/

/-- Whether every path comes before those behind it. -/
def Increasing (paths : List Path) : Prop :=
  paths.Pairwise fun a b => a.before b = true

instance (paths : List Path) : Decidable (Increasing paths) :=
  inferInstanceAs (Decidable (paths.Pairwise fun a b => a.before b = true))

/-- Keeps a path, unless one with its components is kept. -/
def keep (kept : List Path) (path : Path) : List Path :=
  if kept.any fun other => other.components = path.components then kept else kept ++ [path]

/-- Paths are put in order by keeping the first of those that are alike and sorting them. -/
theorem inOrder_eq (paths : List Path) :
    inOrder paths = (paths.foldl keep []).mergeSort fun a b => !b.before a := rfl

/-- Only the given paths are kept, one for the components of each of them, and no two with the same
components. -/
theorem foldl_keep (paths : List Path) :
    (∀ path ∈ paths.foldl keep [], path ∈ paths) ∧
      (∀ path ∈ paths, ∃ other ∈ paths.foldl keep [], other.components = path.components) ∧
        (paths.foldl keep []).Pairwise fun a b => a.components ≠ b.components := by
  induction paths using List.reverseRecOn with
  | nil => simp
  | append_singleton paths last ih =>
    obtain ⟨hgiven, hkept, hapart⟩ := ih
    rw [List.foldl_append, List.foldl_cons, List.foldl_nil]
    generalize paths.foldl keep [] = kept at *
    rw [keep]
    split
    · next hthere =>
      obtain ⟨other, hother, hsame⟩ := List.any_eq_true.mp hthere
      refine ⟨fun path hpath => List.mem_append_left _ (hgiven path hpath),
        fun path hpath => ?_, hapart⟩
      rcases List.mem_append.mp hpath with hpath | hlast
      · exact hkept path hpath
      · exact ⟨other, hother, List.mem_singleton.mp hlast ▸ of_decide_eq_true hsame⟩
    · next hnew =>
      have hother : ∀ other ∈ kept, other.components ≠ last.components := fun other hother hsame =>
        hnew (List.any_eq_true.mpr ⟨other, hother, decide_eq_true hsame⟩)
      refine ⟨fun path hpath => ?_, fun path hpath => ?_, ?_⟩
      · rcases List.mem_append.mp hpath with hpath | hlast
        · exact List.mem_append_left _ (hgiven path hpath)
        · exact List.mem_append_right _ hlast
      · rcases List.mem_append.mp hpath with hpath | hlast
        · obtain ⟨other, hother, hsame⟩ := hkept path hpath
          exact ⟨other, List.mem_append_left _ hother, hsame⟩
        · exact ⟨path, List.mem_append_right _ hlast, rfl⟩
      · refine List.pairwise_append.mpr ⟨hapart, List.pairwise_singleton _ _,
          fun other hmem path hlast => ?_⟩
        exact List.mem_singleton.mp hlast ▸ hother other hmem

/-- What is put in order is given. -/
theorem mem_of_mem_inOrder {paths : List Path} {path : Path} (h : path ∈ inOrder paths) :
    path ∈ paths := by
  rw [inOrder_eq, List.mem_mergeSort] at h
  exact (foldl_keep paths).1 path h

/-- For what is given, a path with the same components is among what is put in order. -/
theorem exists_mem_inOrder {paths : List Path} {path : Path} (h : path ∈ paths) :
    ∃ other ∈ inOrder paths, other.components = path.components := by
  simp only [inOrder_eq, List.mem_mergeSort]
  exact (foldl_keep paths).2.1 path h

/-- Paths in order are strictly increasing. -/
theorem increasing_inOrder (paths : List Path) : Increasing (inOrder paths) := by
  have hnotBefore : ∀ a b : Path, (!b.before a) = true ↔ a.key ≤ b.key := fun a b => by
    rw [Bool.not_eq_true', ← Bool.not_eq_true, before_iff, not_lt]
  have hapart : (inOrder paths).Pairwise fun a b => a.components ≠ b.components :=
    (List.mergeSort_perm _ _).symm.pairwise (foldl_keep paths).2.2 Ne.symm
  have hsorted : (inOrder paths).Pairwise fun a b => (!b.before a) = true :=
    List.pairwise_mergeSort (fun a b c hab hbc => by rw [hnotBefore] at *; exact hab.trans hbc)
      (fun a b => by rw [Bool.or_eq_true, hnotBefore, hnotBefore]; exact le_total _ _) _
  refine hsorted.imp₂ (fun a b hle hne => ?_) hapart
  rw [before_iff]
  exact ((hnotBefore a b).mp hle).lt_of_ne fun hsame => hne ((key_eq_iff a b).mp hsame)

/-- Strictly increasing paths with the same components are the same, one by one. -/
theorem map_components_eq_of_increasing {paths others : List Path} (hpaths : Increasing paths)
    (hothers : Increasing others)
    (hforth : ∀ path ∈ paths, ∃ other ∈ others, other.components = path.components)
    (hback : ∀ other ∈ others, ∃ path ∈ paths, path.components = other.components) :
    paths.map components = others.map components := by
  have hkeys : ∀ {paths : List Path}, Increasing paths →
      (paths.map key).Pairwise (· < ·) := fun h =>
    List.pairwise_map.mpr (h.imp fun {a b} hbefore => (before_iff a b).mp hbefore)
  have hsame : paths.map key = others.map key := by
    refine (hkeys hpaths).eq_of_mem_iff (hkeys hothers) fun k => ?_
    simp only [List.mem_map]
    constructor
    · rintro ⟨path, hpath, rfl⟩
      obtain ⟨other, hother, heq⟩ := hforth path hpath
      exact ⟨other, hother, (key_eq_iff other path).mpr heq⟩
    · rintro ⟨other, hother, rfl⟩
      obtain ⟨path, hpath, heq⟩ := hback other hother
      exact ⟨path, hpath, (key_eq_iff path other).mpr heq⟩
  refine Component.key_injective.list_map.list_map ?_
  rw [List.map_map, List.map_map]
  exact hsame

end SchemaBindings.Path
