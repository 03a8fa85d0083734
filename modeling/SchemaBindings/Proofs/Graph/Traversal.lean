import Mathlib.Data.List.Sort
import SchemaBindings.Proofs.Graph.Reachability

/-!
# Traversing a graph

Between the steps of a traversal some visits are open. A waiting vertex reaches those that wait
above it, and leads back to a vertex whose visit is open. What has left the stack is made of whole
components.
-/

namespace SchemaBindings.Graph

open Relation (ReflTransGen)

namespace Traversal

/-! ## Numbers and marks -/

/-- An entry of a list after one has been set. -/
theorem getD_set {α : Type} {values : List α} {v : Nat} (hv : v < values.length) (value default : α)
    (u : Nat) :
    (values.set v value).getD u default = if u = v then value else values.getD u default := by
  rw [List.getD_eq_getElem?_getD, List.getD_eq_getElem?_getD, List.getElem?_set]
  by_cases h : v = u
  · subst h
    simp [hv]
  · simp [h, Ne.symm h]

/-- Whether a vertex has been visited. -/
def Visited (traversal : Traversal) (v : Nat) : Prop :=
  traversal.number? v ≠ none

/-- The number of a visited vertex. -/
def number (traversal : Traversal) (v : Nat) : Nat :=
  (traversal.number? v).getD 0

/-- A traversal has an entry for each vertex. -/
structure Sized (size : Nat) (traversal : Traversal) : Prop where
  numbers : traversal.numbers.length = size
  lows : traversal.lows.length = size
  waiting : traversal.waiting.length = size

section Steps

variable {size : Nat} {traversal : Traversal} {v : Nat}

/-- The number of a visited vertex is found. -/
theorem number?_eq (h : traversal.Visited v) : traversal.number? v = some (traversal.number v) := by
  obtain ⟨given, hgiven⟩ := Option.ne_none_iff_exists'.mp h
  rw [number, hgiven, Option.getD_some]

/-- A visited vertex is one of the graph. -/
theorem Visited.lt (h : traversal.Visited v) (hsized : traversal.Sized size) : v < size := by
  by_contra hv
  exact h (List.getD_eq_default _ _ (hsized.numbers ▸ Nat.le_of_not_lt hv))

/-- Entering a vertex numbers it, and no other one anew. -/
theorem number?_enter (hsized : traversal.Sized size) (hv : v < size) (u : Nat) :
    (traversal.enter v).number? u = if u = v then some traversal.next else traversal.number? u :=
  getD_set (hsized.numbers.symm ▸ hv) _ _ u

/-- Entering a vertex makes its number its low link, and changes no other low link. -/
theorem low_enter (hsized : traversal.Sized size) (hv : v < size) (u : Nat) :
    (traversal.enter v).low u = if u = v then traversal.next else traversal.low u :=
  getD_set (hsized.lows.symm ▸ hv) _ _ u

/-- Entering a vertex lets it wait, and changes no other vertex. -/
theorem isWaiting_enter (hsized : traversal.Sized size) (hv : v < size) (u : Nat) :
    (traversal.enter v).isWaiting u = if u = v then true else traversal.isWaiting u :=
  getD_set (hsized.waiting.symm ▸ hv) _ _ u

/-- Lowering a vertex takes the smaller number as its low link, and changes no other low link. -/
theorem low_lower (hsized : traversal.Sized size) (hv : v < size) (number u : Nat) :
    (traversal.lower v number).low u = if u = v then min (traversal.low v) number
    else traversal.low u :=
  getD_set (hsized.lows.symm ▸ hv) _ _ u

/-- Entering a vertex keeps the sizes. -/
theorem Sized.enter (h : traversal.Sized size) (v : Nat) : (traversal.enter v).Sized size :=
  ⟨(List.length_set ..).trans h.numbers, (List.length_set ..).trans h.lows,
    (List.length_set ..).trans h.waiting⟩

/-- Lowering a vertex keeps the sizes. -/
theorem Sized.lower (h : traversal.Sized size) (v number : Nat) :
    (traversal.lower v number).Sized size :=
  ⟨h.numbers, (List.length_set ..).trans h.lows, h.waiting⟩

end Steps

/-- A stack is taken apart at the vertex. -/
theorem takeThrough_append {v : Nat} {above : List Nat} (hv : v ∉ above) (below : List Nat) :
    takeThrough v (above ++ v :: below) = (above ++ [v], below) := by
  induction above with
  | nil => simp [takeThrough]
  | cons w above ih =>
    rw [List.mem_cons, not_or] at hv
    rw [List.cons_append, takeThrough, if_neg (Ne.symm hv.1), ih hv.2, List.cons_append]

/-- Clearing the marks of vertices clears no others. -/
theorem getD_clear (members : List Nat) (waiting : List Bool) (u : Nat) :
    (members.foldl (fun waiting w => waiting.set w false) waiting).getD u false =
      (decide (u ∉ members) && waiting.getD u false) := by
  induction members generalizing waiting with
  | nil => simp
  | cons w members ih =>
    have hset : (waiting.set w false).getD u false = (decide (u ≠ w) && waiting.getD u false) := by
      rcases Nat.lt_or_ge w waiting.length with hw | hw
      · rw [getD_set hw]
        by_cases h : u = w <;> simp [h]
      · rw [List.set_eq_of_length_le hw]
        by_cases h : u = w
        · rw [h, List.getD_eq_default _ _ hw, Bool.and_false]
        · simp [h]
    rw [List.foldl_cons, ih, hset, ← Bool.and_assoc, ← Bool.decide_and]
    congr 2
    simp [List.mem_cons, not_or, and_comm]

/-- Taking vertices off the stack keeps the number of marks. -/
theorem length_clear (members : List Nat) (waiting : List Bool) :
    (members.foldl (fun waiting w => waiting.set w false) waiting).length = waiting.length := by
  induction members generalizing waiting with
  | nil => rfl
  | cons w members ih => rw [List.foldl_cons, ih, List.length_set]

/-! ## Growing -/

/-- Visited vertices keep their numbers, and vertices that are visited later get later ones. -/
structure Grows (before after : Traversal) : Prop where
  next_le : before.next ≤ after.next
  kept : ∀ u, before.Visited u → after.number? u = before.number? u
  fresh : ∀ u, ¬ before.Visited u → after.Visited u → before.next ≤ after.number u

/-- A traversal grows to itself. -/
theorem Grows.refl (traversal : Traversal) : traversal.Grows traversal :=
  ⟨Nat.le_refl _, fun _ _ => rfl, fun _ hnot hvisited => absurd hvisited hnot⟩

section Growing

variable {first second third : Traversal}

/-- What was visited stays so while a traversal grows. -/
theorem Grows.visited (h : first.Grows second) {u : Nat} (hu : first.Visited u) :
    second.Visited u := by
  rw [Visited, h.kept u hu]
  exact hu

/-- What was visited keeps its number while a traversal grows. -/
theorem Grows.number_eq (h : first.Grows second) {u : Nat} (hu : first.Visited u) :
    second.number u = first.number u := by
  rw [number, h.kept u hu, number]

/-- A traversal that grows twice has grown. -/
theorem Grows.trans (h : first.Grows second) (h' : second.Grows third) : first.Grows third where
  next_le := h.next_le.trans h'.next_le
  kept := fun u hu => (h'.kept u (h.visited hu)).trans (h.kept u hu)
  fresh := by
    intro u hnot hvisited
    by_cases hsecond : second.Visited u
    · rw [h'.number_eq hsecond]
      exact h.fresh u hnot hsecond
    · exact h.next_le.trans (h'.fresh u hsecond hvisited)

end Growing

/-- Entering a vertex that has not been visited numbers that vertex. -/
theorem grows_enter {size : Nat} {traversal : Traversal} {v : Nat} (hsized : traversal.Sized size)
    (hv : v < size) (hnew : ¬ traversal.Visited v) : traversal.Grows (traversal.enter v) where
  next_le := Nat.le_succ _
  kept := by
    intro u hu
    rw [number?_enter hsized hv, if_neg]
    rintro rfl
    exact hnew hu
  fresh := by
    intro u hnot hvisited
    rw [number, number?_enter hsized hv]
    rw [Visited, number?_enter hsized hv] at hvisited
    by_cases h : u = v
    · rw [if_pos h, Option.getD_some]
    · rw [if_neg h] at hvisited
      exact absurd hvisited hnot

/-! ## The invariant -/

/-- What holds of a traversal while the visits of some vertices are open. -/
structure Consistent (adjacency : Adjacency) (opened : List Nat) (traversal : Traversal) :
    Prop where
  sized : traversal.Sized adjacency.length
  number_lt : ∀ v, traversal.Visited v → traversal.number v < traversal.next
  visited_of_mem : ∀ v ∈ traversal.stack, traversal.Visited v
  descending : traversal.stack.Pairwise fun v w => traversal.number w < traversal.number v
  waiting_iff : ∀ v, traversal.isWaiting v = true ↔ v ∈ traversal.stack
  opened_mem : ∀ v ∈ opened, v ∈ traversal.stack
  examined : ∀ v, traversal.Visited v → v ∉ opened → ∀ w, Edge adjacency v w → traversal.Visited w
  reaches_later : ∀ v ∈ traversal.stack, ∀ w ∈ traversal.stack, traversal.number v ≤
      traversal.number w →
    ReflTransGen (Edge adjacency) v w
  leads_back : ∀ v ∈ traversal.stack, ∃ w ∈ opened, traversal.number w ≤ traversal.number v ∧
    ReflTransGen (Edge adjacency) v w
  settled : ∀ v, traversal.Visited v → v ∉ traversal.stack →
    ∃ members ∈ traversal.found, v ∈ members
  found_visited : ∀ members ∈ traversal.found, ∀ v ∈ members, traversal.Visited v ∧
    v ∉ traversal.stack
  found_class : ∀ members ∈ traversal.found, members ≠ [] ∧ members.Pairwise (· < ·) ∧
    ∀ v ∈ members, ∀ w, w ∈ members ↔ Mutual adjacency v w
  found_disjoint : traversal.found.Pairwise List.Disjoint

section Consistency

variable {adjacency : Adjacency} {opened : List Nat} {traversal : Traversal} {v : Nat}

/-- A traversal starts with nothing visited. -/
theorem consistent_start (adjacency : Adjacency) :
    (start adjacency.length).Consistent adjacency [] := by
  have hnone : ∀ v, ¬ (start adjacency.length).Visited v := by
    intro v hv
    refine hv ?_
    rw [number?, start, List.getD_eq_getElem?_getD, List.getElem?_getD_replicate_default_eq]
  have hwaiting : ∀ v, (start adjacency.length).isWaiting v = false := by
    intro v
    rw [isWaiting, start, List.getD_eq_getElem?_getD, List.getElem?_getD_replicate_default_eq]
  exact {
    sized := ⟨List.length_replicate, List.length_replicate, List.length_replicate⟩
    number_lt := fun v hv => absurd hv (hnone v)
    visited_of_mem := by simp [start]
    descending := List.Pairwise.nil
    waiting_iff := by
      intro v
      rw [hwaiting]
      simp [start]
    opened_mem := by simp
    examined := fun v hv => absurd hv (hnone v)
    reaches_later := by simp [start]
    leads_back := by simp [start]
    settled := fun v hv => absurd hv (hnone v)
    found_visited := by simp [start]
    found_class := by simp [start]
    found_disjoint := List.Pairwise.nil }

/-- Low links do not matter to the invariant. -/
theorem Consistent.lower (h : traversal.Consistent adjacency opened) (v number : Nat) :
    (traversal.lower v number).Consistent adjacency opened :=
  ⟨h.sized.lower v number, h.number_lt, h.visited_of_mem, h.descending, h.waiting_iff,
    h.opened_mem, h.examined, h.reaches_later, h.leads_back, h.settled, h.found_visited,
    h.found_class, h.found_disjoint⟩

/-- Entering a vertex that the open ones reach opens its visit. -/
theorem Consistent.enter (h : traversal.Consistent adjacency opened) (hv : v < adjacency.length)
    (hnew : ¬ traversal.Visited v) (hreached : ∀ u ∈ opened, ReflTransGen (Edge adjacency) u v) :
    (traversal.enter v).Consistent adjacency (v :: opened) := by
  have hgrows := grows_enter h.sized hv hnew
  have hnumber : (traversal.enter v).number v = traversal.next := by
    rw [number, number?_enter h.sized hv, if_pos rfl, Option.getD_some]
  have hvisited : ∀ u, (traversal.enter v).Visited u ↔ u = v ∨ traversal.Visited u := by
    intro u
    rw [Visited, number?_enter h.sized hv]
    by_cases hu : u = v <;> simp [hu, Visited]
  have hne : ∀ u ∈ traversal.stack, u ≠ v := fun u hu heq => hnew (heq ▸ h.visited_of_mem u hu)
  have hlt : ∀ u, traversal.Visited u → (traversal.enter v).number u < traversal.next := by
    intro u hu
    rw [hgrows.number_eq hu]
    exact h.number_lt u hu
  have hup : ∀ u ∈ traversal.stack, ReflTransGen (Edge adjacency) u v := by
    intro u hu
    obtain ⟨w, hw, -, hback⟩ := h.leads_back u hu
    exact hback.trans (hreached w hw)
  have hold : ∀ u ∈ traversal.stack, (traversal.enter v).number u = traversal.number u :=
    fun u hu => hgrows.number_eq (h.visited_of_mem u hu)
  exact {
    sized := h.sized.enter v
    number_lt := by
      intro u hu
      rcases (hvisited u).mp hu with rfl | hu
      · rw [hnumber]
        exact Nat.lt_succ_self _
      · exact Nat.lt_succ_of_lt (hlt u hu)
    visited_of_mem := by
      intro u hu
      rcases List.mem_cons.mp hu with rfl | hu
      · exact (hvisited u).mpr (.inl rfl)
      · exact (hvisited u).mpr (.inr (h.visited_of_mem u hu))
    descending := by
      refine List.pairwise_cons.mpr
        ⟨fun u hu => ?_, h.descending.imp_of_mem fun {u w} hu hw hlt => ?_⟩
      · rw [hnumber]
        exact hlt u (h.visited_of_mem u hu)
      · rw [hold u hu, hold w hw]
        exact hlt
    waiting_iff := by
      intro u
      rw [isWaiting_enter h.sized hv]
      by_cases hu : u = v
      · simp [hu, Traversal.enter]
      · simp [hu, Traversal.enter, h.waiting_iff]
    opened_mem := by
      intro u hu
      rcases List.mem_cons.mp hu with rfl | hu
      · exact List.mem_cons_self
      · exact List.mem_cons_of_mem _ (h.opened_mem u hu)
    examined := by
      intro u hu hclosed w hedge
      rw [List.mem_cons, not_or] at hclosed
      have hu := ((hvisited u).mp hu).resolve_left hclosed.1
      exact (hvisited w).mpr (.inr (h.examined u hu hclosed.2 w hedge))
    reaches_later := by
      intro u hu w hw hle
      rcases List.mem_cons.mp hw with rfl | hbelow
      · rcases List.mem_cons.mp hu with rfl | hwaits
        · exact .refl
        · exact hup u hwaits
      · rcases List.mem_cons.mp hu with rfl | hwaits
        · have hlater := hlt w (h.visited_of_mem w hbelow)
          omega
        · rw [hold u hwaits, hold w hbelow] at hle
          exact h.reaches_later u hwaits w hbelow hle
    leads_back := by
      intro u hu
      rcases List.mem_cons.mp hu with rfl | hu
      · exact ⟨u, List.mem_cons_self, Nat.le_refl _, .refl⟩
      · obtain ⟨w, hw, hle, hback⟩ := h.leads_back u hu
        rw [← hold u hu, ← hold w (h.opened_mem w hw)] at hle
        exact ⟨w, List.mem_cons_of_mem _ hw, hle, hback⟩
    settled := by
      intro u hu hstack
      have hstack : u ≠ v ∧ u ∉ traversal.stack := by
        rwa [← not_or, ← List.mem_cons]
      exact h.settled u (((hvisited u).mp hu).resolve_left hstack.1) hstack.2
    found_visited := by
      intro members hmembers u hu
      obtain ⟨hseen, hstack⟩ := h.found_visited members hmembers u hu
      refine ⟨(hvisited u).mpr (.inr hseen), fun hmem => ?_⟩
      rcases List.mem_cons.mp hmem with rfl | hmem
      · exact hnew hseen
      · exact hstack hmem
    found_class := h.found_class
    found_disjoint := h.found_disjoint }

end Consistency

end Traversal

end SchemaBindings.Graph
