import Mathlib.Data.Finset.Card
import SchemaBindings.Proofs.Graph.Traversal

/-!
# Visiting vertices

While a vertex is visited, its low link bounds the numbers of what the part of the stack above it
has edges to further down. So where the low link is the vertex's own number, no edge leads from that
part further down, and the part is a component. Otherwise the vertex leads back to one further down
whose visit is open. Either way the traversal is left as it was found. There are never more visits
inside each other than vertices, since each starts at an unvisited one.
-/

namespace SchemaBindings.Graph

open Relation (ReflTransGen)

namespace Traversal

/-! ## Open visits -/

/-- What holds of a traversal while a vertex is visited whose successors `done` have been looked
at. -/
structure Visiting (adjacency : Adjacency) (opened : List Nat) (before : Traversal) (v : Nat)
    (done : List Nat) (traversal : Traversal) : Prop where
  consistent : traversal.Consistent adjacency (v :: opened)
  grows : before.Grows traversal
  lows_kept : ∀ u, before.Visited u → traversal.low u = before.low u
  new : ¬ before.Visited v
  visited : traversal.Visited v
  done_visited : ∀ w ∈ done, traversal.Visited w
  low_le : traversal.low v ≤ traversal.number v
  low_seen : ∃ w ∈ traversal.stack, traversal.number w = traversal.low v ∧
    ReflTransGen (Edge adjacency) v w
  above : ∃ above, traversal.stack = above ++ v :: before.stack ∧ ∀ u ∈ above, ∀ w ∈ before.stack,
    Edge adjacency u w → traversal.low v ≤ traversal.number w
  low_le_done : ∀ w ∈ done, w ∈ before.stack → traversal.low v ≤ traversal.number w

/-- What a visit has done. -/
structure Visit (adjacency : Adjacency) (before : Traversal) (v : Nat) (after : Traversal) :
    Prop where
  grows : before.Grows after
  lows_kept : ∀ u, before.Visited u → after.low u = before.low u
  visited : after.Visited v
  low_seen : after.low v = after.number v ∨
    ∃ w ∈ after.stack, after.number w = after.low v ∧ ReflTransGen (Edge adjacency) v w
  above : ∃ above, after.stack = above ++ before.stack ∧ ∀ u ∈ above, ∀ w ∈ before.stack,
    Edge adjacency u w → after.low v ≤ after.number w

section Visits

variable {adjacency : Adjacency} {opened done : List Nat} {before traversal after : Traversal}
  {v w : Nat}

/-- A visit starts by entering the vertex. -/
theorem Consistent.visiting_enter (h : before.Consistent adjacency opened)
    (hv : v < adjacency.length) (hnew : ¬ before.Visited v)
    (hreached : ∀ u ∈ opened, ReflTransGen (Edge adjacency) u v) :
    Visiting adjacency opened before v [] (before.enter v) := by
  have hlow : (before.enter v).low v = before.next := by rw [low_enter h.sized hv, if_pos rfl]
  have hnumber : (before.enter v).number v = before.next := by
    rw [number, number?_enter h.sized hv, if_pos rfl, Option.getD_some]
  exact {
    consistent := h.enter hv hnew hreached
    grows := grows_enter h.sized hv hnew
    lows_kept := by
      intro u hu
      rw [low_enter h.sized hv, if_neg]
      rintro rfl
      exact hnew hu
    new := hnew
    visited := by
      rw [Visited, number?_enter h.sized hv, if_pos rfl]
      exact Option.some_ne_none _
    done_visited := by simp
    low_le := by rw [hlow, hnumber]
    low_seen := ⟨v, List.mem_cons_self, by rw [hlow, hnumber], .refl⟩
    above := ⟨[], rfl, by simp⟩
    low_le_done := by simp }

/-- The open vertex is on the stack, above what was there before the visit. -/
theorem Visiting.mem_stack (h : Visiting adjacency opened before v done traversal) :
    v ∈ traversal.stack ∧ ∀ u ∈ before.stack, u ∈ traversal.stack := by
  obtain ⟨above, hstack, -⟩ := h.above
  rw [hstack]
  exact ⟨by simp, fun u hu => by simp [hu]⟩

/-- Lowering the low link of the open vertex to the number of a waiting vertex that it reaches keeps
its visit right. -/
theorem Visiting.lower (h : Visiting adjacency opened before v done traversal) {number : Nat}
    (hseen : number < traversal.number v →
      ∃ w ∈ traversal.stack, traversal.number w = number ∧ ReflTransGen (Edge adjacency) v w) :
    Visiting adjacency opened before v done (traversal.lower v number) := by
  have hv : v < adjacency.length := h.visited.lt h.consistent.sized
  have hlow : (traversal.lower v number).low v = min (traversal.low v) number := by
    rw [low_lower h.consistent.sized hv, if_pos rfl]
  have hle : (traversal.lower v number).low v ≤ traversal.low v := hlow ▸ Nat.min_le_left _ _
  obtain ⟨above, hstack, hedges⟩ := h.above
  exact {
    consistent := h.consistent.lower v number
    grows := ⟨h.grows.next_le, h.grows.kept, h.grows.fresh⟩
    lows_kept := by
      intro u hu
      rw [low_lower h.consistent.sized hv, if_neg, h.lows_kept u hu]
      rintro rfl
      exact h.new hu
    new := h.new
    visited := h.visited
    done_visited := h.done_visited
    low_le := hle.trans h.low_le
    low_seen := by
      rw [hlow]
      rcases Nat.le_total (traversal.low v) number with hless | hless
      · rw [Nat.min_eq_left hless]
        exact h.low_seen
      · rw [Nat.min_eq_right hless]
        rcases Nat.lt_or_ge number (traversal.number v) with hlt | hge
        · exact hseen hlt
        · have heq : number = traversal.low v := Nat.le_antisymm hless (h.low_le.trans hge)
          rw [heq]
          exact h.low_seen
    above := ⟨above, hstack, fun u hu w hw hedge => hle.trans (hedges u hu w hw hedge)⟩
    low_le_done := fun w hw hbelow => hle.trans (h.low_le_done w hw hbelow) }

/-- One more successor has been looked at, if it is visited and the low link is no more than its
number where it waits below. -/
theorem Visiting.done_append (h : Visiting adjacency opened before v done traversal)
    (hw : traversal.Visited w) (hlow : w ∈ before.stack → traversal.low v ≤ traversal.number w) :
    Visiting adjacency opened before v (done ++ [w]) traversal := by
  refine { h with done_visited := ?_, low_le_done := ?_ }
  · intro u hu
    rcases List.mem_append.mp hu with hu | hu
    · exact h.done_visited u hu
    · exact List.mem_singleton.mp hu ▸ hw
  · intro u hu hbelow
    rcases List.mem_append.mp hu with hu | hu
    · exact h.low_le_done u hu hbelow
    · obtain rfl := List.mem_singleton.mp hu
      exact hlow hbelow

/-- Looking at a successor that has been visited keeps the visit right. -/
theorem Visiting.look_visited (h : Visiting adjacency opened before v done traversal)
    (hedge : Edge adjacency v w) (hw : traversal.Visited w) :
    Visiting adjacency opened before v (done ++ [w])
      (if traversal.isWaiting w then traversal.lower v (traversal.number w) else traversal) := by
  have hv : v < adjacency.length := h.visited.lt h.consistent.sized
  by_cases hwaits : traversal.isWaiting w = true
  · rw [if_pos hwaits]
    have hmem := (h.consistent.waiting_iff w).mp hwaits
    refine (h.lower fun _ => ⟨w, hmem, rfl, .single hedge⟩).done_append hw fun _ => ?_
    rw [low_lower h.consistent.sized hv, if_pos rfl]
    exact Nat.min_le_right _ _
  · rw [if_neg hwaits]
    refine h.done_append hw fun hbelow => ?_
    exact absurd ((h.consistent.waiting_iff w).mpr (h.mem_stack.2 w hbelow)) hwaits

/-- Looking at a successor that is visited first keeps the visit right. What the inner visit left on
the stack may have edges further down; the low link is lowered by its own for these. -/
theorem Visiting.look_new (h : Visiting adjacency opened before v done traversal)
    (hedge : Edge adjacency v w) (hw : ¬ traversal.Visited w)
    (hafter : after.Consistent adjacency (v :: opened))
    (hvisit : Visit adjacency traversal w after) :
    Visiting adjacency opened before v (done ++ [w]) (after.lower v (after.low w)) := by
  obtain ⟨above, hstack, hedges⟩ := h.above
  obtain ⟨new, hnew, hnewEdges⟩ := hvisit.above
  have hv : v < adjacency.length := h.visited.lt h.consistent.sized
  have hvlow : after.low v = traversal.low v := hvisit.lows_kept v h.visited
  have hbelow : ∀ u ∈ before.stack, after.number u = traversal.number u := fun u hu =>
    hvisit.grows.number_eq (h.consistent.visited_of_mem u (h.mem_stack.2 u hu))
  have hlater : after.number v < after.number w := by
    rw [hvisit.grows.number_eq h.visited]
    exact (h.consistent.number_lt v h.visited).trans_le (hvisit.grows.fresh w hw hvisit.visited)
  have hlow : (after.lower v (after.low w)).low v = min (traversal.low v) (after.low w) := by
    rw [low_lower hafter.sized hv, if_pos rfl, hvlow]
  have hlowered : Visiting adjacency opened before v [] (after.lower v (after.low w)) := {
    consistent := hafter.lower v _
    grows := h.grows.trans ⟨hvisit.grows.next_le, hvisit.grows.kept, hvisit.grows.fresh⟩
    lows_kept := by
      intro u hu
      rw [low_lower hafter.sized hv, if_neg, hvisit.lows_kept u (h.grows.visited hu),
        h.lows_kept u hu]
      rintro rfl
      exact h.new hu
    new := h.new
    visited := hvisit.grows.visited h.visited
    done_visited := by simp
    low_le := by
      rw [hlow]
      refine (Nat.min_le_left _ _).trans (h.low_le.trans (Nat.le_of_eq ?_))
      exact (hvisit.grows.number_eq h.visited).symm
    low_seen := by
      rw [hlow]
      rcases Nat.le_total (traversal.low v) (after.low w) with hless | hless
      · rw [Nat.min_eq_left hless]
        obtain ⟨u, hu, hnumber, hreach⟩ := h.low_seen
        refine ⟨u, ?_, ?_, hreach⟩
        · exact hnew ▸ List.mem_append_right _ hu
        · rw [← hnumber]
          exact hvisit.grows.number_eq (h.consistent.visited_of_mem u hu)
      · rw [Nat.min_eq_right hless]
        rcases hvisit.low_seen with hroot | ⟨u, hu, hnumber, hreach⟩
        · have hle := h.low_le
          rw [← hvisit.grows.number_eq h.visited] at hle
          omega
        · exact ⟨u, hu, hnumber, .head hedge hreach⟩
    above := by
      refine ⟨new ++ above, ?_, fun u hu w' hw' hout => ?_⟩
      · exact hnew.trans (by rw [hstack, List.append_assoc])
      · rw [hlow]
        rcases List.mem_append.mp hu with hu | hu
        · exact (Nat.min_le_right _ _).trans (hnewEdges u hu w' (h.mem_stack.2 w' hw') hout)
        · have hle := hedges u hu w' hw' hout
          rw [← hbelow w' hw'] at hle
          exact (Nat.min_le_left _ _).trans hle
    low_le_done := by simp }
  have hdone : ∀ u ∈ done, after.Visited u := fun u hu => hvisit.grows.visited (h.done_visited u hu)
  refine { hlowered with done_visited := ?_, low_le_done := ?_ }
  · intro u hu
    rcases List.mem_append.mp hu with hu | hu
    · exact hdone u hu
    · exact List.mem_singleton.mp hu ▸ hvisit.visited
  · intro u hu hwaits
    rcases List.mem_append.mp hu with hu | hu
    · have hle := h.low_le_done u hu hwaits
      rw [← hbelow u hwaits] at hle
      rw [hlow]
      exact (Nat.min_le_left _ _).trans hle
    · obtain rfl := List.mem_singleton.mp hu
      exact absurd (h.consistent.visited_of_mem u (h.mem_stack.2 u hwaits)) hw

/-- Looking at the successors of a vertex one by one keeps its visit right, if inner visits do what
visits do. -/
theorem Visiting.exists_foldlM_look_eq (visit : Traversal → Nat → Option Traversal)
    (h : Visiting adjacency opened before v done traversal)
    (hvisit : ∀ done traversal w, Visiting adjacency opened before v done traversal →
      Edge adjacency v w → ¬ traversal.Visited w →
      ∃ after, visit traversal w = some after ∧ after.Consistent adjacency (v :: opened) ∧
        Visit adjacency traversal w after)
    (todo : List Nat) (htodo : ∀ w ∈ todo, Edge adjacency v w) :
    ∃ last, todo.foldlM (look visit v) traversal = some last ∧
      Visiting adjacency opened before v (done ++ todo) last := by
  induction todo generalizing done traversal with
  | nil => exact ⟨traversal, rfl, by rwa [List.append_nil]⟩
  | cons w todo ih =>
    have hedge := htodo w List.mem_cons_self
    obtain ⟨next, hnext, hvisiting⟩ : ∃ next, look visit v traversal w = some next ∧
        Visiting adjacency opened before v (done ++ [w]) next := by
      by_cases hw : traversal.Visited w
      · exact ⟨_, by rw [look, number?_eq hw], h.look_visited hedge hw⟩
      · obtain ⟨after, hafter, hconsistent, hvisited⟩ := hvisit done traversal w h hedge hw
        exact ⟨_, by rw [look, not_not.mp hw, hafter, Option.map_some],
          h.look_new hedge hw hconsistent hvisited⟩
    obtain ⟨last, hlast, hvisitingLast⟩ :=
      ih hvisiting fun w hw => htodo w (List.mem_cons_of_mem _ hw)
    refine ⟨last, ?_, ?_⟩
    · rw [List.foldlM_cons, hnext, Option.bind_eq_bind, Option.bind_some, hlast]
    · rwa [List.append_assoc] at hvisitingLast

/-! ## Leaving -/

/-- A vertex with a low link below its own number leads back further down the stack. -/
theorem Visiting.consistent_of_low_lt
    (h : Visiting adjacency opened before v (successors adjacency v) traversal)
    (hopened : ∀ u ∈ opened, u ∈ before.stack) (hlow : traversal.low v < traversal.number v) :
    traversal.Consistent adjacency opened := by
  obtain ⟨seen, hseen, hnumber, hreach⟩ := h.low_seen
  obtain ⟨back, hback, hle, hreturn⟩ := h.consistent.leads_back seen hseen
  have hne : back ≠ v := by
    rintro rfl
    omega
  have hbackOpened : back ∈ opened := (List.mem_cons.mp hback).resolve_left hne
  refine { h.consistent with opened_mem := ?_, examined := ?_, leads_back := ?_ }
  · exact fun u hu => h.mem_stack.2 u (hopened u hu)
  · intro u hu hnot w hedge
    by_cases huv : u = v
    · subst huv
      exact h.done_visited w hedge
    · exact h.consistent.examined u hu (by simp [huv, hnot]) w hedge
  · intro u hu
    obtain ⟨x, hx, hxle, hxreach⟩ := h.consistent.leads_back u hu
    rcases List.mem_cons.mp hx with rfl | hx
    · exact ⟨back, hbackOpened, by omega, (hxreach.trans hreach).trans hreturn⟩
    · exact ⟨x, hx, hxle, hxreach⟩

/-- The vertices on the stack from a vertex upwards are exactly those that it reaches and that reach
it, if its low link is its own number. No edge on a way that comes back leaves this part of the
stack. -/
theorem Visiting.mem_component_iff
    (h : Visiting adjacency opened before v (successors adjacency v) traversal)
    (hopened : ∀ u ∈ opened, u ∈ before.stack) (hroot : traversal.low v = traversal.number v)
    {above : List Nat} (hstack : traversal.stack = above ++ v :: before.stack)
    (hedges : ∀ u ∈ above, ∀ w ∈ before.stack, Edge adjacency u w →
      traversal.low v ≤ traversal.number w)
    (w : Nat) :
    w ∈ above ++ [v] ↔ Mutual adjacency v w := by
  have hdescending := h.consistent.descending
  rw [hstack] at hdescending
  obtain ⟨-, hlower, habove⟩ := List.pairwise_append.mp hdescending
  have hbelow : ∀ u ∈ before.stack, traversal.number u < traversal.number v :=
    (List.pairwise_cons.mp hlower).1
  have hmem : ∀ u ∈ above ++ [v], u ∈ traversal.stack ∧
      traversal.number v ≤ traversal.number u := by
    intro u hu
    rcases List.mem_append.mp hu with hu | hu
    · exact ⟨by simp [hstack, hu], (habove u hu v List.mem_cons_self).le⟩
    · obtain rfl := List.mem_singleton.mp hu
      exact ⟨h.mem_stack.1, Nat.le_refl _⟩
  constructor
  · intro hw
    obtain ⟨hwaits, hle⟩ := hmem w hw
    refine ⟨h.consistent.reaches_later v h.mem_stack.1 w hwaits hle, ?_⟩
    obtain ⟨x, hx, -, hreach⟩ := h.consistent.leads_back w hwaits
    rcases List.mem_cons.mp hx with rfl | hx
    · exact hreach
    · exact hreach.trans
        (h.consistent.reaches_later x (h.mem_stack.2 x (hopened x hx)) v h.mem_stack.1
        (hbelow x (hopened x hx)).le)
  · rintro ⟨hforth, hback⟩
    induction hforth with
    | refl => simp
    | @tail x w hforth hedge ih =>
      have hx := ih (.head hedge hback)
      have hvisited : traversal.Visited w := by
        rcases List.mem_append.mp hx with habv | hself
        · have hlt := habove x habv v List.mem_cons_self
          have hne : x ≠ v := fun heq => by simp [heq] at hlt
          have hnot : x ∉ opened := fun hin => Nat.lt_asymm (hbelow x (hopened x hin)) hlt
          exact h.consistent.examined x (h.consistent.visited_of_mem x (hmem x hx).1)
            (by simp [hne, hnot]) w hedge
        · exact h.done_visited w (List.mem_singleton.mp hself ▸ hedge)
      by_cases hwaits : w ∈ traversal.stack
      · by_contra hout
        have hw : w ∈ before.stack := by
          rw [hstack] at hwaits
          simp only [List.mem_append, List.mem_cons] at hwaits hout
          tauto
        have hlow : traversal.low v ≤ traversal.number w := by
          rcases List.mem_append.mp hx with hx | hx
          · exact hedges x hx w hw hedge
          · exact h.low_le_done w (List.mem_singleton.mp hx ▸ hedge) hw
        have hlt := hbelow w hw
        omega
      · obtain ⟨members, hmembers, hw⟩ := h.consistent.settled w hvisited hwaits
        have hmutual : Mutual adjacency w v := ⟨hback, hforth.tail hedge⟩
        have hv := ((h.consistent.found_class members hmembers).2.2 w hw v).mpr hmutual
        exact absurd h.mem_stack.1 (h.consistent.found_visited members hmembers v hv).2

/-- A vertex with its own number as low link is released with its component. -/
theorem Visiting.consistent_release
    (h : Visiting adjacency opened before v (successors adjacency v) traversal)
    (hopened : ∀ u ∈ opened, u ∈ before.stack) (hroot : traversal.low v = traversal.number v) :
    (traversal.release v).Consistent adjacency opened ∧
    (traversal.release v).stack = before.stack := by
  obtain ⟨above, hstack, hedges⟩ := h.above
  have hcomponent := h.mem_component_iff hopened hroot hstack hedges
  have hdescending := h.consistent.descending
  have hnodup : traversal.stack.Nodup := hdescending.imp fun hlt heq => by simp [heq] at hlt
  rw [hstack, List.append_cons] at hnodup hdescending
  obtain ⟨hmembers, -, hdisjoint⟩ := List.nodup_append.mp hnodup
  have hnew : v ∉ above :=
    fun hmem => (List.nodup_append.mp hmembers).2.2 v hmem v List.mem_cons_self rfl
  have hrelease : traversal.release v = { traversal with
      stack := before.stack
      waiting := (above ++ [v]).foldl (fun waiting w => waiting.set w false) traversal.waiting
      found := traversal.found ++ [(above ++ [v]).mergeSort fun a b => a ≤ b] } := by
    rw [release, hstack, takeThrough_append hnew]
  have hsplit : ∀ u, u ∈ traversal.stack ↔ u ∈ above ++ [v] ∨ u ∈ before.stack := by
    intro u
    rw [hstack, List.append_cons, List.mem_append]
  have hbelow : ∀ u ∈ before.stack, traversal.number u < traversal.number v := fun u hu =>
    (List.pairwise_append.mp hdescending).2.2 v (by simp) u hu
  have hsorted : ∀ u, u ∈ (above ++ [v]).mergeSort (fun a b => a ≤ b) ↔ u ∈ above ++ [v] := fun u =>
    (List.mergeSort_perm _ _).mem_iff
  refine ⟨?_, by rw [hrelease]⟩
  rw [hrelease]
  exact {
    sized := ⟨h.consistent.sized.numbers, h.consistent.sized.lows,
      (length_clear _ _).trans h.consistent.sized.waiting⟩
    number_lt := h.consistent.number_lt
    visited_of_mem := fun u hu => h.consistent.visited_of_mem u (h.mem_stack.2 u hu)
    descending := (List.pairwise_append.mp hdescending).2.1
    waiting_iff := by
      intro u
      have hclear := getD_clear (above ++ [v]) traversal.waiting u
      rw [isWaiting, hclear, Bool.and_eq_true, decide_eq_true_iff, ← isWaiting,
        h.consistent.waiting_iff, hsplit]
      constructor
      · rintro ⟨hout, hin⟩
        exact hin.resolve_left hout
      · exact fun hu => ⟨fun hin => hdisjoint u hin u hu rfl, .inr hu⟩
    opened_mem := hopened
    examined := by
      intro u hu hnot w hedge
      by_cases huv : u = v
      · exact h.done_visited w (huv ▸ hedge)
      · exact h.consistent.examined u hu (by simp [huv, hnot]) w hedge
    reaches_later := fun u hu w hw =>
      h.consistent.reaches_later u (h.mem_stack.2 u hu) w (h.mem_stack.2 w hw)
    leads_back := by
      intro u hu
      obtain ⟨x, hx, hle, hreach⟩ := h.consistent.leads_back u (h.mem_stack.2 u hu)
      have hlt : traversal.number x < traversal.number v := hle.trans_lt (hbelow u hu)
      have hne : x ≠ v := fun heq => by simp [heq] at hlt
      exact ⟨x, (List.mem_cons.mp hx).resolve_left hne, hle, hreach⟩
    settled := by
      intro u hu hout
      by_cases hwaits : u ∈ traversal.stack
      · exact ⟨_, List.mem_append_right _ (List.mem_singleton.mpr rfl),
          (hsorted u).mpr (((hsplit u).mp hwaits).resolve_right hout)⟩
      · obtain ⟨members, hmem, hin⟩ := h.consistent.settled u hu hwaits
        exact ⟨members, List.mem_append_left _ hmem, hin⟩
    found_visited := by
      intro members hmem u hu
      rcases List.mem_append.mp hmem with hmem | hmem
      · obtain ⟨hseen, hout⟩ := h.consistent.found_visited members hmem u hu
        exact ⟨hseen, fun hin => hout (h.mem_stack.2 u hin)⟩
      · rw [List.mem_singleton.mp hmem, hsorted] at hu
        exact ⟨h.consistent.visited_of_mem u ((hsplit u).mpr (.inl hu)),
          fun hin => hdisjoint u hu u hin rfl⟩
    found_class := by
      intro members hmem
      rcases List.mem_append.mp hmem with hmem | hmem
      · exact h.consistent.found_class members hmem
      · rw [List.mem_singleton.mp hmem]
        have hle := List.pairwise_mergeSort' (· ≤ ·) (above ++ [v])
        have hne : ((above ++ [v]).mergeSort fun a b => a ≤ b).Nodup :=
          (List.mergeSort_perm _ _).nodup_iff.mpr hmembers
        refine ⟨List.ne_nil_of_mem ((hsorted v).mpr (by simp)),
          (hle.and hne).imp fun hpair => ?_, fun u hu w => ?_⟩
        · exact lt_of_le_of_ne hpair.1 hpair.2
        · have hu := (hcomponent u).mp ((hsorted u).mp hu)
          rw [hsorted, hcomponent]
          exact ⟨hu.symm.trans, hu.trans⟩
    found_disjoint := by
      refine List.pairwise_append.mpr ⟨h.consistent.found_disjoint, List.pairwise_singleton _ _, ?_⟩
      intro members hmem others hothers u hu hother
      rw [List.mem_singleton.mp hothers, hsorted] at hother
      exact (h.consistent.found_visited members hmem u hu).2 ((hsplit u).mpr (.inl hother)) }

/-- A visit ends by leaving the vertex. -/
theorem Visiting.leave (h : Visiting adjacency opened before v (successors adjacency v) traversal)
    (hopened : ∀ u ∈ opened, u ∈ before.stack) :
    (traversal.leave v).Consistent adjacency opened ∧
    Visit adjacency before v (traversal.leave v) := by
  obtain ⟨above, hstack, hedges⟩ := h.above
  have hleave : traversal.leave v =
      if traversal.number v = traversal.low v then traversal.release v else traversal := by
    simp only [Traversal.leave, number?_eq h.visited, Option.some.injEq]
  rw [hleave]
  by_cases hroot : traversal.number v = traversal.low v
  · rw [if_pos hroot]
    obtain ⟨hconsistent, hbelow⟩ := h.consistent_release hopened hroot.symm
    refine ⟨hconsistent, ?_⟩
    exact {
      grows := ⟨h.grows.next_le, h.grows.kept, h.grows.fresh⟩
      lows_kept := h.lows_kept
      visited := h.visited
      low_seen := .inl hroot.symm
      above := ⟨[], hbelow, by simp⟩ }
  · rw [if_neg hroot]
    have hlt : traversal.low v < traversal.number v := lt_of_le_of_ne h.low_le (Ne.symm hroot)
    refine ⟨h.consistent_of_low_lt hopened hlt, ?_⟩
    exact {
      grows := h.grows
      lows_kept := h.lows_kept
      visited := h.visited
      low_seen := .inr h.low_seen
      above := by
        refine ⟨above ++ [v], by simp [hstack], fun u hu w hw hedge => ?_⟩
        rcases List.mem_append.mp hu with hu | hu
        · exact hedges u hu w hw hedge
        · exact h.low_le_done w (List.mem_singleton.mp hu ▸ hedge) hw }

end Visits

/-! ## Whole traversals -/

/-- The vertices that have not been visited. -/
def unvisited (adjacency : Adjacency) (traversal : Traversal) : Finset Nat :=
  (Finset.range adjacency.length).filter fun v => traversal.number? v = none

section Traversals

variable {adjacency : Adjacency} {opened : List Nat} {traversal before after : Traversal} {v : Nat}

/-- What has been visited stays visited. -/
theorem Grows.unvisited_subset (h : before.Grows after) :
    unvisited adjacency after ⊆ unvisited adjacency before := by
  intro u hu
  rw [unvisited, Finset.mem_filter] at hu ⊢
  refine ⟨hu.1, ?_⟩
  by_contra hvisited
  exact h.visited hvisited hu.2

/-- Visiting a vertex leaves fewer to visit. -/
theorem Grows.card_unvisited_lt (h : before.Grows after) (hv : v < adjacency.length)
    (hnew : ¬ before.Visited v) (hvisited : after.Visited v) :
    (unvisited adjacency after).card < (unvisited adjacency before).card := by
  refine Finset.card_lt_card (Finset.ssubset_iff_of_subset h.unvisited_subset |>.mpr ⟨v, ?_, ?_⟩)
  · exact Finset.mem_filter.mpr ⟨Finset.mem_range.mpr hv, not_not.mp hnew⟩
  · exact fun hmem => hvisited (Finset.mem_filter.mp hmem).2

end Traversals

end Traversal

open Traversal

variable {adjacency : Adjacency}

/-- A visit ends if as many visits may be inside each other as vertices have not been visited. It
keeps the traversal consistent. -/
theorem exists_visit_eq (hclosed : Closed adjacency) (depth : Nat) {opened : List Nat}
    {before : Traversal} {v : Nat} (h : before.Consistent adjacency opened)
    (hv : v < adjacency.length) (hnew : ¬ before.Visited v)
    (hreached : ∀ u ∈ opened, ReflTransGen (Edge adjacency) u v)
    (hdepth : (unvisited adjacency before).card ≤ depth) :
    ∃ after, visit adjacency depth before v = some after ∧ after.Consistent adjacency opened ∧
      Visit adjacency before v after := by
  induction depth generalizing opened before v with
  | zero =>
    have hempty := Finset.card_eq_zero.mp (Nat.le_zero.mp hdepth)
    have hmem : v ∈ unvisited adjacency before :=
      Finset.mem_filter.mpr ⟨Finset.mem_range.mpr hv, not_not.mp hnew⟩
    rw [hempty] at hmem
    exact absurd hmem (Finset.notMem_empty v)
  | succ depth ih =>
    have hinner : ∀ done traversal w, Visiting adjacency opened before v done traversal →
        Edge adjacency v w →
        ¬ traversal.Visited w → ∃ after, visit adjacency depth traversal w = some after ∧
          after.Consistent adjacency (v :: opened) ∧ Visit adjacency traversal w after := by
      intro done traversal w hvisiting hedge hw
      have hopen : ∀ u ∈ v :: opened, ReflTransGen (Edge adjacency) u w := by
        intro u hu
        rcases List.mem_cons.mp hu with rfl | hu
        · exact .single hedge
        · exact (hreached u hu).tail hedge
      have hfewer := hvisiting.grows.card_unvisited_lt hv hnew hvisiting.visited
      exact ih hvisiting.consistent (hclosed v w hedge) hw hopen (by omega)
    obtain ⟨last, hlast, hvisiting⟩ := (h.visiting_enter hv hnew hreached).exists_foldlM_look_eq
      (visit adjacency depth) hinner (successors adjacency v) fun w hw => hw
    exact ⟨_, by rw [visit, hlast, Option.map_some], hvisiting.leave h.opened_mem⟩

/-- A traversal visits every vertex and ends with nothing on the stack. -/
theorem exists_traverse_eq (hclosed : Closed adjacency) :
    ∃ traversal, traverse adjacency = some traversal ∧
    traversal.Consistent adjacency [] ∧ ∀ v < adjacency.length, traversal.Visited v := by
  have hrun : ∀ (todo : List Nat) (before : Traversal), (∀ v ∈ todo, v < adjacency.length) →
      before.Consistent adjacency [] → ∃ after, todo.foldlM (fun traversal v =>
        if (traversal.number? v).isNone then visit adjacency adjacency.length traversal v
        else some traversal) before =
          some after ∧ after.Consistent adjacency [] ∧ before.Grows after ∧
          ∀ v ∈ todo, after.Visited v := by
    intro todo
    induction todo with
    | nil =>
      intro before _ hbefore
      exact ⟨before, rfl, hbefore, .refl before, by simp⟩
    | cons v todo ih =>
      intro before hlt hbefore
      have hv := hlt v List.mem_cons_self
      have hrest : ∀ w ∈ todo, w < adjacency.length := fun w hw => hlt w (List.mem_cons_of_mem _ hw)
      obtain ⟨next, hnext, hconsistent, hgrows, hvisited⟩ : ∃ next,
        (if (before.number? v).isNone then
          visit adjacency adjacency.length before v else some before) = some next ∧
            next.Consistent adjacency [] ∧
            before.Grows next ∧ next.Visited v := by
        by_cases hnew : before.Visited v
        · refine ⟨before, ?_, hbefore, .refl before, hnew⟩
          rw [number?_eq hnew, Option.isNone_some, if_neg Bool.false_ne_true]
        · have hcard : (unvisited adjacency before).card ≤ adjacency.length :=
            (Finset.card_filter_le _ _).trans_eq (Finset.card_range _)
          obtain ⟨next, hnext, hconsistent, hvisit⟩ :=
            exists_visit_eq hclosed adjacency.length hbefore hv hnew (by simp) hcard
          refine ⟨next, ?_, hconsistent, hvisit.grows, hvisit.visited⟩
          rw [not_not.mp hnew, Option.isNone_none, if_pos rfl, hnext]
      obtain ⟨after, hafter, hconsistentAfter, hgrowsAfter, hvisitedAfter⟩ :=
        ih next hrest hconsistent
      refine ⟨after, ?_, hconsistentAfter, hgrows.trans hgrowsAfter, fun w hw => ?_⟩
      · rw [List.foldlM_cons, hnext, Option.bind_eq_bind, Option.bind_some, hafter]
      · rcases List.mem_cons.mp hw with rfl | hw
        · exact hgrowsAfter.visited hvisited
        · exact hvisitedAfter w hw
  obtain ⟨after, hafter, hconsistent, -, hvisited⟩ := hrun (List.range adjacency.length)
    (.start adjacency.length) (fun v hv => List.mem_range.mp hv) (consistent_start adjacency)
  exact ⟨after, hafter, hconsistent, fun v hv => hvisited v (List.mem_range.mpr hv)⟩

end SchemaBindings.Graph
