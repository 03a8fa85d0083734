import Mathlib.Algebra.BigOperators.Group.Finset.Basic
import Mathlib.Algebra.Order.BigOperators.Group.Finset
import Mathlib.Data.List.Chain
import SchemaBindings.Graph.ClosedWalk
import SchemaBindings.Proofs.Graph.Components

/-!
# What the search for a closed walk finds

The search goes depth first and never looks at a vertex twice. What it returns is a simple way to
the goal inside the members. If it returns nothing, everything that it could reach inside the
members is settled: all successors of visited vertices are visited, and none is the goal. So it
finds a way back to its start whenever the start lies on a cycle inside the members, although it
gives up vertices for good. The given number of steps never runs out, since each one uses up an edge
or a vertex.
-/

namespace SchemaBindings.Graph

open Relation (ReflTransGen TransGen)

variable {adjacency : Adjacency} {members : List Nat} {goal : Nat}

/-! ## Ways that are found -/

/-- Whether vertices form a simple way from one of the candidates to the goal that stays inside the
members and avoids what was visited before. -/
structure WayTo (adjacency : Adjacency) (members : List Nat) (goal : Nat)
    (candidates visited way : List Nat) : Prop where
  first : ∃ w ∈ candidates, (way ++ [goal]).head? = some w
  chain : List.IsChain (Edge adjacency) (way ++ [goal])
  inside : ∀ v ∈ way ++ [goal], v ∈ members
  nodup : way.Nodup
  fresh : ∀ v ∈ way, v ≠ goal ∧ v ∉ visited

/-- A candidate that is the goal is a way. -/
theorem WayTo.here {candidates visited : List Nat} (hcandidate : goal ∈ candidates)
    (hgoal : goal ∈ members) :
    WayTo adjacency members goal candidates visited [] where
  first := ⟨goal, hcandidate, rfl⟩
  chain := .singleton goal
  inside := by simpa using hgoal
  nodup := .nil
  fresh := by simp

/-- A way from the successors of a candidate is one from the candidate. -/
theorem WayTo.step {candidates visited way : List Nat} {w : Nat}
    (h : WayTo adjacency members goal (successors adjacency w) (w :: visited) way)
    (hcandidate : w ∈ candidates) (hmember : w ∈ members) (hgoal : w ≠ goal)
    (hvisited : w ∉ visited) :
    WayTo adjacency members goal candidates visited (w :: way) where
  first := ⟨w, hcandidate, rfl⟩
  chain := by
    refine h.chain.cons fun v hv => ?_
    obtain ⟨u, hu, hhead⟩ := h.first
    obtain rfl := Option.some.inj (hhead.symm.trans hv)
    exact hu
  inside := List.forall_mem_cons.mpr ⟨hmember, h.inside⟩
  nodup := List.nodup_cons.mpr ⟨fun hw => (h.fresh w hw).2 List.mem_cons_self, h.nodup⟩
  fresh := List.forall_mem_cons.mpr ⟨⟨hgoal, hvisited⟩, fun v hv =>
    ⟨(h.fresh v hv).1, fun hold => (h.fresh v hv).2 (List.mem_cons_of_mem w hold)⟩⟩

/-- More candidates and fewer visited vertices allow no fewer ways. -/
theorem WayTo.mono {candidates others visited earlier way : List Nat}
    (h : WayTo adjacency members goal candidates visited way) (hcandidates : candidates ⊆ others)
    (hvisited : earlier ⊆ visited) : WayTo adjacency members goal others earlier way where
  first := by
    obtain ⟨w, hw, hhead⟩ := h.first
    exact ⟨w, hcandidates hw, hhead⟩
  chain := h.chain
  inside := h.inside
  nodup := h.nodup
  fresh v hv := ⟨(h.fresh v hv).1, fun hold => (h.fresh v hv).2 (hvisited hold)⟩

/-- Searching forgets no visited vertex. -/
theorem visited_subset_searchWay (adjacency : Adjacency) (members : List Nat) (goal fuel : Nat)
    (candidates visited : List Nat) :
    visited ⊆ (searchWay adjacency members goal fuel candidates visited).1 := by
  fun_induction searchWay adjacency members goal fuel candidates visited with
  | case1 => exact fun _ h => h
  | case2 => exact fun _ h => h
  | case3 fuel w rest visited hmember ih => exact ih
  | case4 => exact fun _ h => h
  | case5 fuel w rest visited hmember hgoal hvisited ih => exact ih
  | case6 fuel w rest visited hmember hgoal hvisited later way hfound ih =>
    rw [hfound] at ih
    exact fun v hv => ih (List.mem_cons_of_mem w hv)
  | case7 fuel w rest visited hmember hgoal hvisited later hfailed ih ih' =>
    rw [hfailed] at ih
    exact fun v hv => ih' (ih (List.mem_cons_of_mem w hv))

/-- What searching finds is a way to the goal. -/
theorem wayTo_of_searchWay {fuel : Nat} {candidates visited way : List Nat}
    (h : (searchWay adjacency members goal fuel candidates visited).2 = some way) :
    WayTo adjacency members goal candidates visited way := by
  fun_induction searchWay adjacency members goal fuel candidates visited generalizing way with
  | case1 => contradiction
  | case2 => contradiction
  | case3 fuel w rest visited hmember ih =>
    exact (ih h).mono (List.subset_cons_self w rest) fun _ h => h
  | case4 fuel rest visited hmember =>
    obtain rfl := Option.some.inj h
    exact .here List.mem_cons_self (not_not.mp hmember)
  | case5 fuel w rest visited hmember hgoal hvisited ih =>
    exact (ih h).mono (List.subset_cons_self w rest) fun _ h => h
  | case6 fuel w rest visited hmember hgoal hvisited later found hfound ih =>
    obtain rfl := Option.some.inj h
    rw [hfound] at ih
    exact (ih rfl).step List.mem_cons_self (not_not.mp hmember) hgoal hvisited
  | case7 fuel w rest visited hmember hgoal hvisited later hfailed ih ih' =>
    have hkept :=
      visited_subset_searchWay adjacency members goal fuel (successors adjacency w) (w :: visited)
    rw [hfailed] at hkept
    exact (ih' h).mono (List.subset_cons_self w rest) fun v hv => hkept (List.mem_cons_of_mem w hv)

/-! ## Searches that fail -/

/-- What a failed search leaves: everything inside the members behind the candidates is visited, and
nothing there is the goal. -/
structure Exhausted (adjacency : Adjacency) (members : List Nat) (goal : Nat)
    (candidates visited later : List Nat) : Prop where
  kept : visited ⊆ later
  candidates : ∀ w ∈ candidates, w ∈ members → w ≠ goal ∧ w ∈ later
  settled : ∀ v ∈ later, v ∉ visited → ∀ w, Edge adjacency v w → w ∈ members → w ≠ goal ∧ w ∈ later

/-- With one more candidate that is not looked at, a search leaves what it leaves without it. -/
theorem Exhausted.skip {candidates visited later : List Nat} {w : Nat}
    (h : Exhausted adjacency members goal candidates visited later)
    (hw : w ∈ members → w ≠ goal ∧ w ∈ visited) :
    Exhausted adjacency members goal (w :: candidates) visited later where
  kept := h.kept
  candidates := List.forall_mem_cons.mpr
    ⟨fun hmember => ⟨(hw hmember).1, h.kept (hw hmember).2⟩, h.candidates⟩
  settled := h.settled

/-- A search that fails behind one candidate and then behind the others fails altogether. -/
theorem Exhausted.trans {candidates visited between later : List Nat} {w : Nat}
    (h : Exhausted adjacency members goal (successors adjacency w) (w :: visited) between)
    (h' : Exhausted adjacency members goal candidates between later) (hgoal : w ≠ goal) :
    Exhausted adjacency members goal (w :: candidates) visited later where
  kept v hv := h'.kept (h.kept (List.mem_cons_of_mem w hv))
  candidates := List.forall_mem_cons.mpr
    ⟨fun _ => ⟨hgoal, h'.kept (h.kept List.mem_cons_self)⟩, h'.candidates⟩
  settled := by
    intro v hv hnew u hedge hmember
    by_cases hbetween : v ∈ between
    · by_cases hvw : v = w
      · subst hvw
        exact ⟨(h.candidates u hedge hmember).1, h'.kept (h.candidates u hedge hmember).2⟩
      · have hold :=
          h.settled v hbetween (fun hold => (List.mem_cons.mp hold).elim hvw hnew) u hedge hmember
        exact ⟨hold.1, h'.kept hold.2⟩
    · exact h'.settled v hv hbetween u hedge hmember

/-- The steps that the vertices not yet visited can take: one for each and one for each of its
edges. -/
def stepsLeft (adjacency : Adjacency) (visited : List Nat) : Nat :=
  ∑ v ∈ Finset.range adjacency.length \ visited.toFinset, ((successors adjacency v).length + 1)

/-- Visiting a vertex takes its steps. -/
theorem stepsLeft_eq {visited : List Nat} {w : Nat} (hw : w < adjacency.length)
    (hvisited : w ∉ visited) :
    stepsLeft adjacency visited =
      stepsLeft adjacency (w :: visited) + ((successors adjacency w).length + 1) := by
  have hmem : w ∈ Finset.range adjacency.length \ visited.toFinset := by simp [hw, hvisited]
  rw [stepsLeft, stepsLeft, List.toFinset_cons, Finset.sdiff_insert, Finset.sum_erase_add _ _ hmem]

/-- The more is visited, the fewer steps are left. -/
theorem stepsLeft_le (adjacency : Adjacency) {visited later : List Nat} (h : visited ⊆ later) :
    stepsLeft adjacency later ≤ stepsLeft adjacency visited := by
  refine Finset.sum_le_sum_of_subset (Finset.sdiff_subset_sdiff (Finset.Subset.refl _) ?_)
  intro v hv
  exact List.mem_toFinset.mpr (h (List.mem_toFinset.mp hv))

/-- A search with enough steps that finds no way has exhausted what it can reach. -/
theorem exhausted_of_searchWay (hmembers : ∀ v ∈ members, v < adjacency.length) {fuel : Nat}
    {candidates visited : List Nat} (hfuel : candidates.length + stepsLeft adjacency visited < fuel)
    (h : (searchWay adjacency members goal fuel candidates visited).2 = none) :
    Exhausted adjacency members goal candidates visited
      (searchWay adjacency members goal fuel candidates visited).1 := by
  fun_induction searchWay adjacency members goal fuel candidates visited with
  | case1 => omega
  | case2 fuel visited => exact ⟨fun _ h => h, by simp, fun v hv hnew => absurd hv hnew⟩
  | case3 fuel w rest visited hmember ih =>
    rw [List.length_cons] at hfuel
    exact (ih (by omega) h).skip fun hw => absurd hw hmember
  | case4 => contradiction
  | case5 fuel w rest visited hmember hgoal hvisited ih =>
    rw [List.length_cons] at hfuel
    exact (ih (by omega) h).skip fun _ => ⟨hgoal, hvisited⟩
  | case6 => contradiction
  | case7 fuel w rest visited hmember hgoal hvisited later hfailed ih ih' =>
    have hsteps := stepsLeft_eq (hmembers w (not_not.mp hmember)) hvisited
    rw [hfailed] at ih
    rw [List.length_cons] at hfuel
    have hinner : Exhausted adjacency members goal (successors adjacency w) (w :: visited) later :=
      ih (by omega) rfl
    have hfewer := stepsLeft_le adjacency hinner.kept
    exact hinner.trans (ih' (by omega) h) hgoal

/-! ## Closed walks -/

/-- The steps of all vertices are as many as edges and vertices. -/
theorem stepsLeft_nil (adjacency : Adjacency) :
    stepsLeft adjacency [] = adjacency.flatten.length + adjacency.length := by
  rw [stepsLeft, List.toFinset_nil, Finset.sdiff_empty]
  induction adjacency with
  | nil => rfl
  | cons first rest ih =>
    rw [List.length_cons, Finset.sum_range_succ', List.flatten_cons, List.length_append]
    simp only [successors, List.getD_cons_succ, List.getD_cons_zero] at ih ⊢
    omega

/-- Enough steps are given to a search behind a vertex. -/
theorem stepsLeft_lt_searchSteps {start : Nat} (hstart : start < adjacency.length) :
    (successors adjacency start).length + stepsLeft adjacency [start] < searchSteps adjacency := by
  have hsteps := stepsLeft_eq hstart List.not_mem_nil
  rw [stepsLeft_nil] at hsteps
  rw [searchSteps]
  omega

/-- After a failed search nothing behind a settled vertex leads to the goal inside the members. From
any vertex on the way back the rest of the way would end at the start. -/
theorem Exhausted.not_transGen {later : List Nat} {start : Nat}
    (h : Exhausted adjacency members start (successors adjacency start) [start] later)
    (hpeers : ∀ v, Mutual adjacency start v → v ∈ members) :
    ¬ TransGen (Edge adjacency) start start := by
  have hback : ∀ v, ReflTransGen (Edge adjacency) v start → ReflTransGen (Edge adjacency) start v →
      v ≠ start → v ∉ later := by
    intro v hway
    induction hway using ReflTransGen.head_induction_on with
    | refl => exact fun _ hne => absurd rfl hne
    | head hedge hrest ih =>
      intro hforth hne hlater
      have hforth' := hforth.tail hedge
      have hnext := h.settled _ hlater (by simpa using hne) _ hedge (hpeers _ ⟨hforth', hrest⟩)
      exact ih hforth' hnext.1 hnext.2
  intro hcycle
  obtain ⟨w, hedge, hrest⟩ := TransGen.head'_iff.mp hcycle
  have hforth : ReflTransGen (Edge adjacency) start w := .single hedge
  have hfirst := h.candidates w hedge (hpeers w ⟨hforth, hrest⟩)
  exact hback w hrest hforth hfirst.1 hfirst.2

/-- A way from the successors of a vertex back to it is a closed walk. -/
theorem WayTo.closed {start : Nat} {visited way : List Nat}
    (h : WayTo adjacency members start (successors adjacency start) visited way) :
    List.IsChain (Edge adjacency) (start :: way ++ [start]) := by
  refine h.chain.cons fun v hv => ?_
  obtain ⟨w, hw, hfirst⟩ := h.first
  rw [hfirst] at hv
  exact Option.some.inj hv ▸ hw

/-- A way from the successors of a vertex back to it visits no vertex twice before it is back. -/
theorem WayTo.simple {start : Nat} {candidates visited way : List Nat}
    (h : WayTo adjacency members start candidates visited way) : (start :: way).Nodup :=
  List.nodup_cons.mpr ⟨fun hstart => (h.fresh start hstart).1 rfl, h.nodup⟩

/-- From a vertex on a cycle, the search among its peers finds a simple way back. -/
theorem exists_closedWalk (hclosed : Closed adjacency) {start : Nat}
    (hstart : start < adjacency.length) (hcycle : TransGen (Edge adjacency) start start) :
    ∃ way, closedWalk adjacency (peersOf adjacency start) start = start :: way ++ [start] ∧
      WayTo adjacency (peersOf adjacency start) start (successors adjacency start) [start] way := by
  cases hsearch : (searchWay adjacency (peersOf adjacency start) start (searchSteps adjacency)
      (successors adjacency start) [start]).2 with
  | some way =>
    exact ⟨way, by rw [closedWalk, hsearch, Option.getD_some], wayTo_of_searchWay hsearch⟩
  | none =>
    have hmembers : ∀ v ∈ peersOf adjacency start, v < adjacency.length := fun v hv =>
      ((mem_peersOf_iff _ _ v).mp hv).1
    have hpeers : ∀ v, Mutual adjacency start v → v ∈ peersOf adjacency start := fun v hv =>
      (mem_peersOf_iff _ _ v).mpr ⟨hclosed.lt_of_reaches hstart hv.1, hv⟩
    have hexhausted := exhausted_of_searchWay hmembers (stepsLeft_lt_searchSteps hstart) hsearch
    exact absurd hcycle (hexhausted.not_transGen hpeers)

end SchemaBindings.Graph
