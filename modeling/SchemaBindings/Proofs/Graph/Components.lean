import Mathlib
import SchemaBindings.Proofs.Graph.Visits

/-!
# The components of a graph

For an adjacency that names no vertex beyond its length, the search for components ends, and it
finds exactly the classes of vertices that reach each other: every vertex in one of them, each class
ascending, and the classes in the order of their least vertices.
-/

namespace SchemaBindings.Graph

open Relation (ReflTransGen TransGen)

variable {adjacency : Adjacency}

/-! ## What is found -/

/-- Lists are in order if their first numbers are, or if these are equal and the others are in
order. -/
theorem lexUpTo_cons_iff (v w : Nat) (members others : List Nat) :
    lexUpTo (v :: members) (w :: others) = true ↔ v < w ∨ v = w ∧
    lexUpTo members others = true := by
  simp [lexUpTo]

/-- The order of lists is transitive. -/
theorem lexUpTo_trans (a b c : List Nat) (h : lexUpTo a b = true) (h' : lexUpTo b c = true) :
    lexUpTo a c = true := by
  induction a generalizing b c with
  | nil => rfl
  | cons u a ih =>
    cases b with
    | nil => contradiction
    | cons v b =>
      cases c with
      | nil => contradiction
      | cons w c =>
        rw [lexUpTo_cons_iff] at h h' ⊢
        rcases h with h | ⟨rfl, h⟩ <;> rcases h' with h' | ⟨rfl, h'⟩
        · exact .inl (h.trans h')
        · exact .inl h
        · exact .inl h'
        · exact .inr ⟨rfl, ih b c h h'⟩

/-- Of two lists one is up to the other. -/
theorem lexUpTo_total (a b : List Nat) : (lexUpTo a b || lexUpTo b a) = true := by
  induction a generalizing b with
  | nil => rfl
  | cons v a ih =>
    cases b with
    | nil => rfl
    | cons w b =>
      rw [Bool.or_eq_true, lexUpTo_cons_iff, lexUpTo_cons_iff]
      rcases Nat.lt_trichotomy v w with h | rfl | h
      · exact .inl (.inl h)
      · exact ((Bool.or_eq_true _ _).mp (ih b)).imp (.inr ⟨rfl, ·⟩) (.inr ⟨rfl, ·⟩)
      · exact .inr (.inl h)

/-- The search for components ends. -/
theorem strongComponents?_eq (hclosed : Closed adjacency) :
    strongComponents? adjacency = some (components adjacency) := by
  obtain ⟨traversal, htraversal, -⟩ := exists_traverse_eq hclosed
  rw [components, strongComponents?, htraversal, Option.map_some, Option.getD_some]

/-- The components are those that the traversal has found, in order. -/
theorem exists_components_eq (hclosed : Closed adjacency) : ∃ traversal : Traversal,
    components adjacency = traversal.found.mergeSort lexUpTo ∧ traversal.Consistent adjacency [] ∧
      ∀ v < adjacency.length, traversal.Visited v := by
  obtain ⟨traversal, htraversal, hconsistent, hvisited⟩ := exists_traverse_eq hclosed
  refine ⟨traversal, ?_, hconsistent, hvisited⟩
  rw [components, strongComponents?, htraversal, Option.map_some, Option.getD_some]

/-- A component is an ascending list of all vertices that reach each other. -/
theorem component_class (hclosed : Closed adjacency) {members : List Nat}
    (h : members ∈ components adjacency) :
    members ≠ [] ∧ members.Pairwise (· < ·) ∧
      ∀ v ∈ members, v < adjacency.length ∧ ∀ w, w ∈ members ↔ Mutual adjacency v w := by
  obtain ⟨traversal, hcomponents, hconsistent, -⟩ := exists_components_eq hclosed
  rw [hcomponents, (List.mergeSort_perm _ _).mem_iff] at h
  obtain ⟨hne, hascending, hclass⟩ := hconsistent.found_class members h
  exact ⟨hne, hascending, fun v hv =>
    ⟨(hconsistent.found_visited members h v hv).1.lt hconsistent.sized, hclass v hv⟩⟩

/-- Every vertex is in a component. -/
theorem exists_component (hclosed : Closed adjacency) {v : Nat} (hv : v < adjacency.length) :
    ∃ members ∈ components adjacency, v ∈ members := by
  obtain ⟨traversal, hcomponents, hconsistent, hvisited⟩ := exists_components_eq hclosed
  have hout : v ∉ traversal.stack := by
    intro hmem
    obtain ⟨_, hopen, -⟩ := hconsistent.leads_back v hmem
    exact List.not_mem_nil hopen
  obtain ⟨members, hmembers, hmem⟩ := hconsistent.settled v (hvisited v hv) hout
  exact ⟨members, by rwa [hcomponents, (List.mergeSort_perm _ _).mem_iff], hmem⟩

/-- The first vertices of components ascend. -/
theorem components_pairwise (hclosed : Closed adjacency) :
    (components adjacency).Pairwise fun members others =>
      ∀ v w, members.head? = some v → others.head? = some w → v < w := by
  obtain ⟨traversal, hcomponents, hconsistent, -⟩ := exists_components_eq hclosed
  have hdisjoint : (components adjacency).Pairwise List.Disjoint := by
    rw [hcomponents]
    exact (List.mergeSort_perm _ _).symm.pairwise hconsistent.found_disjoint fun h => h.symm
  have hle : (components adjacency).Pairwise fun members others => lexUpTo members others = true :=
    hcomponents ▸ List.pairwise_mergeSort lexUpTo_trans lexUpTo_total _
  refine (hdisjoint.and hle).imp fun {members others} hpair v w hv hw => ?_
  obtain ⟨_, rfl⟩ := List.head?_eq_some_iff.mp hv
  obtain ⟨_, rfl⟩ := List.head?_eq_some_iff.mp hw
  rcases (lexUpTo_cons_iff ..).mp hpair.2 with hlt | ⟨rfl, -⟩
  · exact hlt
  · exact absurd List.mem_cons_self (hpair.1 List.mem_cons_self)

/-- Components with a vertex in common are the same. -/
theorem component_eq (hclosed : Closed adjacency) {members others : List Nat}
    (hm : members ∈ components adjacency) (ho : others ∈ components adjacency) {v : Nat}
    (hv : v ∈ members) (hv' : v ∈ others) : members = others := by
  obtain ⟨-, hascending, hclass⟩ := component_class hclosed hm
  obtain ⟨-, hascending', hclass'⟩ := component_class hclosed ho
  refine hascending.eq_of_mem_iff hascending' fun w => ?_
  rw [(hclass v hv).2, (hclass' v hv').2]

/-- Only one component holds a vertex. -/
theorem index_eq_of_mem_components (hclosed : Closed adjacency) {i j : Nat}
    (hi : i < (components adjacency).length) (hj : j < (components adjacency).length) {v : Nat}
    (hv : v ∈ (components adjacency)[i]) (hv' : v ∈ (components adjacency)[j]) : i = j := by
  have hsame := component_eq hclosed (List.getElem_mem hi) (List.getElem_mem hj) hv hv'
  have hnodup : (components adjacency).Nodup := by
    refine (components_pairwise hclosed).imp_of_mem fun {members others} hm _ hlt heq => ?_
    obtain ⟨first, rest, hcons⟩ := List.exists_cons_of_ne_nil (component_class hclosed hm).1
    have hhead : members.head? = some first := by rw [hcons, List.head?_cons]
    exact Nat.lt_irrefl first (hlt first first hhead (heq ▸ hhead))
  exact (List.Nodup.getElem_inj_iff hnodup).mp hsame

/-! ## Peers -/

open Classical in
/-- The vertices that a vertex reaches and that reach it, ascending. -/
noncomputable def peersOf (adjacency : Adjacency) (v : Nat) : List Nat :=
  (List.range adjacency.length).filter fun w => Mutual adjacency v w

/-- The peers of a vertex are the vertices that it reaches and that reach it. -/
theorem mem_peersOf_iff (adjacency : Adjacency) (v w : Nat) :
    w ∈ peersOf adjacency v ↔ w < adjacency.length ∧ Mutual adjacency v w := by
  simp only [peersOf, List.mem_filter, List.mem_range, decide_eq_true_eq]

/-- The component of a vertex is made of its peers. -/
theorem component_eq_peersOf (hclosed : Closed adjacency) {members : List Nat}
    (h : members ∈ components adjacency) {v : Nat} (hv : v ∈ members) :
    members = peersOf adjacency v := by
  obtain ⟨-, hascending, hclass⟩ := component_class hclosed h
  have hpeers : (peersOf adjacency v).Pairwise (· < ·) := List.pairwise_lt_range.filter _
  refine hascending.eq_of_mem_iff hpeers fun w => ?_
  rw [(hclass v hv).2, mem_peersOf_iff]
  exact ⟨fun hmutual => ⟨hclosed.lt_of_reaches (hclass v hv).1 hmutual.1, hmutual⟩, And.right⟩

/-- Every vertex is in the component that its peers form. -/
theorem peersOf_mem_components (hclosed : Closed adjacency) {v : Nat} (hv : v < adjacency.length) :
    peersOf adjacency v ∈ components adjacency := by
  obtain ⟨members, hmembers, hmem⟩ := exists_component hclosed hv
  exact component_eq_peersOf hclosed hmembers hmem ▸ hmembers

/-- The components are the lists of peers, each taken at its first vertex. -/
theorem mem_components_iff (hclosed : Closed adjacency) (members : List Nat) :
    members ∈ components adjacency ↔
      ∃ v < adjacency.length, members = peersOf adjacency v ∧ members.head? = some v := by
  constructor
  · intro h
    obtain ⟨hne, -, hclass⟩ := component_class hclosed h
    obtain ⟨v, others, rfl⟩ := List.exists_cons_of_ne_nil hne
    exact ⟨v, (hclass v List.mem_cons_self).1, component_eq_peersOf hclosed h List.mem_cons_self,
      rfl⟩
  · rintro ⟨v, hv, rfl, -⟩
    exact peersOf_mem_components hclosed hv

/-- There is no cycle exactly if every component is a single vertex without an edge to itself. -/
theorem forall_not_cycle_iff (hclosed : Closed adjacency) :
    (∀ v, ¬ TransGen (Edge adjacency) v v) ↔
      ∀ members ∈ components adjacency, ∃ v, members = [v] ∧ ¬ Edge adjacency v v := by
  constructor
  · intro hacyclic members hmembers
    obtain ⟨v, hv, rfl, -⟩ := (mem_components_iff hclosed members).mp hmembers
    refine ⟨v, ?_, fun hedge => hacyclic v (.single hedge)⟩
    have hself := (mem_peersOf_iff adjacency v v).mpr ⟨hv, .refl adjacency v⟩
    have honly : ∀ w ∈ peersOf adjacency v, w = v := by
      intro w hw
      obtain ⟨-, hforth, hback⟩ := (mem_peersOf_iff adjacency v w).mp hw
      rcases Relation.reflTransGen_iff_eq_or_transGen.mp hforth with heq | hforth
      · exact heq
      · exact absurd (hforth.trans_left hback) (hacyclic v)
    have hperm : (peersOf adjacency v).Perm [v] := by
      refine (List.perm_ext_iff_of_nodup (List.nodup_range.filter _)
        (List.nodup_singleton v)).mpr ?_
      intro w
      rw [List.mem_singleton]
      exact ⟨honly w, fun hw => hw ▸ hself⟩
    exact List.perm_singleton.mp hperm
  · intro hlone v hcycle
    obtain ⟨w, hedge, hback⟩ := TransGen.head'_iff.mp hcycle
    have hv := hedge.lt
    obtain ⟨u, hpeers, hloop⟩ := hlone _ (peersOf_mem_components hclosed hv)
    have hself := (mem_peersOf_iff adjacency v v).mpr ⟨hv, .refl adjacency v⟩
    have hnext := (mem_peersOf_iff adjacency v w).mpr ⟨hclosed v w hedge, .single hedge, hback⟩
    rw [hpeers, List.mem_singleton] at hself hnext
    rw [hself, hnext] at hedge
    exact hloop hedge

/-! ## The partition -/

/-- Whether lists are the classes of vertices that reach each other: every vertex in one of them,
each ascending, and all in the order of their least vertices. -/
structure Classifies (adjacency : Adjacency) (classes : List (List Nat)) : Prop where
  unique : ∀ v < adjacency.length, ∃! members, members ∈ classes ∧ v ∈ members
  vertices : ∀ members ∈ classes, ∀ v ∈ members, v < adjacency.length
  mem_iff : ∀ members ∈ classes, ∀ v ∈ members, ∀ w, w ∈ members ↔ Mutual adjacency v w
  nonempty : ∀ members ∈ classes, members ≠ []
  ascending : ∀ members ∈ classes, members.Pairwise (· < ·)
  ordered : classes.Pairwise fun members others =>
    ∀ v w, members.head? = some v → others.head? = some w → v < w

/-- The search for components ends with the classes of vertices that reach each other. -/
theorem classifies_strongComponents (adjacency : Adjacency) (hclosed : Closed adjacency) :
    ∃ classes, strongComponents? adjacency = some classes ∧ Classifies adjacency classes := by
  refine ⟨components adjacency, strongComponents?_eq hclosed, ?_⟩
  exact {
    unique := by
      intro v hv
      obtain ⟨members, hmembers, hmem⟩ := exists_component hclosed hv
      exact ⟨members, ⟨hmembers, hmem⟩, fun others hothers =>
        component_eq hclosed hothers.1 hmembers hothers.2 hmem⟩
    vertices := fun members hmembers v hv => ((component_class hclosed hmembers).2.2 v hv).1
    mem_iff := fun members hmembers v hv => ((component_class hclosed hmembers).2.2 v hv).2
    nonempty := fun members hmembers => (component_class hclosed hmembers).1
    ascending := fun members hmembers => (component_class hclosed hmembers).2.1
    ordered := components_pairwise hclosed }

/-- Two knots of which one leads to the other, a loop, and a vertex that only leads on. -/
def sampleAdjacency : Adjacency :=
  [[1], [2, 2], [0, 3], [4], [3, 5], [], [6], [6, 0]]

/-- The components of the sample. -/
theorem classifies_sampleAdjacency : Closed sampleAdjacency ∧
    strongComponents? sampleAdjacency = some [[0, 1, 2], [3, 4], [5], [6], [7]] ∧
      Classifies sampleAdjacency [[0, 1, 2], [3, 4], [5], [6], [7]] := by
  have hclosed : Closed sampleAdjacency := by
    intro v w hedge
    have hall : ∀ v < sampleAdjacency.length, ∀ w ∈ successors sampleAdjacency v, w <
        sampleAdjacency.length := by
      decide
    exact hall v hedge.lt w hedge
  have hfound : strongComponents? sampleAdjacency =
      some [[0, 1, 2], [3, 4], [5], [6], [7]] := by cbv
  obtain ⟨classes, hclasses, hclassifies⟩ := classifies_strongComponents sampleAdjacency hclosed
  obtain rfl := Option.some.inj (hfound.symm.trans hclasses)
  exact ⟨hclosed, hfound, hclassifies⟩

end SchemaBindings.Graph
