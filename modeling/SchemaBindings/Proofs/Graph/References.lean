import Mathlib.Data.List.Nodup
import Mathlib.Logic.Relation
import SchemaBindings.Graph.Build
import SchemaBindings.Proofs.Graph.Components
import SchemaBindings.Proofs.Text.Distinct

/-!
# References between types and edges between positions

Cycles and components are computed on the positions of types, while the schema speaks of types by
name. Where identities are distinct, an identity and its position determine each other, so that what
edges connect is what references connect.
-/

namespace SchemaBindings.Graph

open Relation (ReflTransGen TransGen)

/-- Whether a type has a field in which `edge` sees another of the types. -/
def Refers (edge : Field → Option TypeId) (types : List TypeNode) (a b : TypeId) : Prop :=
  (∃ type ∈ types, type.id = a ∧ ∃ field ∈ type.fields, edge field = some b) ∧
    b ∈ types.map TypeNode.id

/-! ## Positions -/

/-- A position found is that of a type with the identity. -/
theorem getElem?_of_positionOf? {types : List TypeNode} {id : TypeId} {i : Nat}
    (h : positionOf? types id = some i) : ∃ type, types[i]? = some type ∧ type.id = id := by
  obtain ⟨hlt, hid, -⟩ := List.findIdx?_eq_some_iff_getElem.mp h
  exact ⟨types[i], List.getElem?_eq_getElem hlt, by simpa using hid⟩

/-- Every type has the position where it stands, if identities are distinct. -/
theorem positionOf?_of_getElem? {types : List TypeNode} (hdistinct : (types.map TypeNode.id).Nodup)
    {i : Nat} {type : TypeNode} (h : types[i]? = some type) :
    positionOf? types type.id = some i := by
  obtain ⟨hi, rfl⟩ := List.getElem?_eq_some_iff.mp h
  refine List.findIdx?_eq_some_iff_getElem.mpr ⟨hi, by simp, ?_⟩
  intro j hj hid
  have hid : types[j].id = types[i].id := by simpa using hid
  have hsame : (types.map TypeNode.id)[j]? = (types.map TypeNode.id)[i]? := by
    rw [List.getElem?_map, List.getElem?_map, h, List.getElem?_eq_getElem (Nat.lt_trans hj hi)]
    simpa using hid
  have heq := (List.getElem?_inj (by simpa using Nat.lt_trans hj hi) hdistinct).mp hsame
  omega

/-- An identity among the types has a position. -/
theorem exists_positionOf? {types : List TypeNode} {id : TypeId} (h : id ∈ types.map TypeNode.id) :
    ∃ i, positionOf? types id = some i := by
  obtain ⟨type, htype, rfl⟩ := List.mem_map.mp h
  cases hfound : positionOf? types type.id with
  | some i => exact ⟨i, rfl⟩
  | none =>
    have hnone := List.findIdx?_eq_none_iff.mp hfound type htype
    simp at hnone

/-! ## Edges -/

/-- The successors of a position are the positions of the targets that `edge` sees in the fields
there. -/
theorem edge_adjacencyBy_iff (edge : Field → Option TypeId) (types : List TypeNode) (i j : Nat) :
    Edge (adjacencyBy edge types) i j ↔
      ∃ type, types[i]? = some type ∧
        ∃ field ∈ type.fields, ∃ target, edge field = some target ∧
          positionOf? types target = some j := by
  rw [Edge, successors, adjacencyBy, List.getD_eq_getElem?_getD, List.getElem?_map]
  cases htype : types[i]? with
  | none => simp
  | some type =>
    simp only [Option.map_some, Option.getD_some, List.mem_mergeSort, Text.mem_distinct_iff,
      List.mem_filterMap, Option.some.injEq, exists_eq_left']
    constructor
    · intro h
      obtain ⟨target, ⟨field, hfield, htarget⟩, hposition⟩ := h
      exact ⟨field, hfield, target, htarget, hposition⟩
    · intro h
      obtain ⟨field, hfield, target, htarget, hposition⟩ := h
      exact ⟨target, ⟨field, hfield, htarget⟩, hposition⟩

/-- Every successor is the position of a type. -/
theorem closed_adjacencyBy (edge : Field → Option TypeId) (types : List TypeNode) :
    Closed (adjacencyBy edge types) := by
  intro i j hedge
  obtain ⟨_, -, _, -, _, -, hposition⟩ := (edge_adjacencyBy_iff edge types i j).mp hedge
  obtain ⟨_, htarget, -⟩ := getElem?_of_positionOf? hposition
  rw [adjacencyBy, List.length_map]
  exact (List.getElem?_eq_some_iff.mp htarget).1

/-- The identity of the type at a position. -/
def idAt (types : List TypeNode) (i : Nat) : TypeId :=
  (types[i]?.map TypeNode.id).getD ⟨"", ""⟩

/-- Edges lead from types to types that they refer to. -/
theorem Edge.refers {edge : Field → Option TypeId} {types : List TypeNode} {i j : Nat}
    (h : Edge (adjacencyBy edge types) i j) : Refers edge types (idAt types i) (idAt types j) := by
  obtain ⟨type, htype, field, hfield, id, hid, hposition⟩ :=
    (edge_adjacencyBy_iff edge types i j).mp h
  obtain ⟨target, htarget, rfl⟩ := getElem?_of_positionOf? hposition
  have hsource : idAt types i = type.id := by simp [idAt, htype]
  have hgoal : idAt types j = target.id := by simp [idAt, htarget]
  rw [hsource, hgoal]
  exact ⟨⟨type, List.mem_of_getElem? htype, rfl, field, hfield, hid⟩,
    List.mem_map_of_mem (List.mem_of_getElem? htarget)⟩

/-- The position of an identity, if it has one. -/
def positionAt (types : List TypeNode) (id : TypeId) : Nat :=
  (positionOf? types id).getD 0

/-- References between types with distinct identities are edges between their positions. -/
theorem Refers.edge {edge : Field → Option TypeId} {types : List TypeNode}
    (hdistinct : (types.map TypeNode.id).Nodup) {a b : TypeId} (h : Refers edge types a b) :
    Edge (adjacencyBy edge types) (positionAt types a) (positionAt types b) := by
  obtain ⟨⟨type, htype, rfl, field, hfield, hb⟩, hmem⟩ := h
  obtain ⟨i, hi⟩ := List.getElem?_of_mem htype
  obtain ⟨j, hj⟩ := exists_positionOf? hmem
  rw [positionAt, positionAt, positionOf?_of_getElem? hdistinct hi, hj]
  exact (edge_adjacencyBy_iff edge types i j).mpr ⟨type, hi, field, hfield, b, hb, hj⟩

/-- There is a cycle of edges exactly if there is a cycle of references. -/
theorem exists_edge_cycle_iff (edge : Field → Option TypeId) (types : List TypeNode)
    (hdistinct : (types.map TypeNode.id).Nodup) :
    (∃ i, TransGen (Edge (adjacencyBy edge types)) i i) ↔
      ∃ id, TransGen (Refers edge types) id id := by
  constructor
  · intro h
    obtain ⟨i, hcycle⟩ := h
    exact ⟨idAt types i, hcycle.lift (idAt types) fun _ _ h => h.refers⟩
  · intro h
    obtain ⟨id, hcycle⟩ := h
    exact ⟨positionAt types id, hcycle.lift (positionAt types) fun _ _ h => h.edge hdistinct⟩

/-! ## Types that contain themselves -/

/-- A component is not reported exactly if it is a single vertex without an edge to itself. -/
theorem containmentError?_eq_none_iff (types : List TypeNode) (adjacency : Adjacency) (start : Nat)
    (others : List Nat) (hstart : start < types.length) :
    containmentError? types adjacency (start :: others) = none ↔
      others = [] ∧ ¬ Edge adjacency start start := by
  simp only [containmentError?, List.getElem?_eq_getElem hstart, List.isEmpty_iff, Edge]
  split
  · next h => simpa using h
  · next h => simpa using h

/-- No type is reported to contain itself exactly if no references that are neither optional nor
lists form a cycle. -/
theorem containmentErrors_eq_nil_iff (types : List TypeNode)
    (hdistinct : (types.map TypeNode.id).Nodup) :
    containmentErrors types = [] ↔ ∀ id, ¬ TransGen (Refers directTarget? types) id id := by
  have hclosed := closed_adjacencyBy directTarget? types
  have hlength : (adjacencyBy directTarget? types).length = types.length := List.length_map _
  rw [← not_exists, ← exists_edge_cycle_iff directTarget? types hdistinct, not_exists,
    forall_not_cycle_iff hclosed, containmentErrors, List.filterMap_eq_nil_iff]
  refine forall₂_congr fun members hmembers => ?_
  obtain ⟨start, hstart, -, hhead⟩ := (mem_components_iff hclosed members).mp hmembers
  obtain ⟨others, rfl⟩ := List.head?_eq_some_iff.mp hhead
  rw [containmentError?_eq_none_iff types _ start others (hlength ▸ hstart)]
  simp

end SchemaBindings.Graph
