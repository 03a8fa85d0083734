import Mathlib.Data.List.GetD
import Mathlib.Data.List.Nodup
import Mathlib.Logic.Relation
import SchemaBindings.Graph.Components

/-!
# What vertices reach

A vertex reaches what its edges lead to, any number of them. Vertices that reach each other form
classes.
-/

namespace SchemaBindings.Graph

open Relation (ReflTransGen)

/-- Whether an edge leads from one vertex to another. -/
def Edge (adjacency : Adjacency) (v w : Nat) : Prop :=
  w ∈ successors adjacency v

/-- Every successor is a vertex. -/
def Closed (adjacency : Adjacency) : Prop :=
  ∀ v w, Edge adjacency v w → w < adjacency.length

/-- Only vertices have successors. -/
theorem Edge.lt {adjacency : Adjacency} {v w : Nat} (h : Edge adjacency v w) :
    v < adjacency.length := by
  by_contra hv
  rw [Edge, successors, List.getD_eq_default _ _ (Nat.le_of_not_lt hv)] at h
  exact List.not_mem_nil h

/-- Edges lead from vertices to vertices only. -/
theorem Closed.lt_of_reaches {adjacency : Adjacency} (hclosed : Closed adjacency) {v w : Nat}
    (hv : v < adjacency.length) (h : ReflTransGen (Edge adjacency) v w) : w < adjacency.length := by
  cases h with
  | refl => exact hv
  | tail _ hedge => exact hclosed _ _ hedge

/-- Whether two vertices reach each other. -/
def Mutual (adjacency : Adjacency) (v w : Nat) : Prop :=
  ReflTransGen (Edge adjacency) v w ∧ ReflTransGen (Edge adjacency) w v

/-- Every vertex reaches itself. -/
theorem Mutual.refl (adjacency : Adjacency) (v : Nat) : Mutual adjacency v v :=
  ⟨.refl, .refl⟩

/-- Reaching each other does not depend on the order. -/
theorem Mutual.symm {adjacency : Adjacency} {v w : Nat} (h : Mutual adjacency v w) :
    Mutual adjacency w v :=
  ⟨h.2, h.1⟩

/-- Vertices that reach each other through a third one reach each other. -/
theorem Mutual.trans {adjacency : Adjacency} {u v w : Nat} (h : Mutual adjacency u v)
    (h' : Mutual adjacency v w) : Mutual adjacency u w :=
  ⟨h.1.trans h'.1, h'.2.trans h.2⟩

end SchemaBindings.Graph
