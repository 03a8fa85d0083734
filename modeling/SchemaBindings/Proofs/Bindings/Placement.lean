import Mathlib.Logic.Relation
import SchemaBindings.Bindings.CHeader
import SchemaBindings.Proofs.Graph.Recursion

/-!
# Structs stand behind what they embed

A type embeds the types of its fields that are neither lists nor marked as recursive. In a linked
graph embedding is acyclic, since a field on a cycle is marked. Types are placed depth first: those
seen are either placed or still on the path from the start, and a type on the path cannot be
embedded by the one under work. So every type ends up behind all types that it embeds, and there are
enough steps for every type to be placed.
-/

namespace SchemaBindings.Bindings.CHeader

open Relation (ReflTransGen TransGen)
open SchemaBindings.Graph (Field TypeId TypeNode)

/-! ## Embedding -/

/-- Whether a type embeds another. -/
def Embeds (graph : TypeGraph) (type other : TypeNode) : Prop :=
  other ∈ embedded graph type

/-- A type embeds another exactly if it has a field of that type that is not marked as recursive. -/
theorem embeds_iff (graph : TypeGraph) (type other : TypeNode) :
    Embeds graph type other ↔
      ∃ field ∈ type.fields, field.recursive = false ∧ ∃ id, field.type = .named id ∧
        graph.find? id = some other := by
  rw [Embeds, embedded, List.mem_filterMap]
  refine exists_congr fun field => and_congr_right fun _ => ?_
  cases field.recursive with
  | true => simp
  | false =>
    cases field.type with
    | named id => simp
    | primitive kind => simp
    | list element => simp

/-- A type found in a graph is one of its types, with the identity looked for. -/
theorem find?_eq_some {graph : TypeGraph} {id : TypeId} {type : TypeNode}
    (h : graph.find? id = some type) :
    type ∈ graph.types ∧ type.id = id :=
  ⟨List.mem_of_find?_eq_some h, by simpa using List.find?_some h⟩

/-- Every identity among the types of a graph is found. -/
theorem exists_find?_eq_some {graph : TypeGraph} {id : TypeId}
    (h : id ∈ graph.types.map TypeNode.id) :
    ∃ type, graph.find? id = some type := by
  obtain ⟨type, htype, rfl⟩ := List.mem_map.mp h
  exact Option.isSome_iff_exists.mp (List.find?_isSome.mpr ⟨type, htype, by simp⟩)

/-- Embedded types are types of the graph. -/
theorem Embeds.mem {graph : TypeGraph} {type other : TypeNode} (h : Embeds graph type other) :
    other ∈ graph.types := by
  obtain ⟨_, _, _, _, _, hfind⟩ := (embeds_iff graph type other).mp h
  exact (find?_eq_some hfind).1

/-- A type refers to the types that it embeds. -/
theorem Embeds.refersTo {graph : TypeGraph} {type other : TypeNode} (htype : type ∈ graph.types)
    (h : Embeds graph type other) : graph.RefersTo type.id other.id := by
  obtain ⟨field, hfield, -, id, hnamed, hfind⟩ := (embeds_iff graph type other).mp h
  obtain ⟨hother, rfl⟩ := find?_eq_some hfind
  refine ⟨⟨type, htype, rfl, field, hfield, ?_⟩, List.mem_map_of_mem hother⟩
  simp [hnamed, Graph.FieldType.target?]

/-- Where types embed each other in steps, the first refers to the last in steps. -/
theorem reflTransGen_refersTo {graph : TypeGraph} {type other : TypeNode}
    (htype : type ∈ graph.types) (h : ReflTransGen (Embeds graph) type other) :
    ReflTransGen graph.RefersTo type.id other.id := by
  induction h using ReflTransGen.head_induction_on with
  | refl => exact .refl
  | head hembeds _ ih => exact .head (hembeds.refersTo htype) (ih hembeds.mem)

/-- In a linked graph no type embeds itself in any number of steps. The target of a field on the way
around reaches its owner, so the field would be marked. -/
theorem embeds_acyclic {graph : TypeGraph} (hlinked : graph.Linked) {type : TypeNode}
    (htype : type ∈ graph.types) : ¬ TransGen (Embeds graph) type type := by
  intro hcycle
  obtain ⟨other, hembeds, hback⟩ := TransGen.head'_iff.mp hcycle
  obtain ⟨field, hfield, hrecursive, id, hnamed, hfind⟩ := (embeds_iff graph type other).mp hembeds
  obtain ⟨-, rfl⟩ := find?_eq_some hfind
  have hmarked := (hlinked.recursive_iff type htype field hfield).mpr
    ⟨other.id, by rw [hnamed, Graph.FieldType.target?], reflTransGen_refersTo hembeds.mem hback⟩
  rw [hrecursive] at hmarked
  exact Bool.noConfusion hmarked

/-! ## Order -/

/-- Whether each of some types stands behind all types that it embeds. -/
def Ordered (graph : TypeGraph) (types : List TypeNode) : Prop :=
  ∀ before type after, types = before ++ type :: after →
    ∀ other, Embeds graph type other → other ∈ before

/-- No types are ordered. -/
theorem Ordered.nil (graph : TypeGraph) : Ordered graph [] := by
  intro before type after h
  simp at h

/-- A type may be appended once all types that it embeds are there. -/
theorem Ordered.append_singleton {graph : TypeGraph} {types : List TypeNode} {type : TypeNode}
    (h : Ordered graph types) (hembedded : ∀ other, Embeds graph type other → other ∈ types) :
    Ordered graph (types ++ [type]) := by
  intro before placed after hsplit other hother
  rcases List.eq_nil_or_concat after with rfl | ⟨others, last, rfl⟩
  · obtain ⟨rfl, hlast⟩ := List.append_inj' hsplit rfl
    obtain rfl := List.singleton_inj.mp hlast
    exact hembedded other hother
  · rw [List.concat_eq_append, ← List.cons_append, ← List.append_assoc] at hsplit
    exact h before placed others (List.append_inj' hsplit rfl).1 other hother

/-! ## Placing -/

/-- What holds while types are placed: the types seen are those placed and those on the path from
the start to the type under work, each once, and those placed are ordered. -/
structure Progress (graph : TypeGraph) (path : List TypeNode) (seen : List TypeId)
    (placed : List TypeNode) : Prop where
  mem : ∀ type ∈ placed ++ path, type ∈ graph.types
  seen_iff : ∀ id, id ∈ seen ↔ id ∈ (placed ++ path).map TypeNode.id
  nodup : ((placed ++ path).map TypeNode.id).Nodup
  ordered : Ordered graph placed

/-- A type that was not seen may be entered. -/
theorem Progress.enter {graph : TypeGraph} {path placed : List TypeNode} {seen : List TypeId}
    (h : Progress graph path seen placed) {type : TypeNode} (htype : type ∈ graph.types)
    (hunseen : type.id ∉ seen) : Progress graph (type :: path) (type.id :: seen) placed where
  mem := by
    intro other hother
    rcases List.mem_cons.mp (List.perm_middle.mem_iff.mp hother) with rfl | hother
    · exact htype
    · exact h.mem other hother
  seen_iff := by
    intro id
    rw [(List.perm_middle.map TypeNode.id).mem_iff, List.map_cons, List.mem_cons,
      List.mem_cons, h.seen_iff]
  nodup := by
    rw [(List.perm_middle.map TypeNode.id).nodup_iff, List.map_cons, List.nodup_cons, ← h.seen_iff]
    exact ⟨hunseen, h.nodup⟩
  ordered := h.ordered

/-- A type may be left, and is placed, once all types that it embeds are placed. -/
theorem Progress.leave {graph : TypeGraph} {path placed : List TypeNode} {seen : List TypeId}
    {type : TypeNode} (h : Progress graph (type :: path) seen placed)
    (hembedded : ∀ other, Embeds graph type other → other ∈ placed) :
    Progress graph path seen (placed ++ [type]) where
  mem := by simpa using h.mem
  seen_iff := by simpa using h.seen_iff
  nodup := by simpa using h.nodup
  ordered := h.ordered.append_singleton hembedded

/-- The steps that a type may still take: none if it was seen, else one for itself and one for each
field. -/
def stepsLeft (seen : List TypeId) (type : TypeNode) : Nat :=
  if type.id ∈ seen then 0 else type.fields.length + 1

/-- The steps that types may still take. -/
def unseenSteps (types : List TypeNode) (seen : List TypeId) : Nat :=
  (types.map (stepsLeft seen)).sum

/-- Seeing more types leaves a type at most the same steps. -/
theorem stepsLeft_le {seen others : List TypeId} (h : seen ⊆ others) (type : TypeNode) :
    stepsLeft others type ≤ stepsLeft seen type := by
  unfold stepsLeft
  by_cases hseen : type.id ∈ seen
  · simp [hseen, h hseen]
  · rw [if_neg hseen]
    split <;> omega

/-- Seeing more types leaves fewer steps. -/
theorem unseenSteps_le (types : List TypeNode) {seen others : List TypeId} (h : seen ⊆ others) :
    unseenSteps types others ≤ unseenSteps types seen := by
  induction types with
  | nil => exact Nat.le_refl _
  | cons first rest ih => exact Nat.add_le_add (stepsLeft_le h first) ih

/-- Seeing a type takes its own steps away. -/
theorem unseenSteps_cons {types : List TypeNode} {seen : List TypeId} {type : TypeNode}
    (htype : type ∈ types) (hunseen : type.id ∉ seen) :
    unseenSteps types (type.id :: seen) + (type.fields.length + 1) ≤ unseenSteps types seen := by
  induction types with
  | nil => exact absurd htype List.not_mem_nil
  | cons first rest ih =>
    have hsubset := List.subset_cons_self type.id seen
    have hfirst := stepsLeft_le hsubset first
    have hrest := unseenSteps_le rest hsubset
    simp only [unseenSteps, List.map_cons, List.sum_cons] at hrest ih ⊢
    rcases List.mem_cons.mp htype with rfl | hmem
    · have hnow : stepsLeft (type.id :: seen) type = 0 := if_pos List.mem_cons_self
      have hbefore : stepsLeft seen type = type.fields.length + 1 := if_neg hunseen
      omega
    · have hothers := ih hmem
      omega

/-- A type embeds at most as many types as it has fields. -/
theorem length_embedded_le (graph : TypeGraph) (type : TypeNode) :
    (embedded graph type).length ≤ type.fields.length :=
  List.length_filterMap_le _ _

/-- What placing some types does, given that every type on the path embeds them in steps: progress
is kept, nothing is unseen, and all of them are seen. None of the types that the one under work
embeds is on the path, as that would close a cycle; so all of them are placed in front of it. -/
theorem placeTypes_progress {graph : TypeGraph} (hlinked : graph.Linked) (fuel : Nat)
    (types : List TypeNode) (seen : List TypeId) (placed path : List TypeNode)
    (h : Progress graph path seen placed) (htypes : ∀ type ∈ types, type ∈ graph.types)
    (hpath : ∀ above ∈ path, ∀ type ∈ types, TransGen (Embeds graph) above type)
    (hfuel : types.length + unseenSteps graph.types seen ≤ fuel) :
    let result := placeTypes graph fuel types seen placed
    Progress graph path result.1 result.2 ∧ seen ⊆ result.1 ∧
    ∀ type ∈ types, type.id ∈ result.1 := by
  induction fuel generalizing types seen placed path with
  | zero =>
    obtain rfl := List.eq_nil_of_length_eq_zero (by omega : types.length = 0)
    simpa [placeTypes] using h
  | succ fuel ih =>
    cases types with
    | nil => simpa [placeTypes] using h
    | cons type rest =>
      have hrest : ∀ other ∈ rest, other ∈ graph.types := fun other hother =>
        htypes other (List.mem_cons_of_mem _ hother)
      have hpathRest : ∀ above ∈ path, ∀ other ∈ rest, TransGen (Embeds graph) above other :=
        fun above habove other hother => hpath above habove other (List.mem_cons_of_mem _ hother)
      rw [List.length_cons] at hfuel
      rw [placeTypes]
      split
      · next hseen =>
        obtain ⟨hprogress, hsubset, hall⟩ := ih rest seen placed path h hrest hpathRest (by omega)
        exact ⟨hprogress, hsubset, List.forall_mem_cons.mpr ⟨hsubset hseen, hall⟩⟩
      · next hunseen =>
        have htype := htypes type List.mem_cons_self
        have hsteps := unseenSteps_cons htype hunseen
        have hlength := length_embedded_le graph type
        have hinner : ∀ above ∈ type :: path, ∀ other ∈ embedded graph type,
            TransGen (Embeds graph) above other := by
          intro above habove other hother
          rcases List.mem_cons.mp habove with rfl | habove
          · exact .single hother
          · exact (hpath above habove type List.mem_cons_self).tail hother
        obtain ⟨hentered, hkept, hembedded⟩ := ih (embedded graph type) (type.id :: seen) placed
          (type :: path) (h.enter htype hunseen) (fun other hother => Embeds.mem hother)
          hinner (by omega)
        dsimp only
        generalize placeTypes graph fuel (embedded graph type) (type.id :: seen) placed =
          entered at *
        have hplaced : ∀ other, Embeds graph type other → other ∈ entered.2 := by
          intro other hother
          have hid := (hentered.seen_iff other.id).mp (hembedded other hother)
          obtain ⟨same, hsame, heq⟩ := List.mem_map.mp hid
          obtain rfl : same = other :=
            List.inj_on_of_nodup_map hlinked.distinct (hentered.mem same hsame) hother.mem heq
          rcases List.mem_append.mp hsame with hsame | hsame
          · exact hsame
          · rcases List.mem_cons.mp hsame with rfl | habove
            · exact absurd (.single hother) (embeds_acyclic hlinked htype)
            · exact absurd ((hpath same habove type List.mem_cons_self).tail hother)
                (embeds_acyclic hlinked hother.mem)
        have hless := unseenSteps_le graph.types hkept
        obtain ⟨hprogress, hsubset, hall⟩ := ih rest entered.1 (entered.2 ++ [type]) path
          (hentered.leave hplaced) hrest hpathRest (by omega)
        refine ⟨hprogress, fun id hid => hsubset (hkept (List.mem_cons_of_mem _ hid)), ?_⟩
        exact List.forall_mem_cons.mpr ⟨hsubset (hkept List.mem_cons_self), hall⟩

/-- There are enough steps to place all types. -/
theorem unseenSteps_nil_add_length_le (graph : TypeGraph) :
    graph.types.length + unseenSteps graph.types [] ≤ placingSteps graph := by
  have hsum : ∀ types : List TypeNode,
      unseenSteps types [] = (types.flatMap TypeNode.fields).length + types.length := by
    intro types
    induction types with
    | nil => rfl
    | cons type rest ih =>
      have hfirst : stepsLeft [] type = type.fields.length + 1 := if_neg List.not_mem_nil
      simp only [unseenSteps, List.map_cons, List.sum_cons] at ih ⊢
      rw [ih, hfirst, List.flatMap_cons, List.length_append, List.length_cons]
      omega
  rw [hsum, placingSteps]
  omega

/-- In a linked graph every type is placed once, behind all types that it embeds. -/
theorem placedTypes_ordered {graph : TypeGraph} (hlinked : graph.Linked) :
    (placedTypes graph).Perm graph.types ∧ Ordered graph (placedTypes graph) := by
  have hstart : Progress graph [] [] [] := ⟨by simp, by simp, by simp, .nil graph⟩
  obtain ⟨hprogress, -, hall⟩ := placeTypes_progress hlinked (placingSteps graph)
    graph.types [] [] [] hstart
    (fun _ htype => htype) (by simp) (unseenSteps_nil_add_length_le graph)
  rw [← placedTypes] at hprogress
  refine ⟨?_, hprogress.ordered⟩
  have hnodup := hprogress.nodup
  rw [List.append_nil] at hnodup
  rw [List.perm_ext_iff_of_nodup hnodup.of_map hlinked.distinct.of_map]
  intro type
  constructor
  · intro htype
    exact hprogress.mem type (List.mem_append_left _ htype)
  · intro htype
    have hid := (hprogress.seen_iff type.id).mp (hall type htype)
    rw [List.append_nil] at hid
    obtain ⟨same, hsame, heq⟩ := List.mem_map.mp hid
    obtain rfl := List.inj_on_of_nodup_map hlinked.distinct
      (hprogress.mem same (List.mem_append_left _ hsame)) htype heq
    exact hsame

end SchemaBindings.Bindings.CHeader
