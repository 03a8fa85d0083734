import SchemaBindings.Proofs.Graph.Search
import SchemaBindings.Proofs.Graph.Translation

/-!
# Which types are reported to contain themselves

A declared type holds another if a field that is neither optional nor a list means it. Types that
hold each other, directly or through others, form a knot. Whatever else is wrong with schema files,
there is one error of this kind for each knot, in the order of the first types of knots. It names
the first type and a simple way from it back to itself inside the knot, at the place of the field
that the way starts with.

Only the first declaration of each name and its first field of each name count, and a field whose
reference means nothing holds nothing.
-/

namespace SchemaBindings.Graph

open Relation (ReflTransGen TransGen)
open SchemaBindings.Schema (SchemaFile Span)

/-- Whether values of a type always hold a value of another in a field. -/
def HoldsIn (files : List SchemaFile) (owner : TypeId) (field : Schema.Field) (target : TypeId) :
    Prop :=
  field.optional = false ∧ Means (Declared files) owner.namespacePath field.type (.named target)

/-- Whether values of a type always hold a value of another. -/
def Holds (files : List SchemaFile) (a b : TypeId) : Prop :=
  ∃ declaration ∈ firstDeclarations files, declaredId declaration = a ∧
    ∃ field ∈ firstFields declaration, HoldsIn files a field b

/-- Whether types are all that hold each other, directly or through others, and some of them do so
directly. -/
structure Knot (files : List SchemaFile) (knot : Set TypeId) : Prop where
  component : ∃ a, Declared files a ∧
    ∀ b, b ∈ knot ↔ Declared files b ∧ ReflTransGen (Holds files) a b ∧
      ReflTransGen (Holds files) b a
  edge : ∃ a ∈ knot, ∃ b ∈ knot, Holds files a b

/-- Whether some type of one knot comes before all types of another. -/
def Precedes (knot other : Set TypeId) : Prop :=
  ∃ a ∈ knot, ∀ b ∈ other, a.upTo b = true ∧ a ≠ b

/-- What an error says about a knot: its first type, and a simple way from there back to it inside
the knot, at the place of a field that leads to the second type on the way. -/
inductive ReportsKnot (files : List SchemaFile) (knot : Set TypeId) : GraphError → Prop
  | intro (least : TypeId) (way : List TypeId) (span : Span) (hmem : least ∈ knot)
      (hleast : ∀ b ∈ knot, least.upTo b = true) (hinside : ∀ b ∈ way, b ∈ knot)
      (hsimple : (least :: way).Nodup)
      (hchain : List.IsChain (Holds files) (least :: way ++ [least]))
      (hspan : ∃ declaration ∈ firstDeclarations files, declaredId declaration = least ∧
        ∃ field ∈ firstFields declaration, field.span = span ∧
          ∃ second, (way ++ [least]).head? = some second ∧ HoldsIn files least field second) :
      ReportsKnot files knot (.containsItself least (least :: way ++ [least]) span)

/-- Whether an error is about types that contain themselves. -/
def GraphError.isContainment : GraphError → Bool
  | .containsItself .. => true
  | _ => false

/-- The errors that building reports, none if it returns a graph. -/
def buildErrors (files : List SchemaFile) : List GraphError :=
  match build files with
  | .ok _ => []
  | .error errors => errors

/-! ## References of resolved types -/

/-- Resolved types refer to each other as parts exactly as the first declarations hold each
other. -/
theorem refers_resolvedTypes_eq_holds (files : List SchemaFile) :
    Refers directTarget? (resolvedTypes files) = Holds files := by
  funext a b
  refine propext ⟨?_, ?_⟩
  · intro h
    obtain ⟨⟨type, htype, rfl, field, hfield, htarget⟩, -⟩ := h
    obtain ⟨declaration, hdeclaration, rfl⟩ := List.mem_map.mp htype
    obtain ⟨source, hsource, hresolve⟩ := (mem_resolveDeclaration_fields_iff _ _ field).mp hfield
    have hholds := (directTarget?_resolveField_iff _ _ source b).mp ⟨field, hresolve, htarget⟩
    rw [mem_knownIds_eq] at hholds
    exact ⟨declaration, hdeclaration, rfl, source, hsource, hholds⟩
  · intro h
    obtain ⟨declaration, hdeclaration, rfl, source, hsource, hoptional, hmeans⟩ := h
    have hdeclared := hmeans.declared rfl
    rw [← mem_knownIds_eq] at hmeans
    obtain ⟨field, hresolve, htarget⟩ := (directTarget?_resolveField_iff (knownIds files)
      (declaredId declaration) source b).mpr ⟨hoptional, hmeans⟩
    refine ⟨⟨_, List.mem_map_of_mem hdeclaration, rfl, field, ?_, htarget⟩, ?_⟩
    · exact (mem_resolveDeclaration_fields_iff _ _ field).mpr ⟨source, hsource, hresolve⟩
    · rw [resolvedTypes, List.map_map]
      exact (mem_map_firstDeclarations_iff files b).mpr hdeclared

/-- The resolved types are those declared. -/
theorem mem_ids_resolvedTypes_iff (files : List SchemaFile) (id : TypeId) :
    id ∈ (resolvedTypes files).map TypeNode.id ↔ Declared files id := by
  rw [resolvedTypes, List.map_map]
  exact mem_map_firstDeclarations_iff files id

/-! ## Positions of types -/

/-- The type at a position has the identity there. -/
theorem id_getElem {types : List TypeNode} {i : Nat} (hi : i < types.length) :
    types[i].id = idAt types i := by
  rw [idAt, List.getElem?_eq_getElem hi]
  rfl

/-- Where identities are distinct, the position of the identity at a position is that position. -/
theorem positionAt_idAt {types : List TypeNode} (hdistinct : (types.map TypeNode.id).Nodup)
    {i : Nat} (hi : i < types.length) : positionAt types (idAt types i) = i := by
  have hat := List.getElem?_eq_getElem hi
  rw [idAt, hat, Option.map_some, Option.getD_some, positionAt,
    positionOf?_of_getElem? hdistinct hat, Option.getD_some]

/-- Where identities are distinct, types at different positions have different ones. -/
theorem idAt_inj {types : List TypeNode} (hdistinct : (types.map TypeNode.id).Nodup) {i j : Nat}
    (hi : i < types.length) (hj : j < types.length) (h : idAt types i = idAt types j) : i = j := by
  rw [← positionAt_idAt hdistinct hi, ← positionAt_idAt hdistinct hj, h]

/-- The identity at a position is one of the types'. -/
theorem idAt_mem {types : List TypeNode} {i : Nat} (hi : i < types.length) :
    idAt types i ∈ types.map TypeNode.id := by
  rw [← id_getElem hi]
  exact List.mem_map_of_mem (List.getElem_mem hi)

/-- The position of one of the types' identities is below their number. -/
theorem positionAt_lt {types : List TypeNode} {id : TypeId} (h : id ∈ types.map TypeNode.id) :
    positionAt types id < types.length := by
  obtain ⟨i, hi⟩ := exists_positionOf? h
  obtain ⟨type, htype, -⟩ := getElem?_of_positionOf? hi
  rw [positionAt, hi]
  exact (List.getElem?_eq_some_iff.mp htype).1

/-- The identities of the types at some positions. -/
theorem map_id_filterMap_getElem? {types : List TypeNode} {positions : List Nat}
    (h : ∀ i ∈ positions, i < types.length) :
    (positions.filterMap fun i => types[i]?).map TypeNode.id = positions.map (idAt types) := by
  induction positions with
  | nil => rfl
  | cons i rest ih =>
    rw [List.forall_mem_cons] at h
    have hat := List.getElem?_eq_getElem h.1
    rw [List.filterMap_cons_some hat, List.map_cons, List.map_cons, ih h.2, idAt, hat]
    rfl

/-- The first declarations are in the order of types. -/
theorem firstDeclarations_sorted (files : List SchemaFile) :
    ((firstDeclarations files).map declaredId).Pairwise fun a b => a.upTo b = true :=
  List.pairwise_map.mpr (List.pairwise_mergeSort
    (fun a b c => TypeId.upTo_trans (declaredId a) (declaredId b) (declaredId c))
    (fun a b => TypeId.upTo_total (declaredId a) (declaredId b)) _)

/-- The resolved types are in the order of types. -/
theorem resolvedTypes_sorted (files : List SchemaFile) :
    ((resolvedTypes files).map TypeNode.id).Pairwise fun a b => a.upTo b = true := by
  rw [resolvedTypes, List.map_map]
  exact firstDeclarations_sorted files

/-- Later types come after earlier ones in the order of types. -/
theorem idAt_before {types : List TypeNode} (hdistinct : (types.map TypeNode.id).Nodup)
    (hsorted : (types.map TypeNode.id).Pairwise fun a b => a.upTo b = true) {i j : Nat}
    (hij : i < j) (hj : j < types.length) :
    (idAt types i).upTo (idAt types j) = true ∧ idAt types i ≠ idAt types j := by
  have hi := Nat.lt_trans hij hj
  constructor
  · have hpair :=
      List.pairwise_iff_getElem.mp hsorted i j (by simpa using hi) (by simpa using hj) hij
    rw [List.getElem_map, List.getElem_map] at hpair
    rwa [idAt, idAt, List.getElem?_eq_getElem hi, List.getElem?_eq_getElem hj]
  · exact fun hsame => Nat.ne_of_lt hij (idAt_inj hdistinct hi hj hsame)

/-! ## Components -/

/-- The types of a component. -/
def idsAt (types : List TypeNode) (members : List Nat) : Set TypeId :=
  {id | ∃ i ∈ members, idAt types i = id}

section Component

variable (files : List SchemaFile)

/-- The adjacency that cycles of held types are looked for in. -/
def heldAdjacency : Adjacency :=
  adjacencyBy directTarget? (resolvedTypes files)

/-- The adjacency that cycles of held types are looked for in has a vertex for each resolved type.
-/
theorem length_heldAdjacency : (heldAdjacency files).length = (resolvedTypes files).length :=
  List.length_map _

/-- The edges of the adjacency that cycles of held types are looked for in lead to vertices. -/
theorem closed_heldAdjacency : Closed (heldAdjacency files) :=
  closed_adjacencyBy directTarget? (resolvedTypes files)

variable {files}

/-- An edge leads to a type that the type at its start holds. -/
theorem holds_of_edge {i j : Nat} (h : Edge (heldAdjacency files) i j) :
    Holds files (idAt (resolvedTypes files) i) (idAt (resolvedTypes files) j) := by
  rw [← refers_resolvedTypes_eq_holds]
  exact Edge.refers h

/-- Vertices reach each other exactly as their types hold each other. -/
theorem reflTransGen_edge_iff {i j : Nat} (hi : i < (resolvedTypes files).length)
    (hj : j < (resolvedTypes files).length) :
    ReflTransGen (Edge (heldAdjacency files)) i j ↔
      ReflTransGen (Holds files) (idAt (resolvedTypes files) i) (idAt (resolvedTypes files) j) := by
  have hdistinct := resolvedTypes_nodup files
  have hiff := reflTransGen_positionAt_iff directTarget? hdistinct (idAt_mem hi) (idAt_mem hj)
  rwa [positionAt_idAt hdistinct hi, positionAt_idAt hdistinct hj,
    refers_resolvedTypes_eq_holds] at hiff

/-- The types of a component are those that hold each other with the type at one of its vertices. -/
theorem mem_idsAt_peersOf_iff {v : Nat} (hv : v < (resolvedTypes files).length) (b : TypeId) :
    b ∈ idsAt (resolvedTypes files) (peersOf (heldAdjacency files) v) ↔
      Declared files b ∧ ReflTransGen (Holds files) (idAt (resolvedTypes files) v) b ∧
        ReflTransGen (Holds files) b (idAt (resolvedTypes files) v) := by
  have hlength := length_heldAdjacency files
  have hclosed := closed_heldAdjacency files
  constructor
  · intro h
    obtain ⟨i, hi, rfl⟩ := h
    obtain ⟨hi, hforth, hback⟩ := (mem_peersOf_iff _ _ i).mp hi
    rw [hlength] at hi
    exact ⟨(mem_ids_resolvedTypes_iff files _).mp (idAt_mem hi),
      (reflTransGen_edge_iff hv hi).mp hforth, (reflTransGen_edge_iff hi hv).mp hback⟩
  · intro h
    obtain ⟨hdeclared, hforth, hback⟩ := h
    have hmem := (mem_ids_resolvedTypes_iff files b).mpr hdeclared
    have hi := positionAt_lt hmem
    rw [← idAt_positionAt hmem] at hforth hback
    refine ⟨positionAt (resolvedTypes files) b, ?_, idAt_positionAt hmem⟩
    exact (mem_peersOf_iff _ _ _).mpr ⟨hlength ▸ hi, (reflTransGen_edge_iff hv hi).mpr hforth,
      (reflTransGen_edge_iff hi hv).mpr hback⟩

/-! ## The error for a component -/

/-- A component lies on a cycle unless it is a single vertex without an edge to itself. -/
theorem transGen_iff_of_peersOf {adjacency : Adjacency} (hclosed : Closed adjacency) {v : Nat}
    {others : List Nat} (hv : v < adjacency.length) (hpeers : peersOf adjacency v = v :: others) :
    TransGen (Edge adjacency) v v ↔ ¬ (others = [] ∧ ¬ Edge adjacency v v) := by
  constructor
  · intro hcycle hlone
    obtain ⟨rfl, hloop⟩ := hlone
    obtain ⟨w, hedge, hback⟩ := TransGen.head'_iff.mp hcycle
    have hw := (mem_peersOf_iff _ v w).mpr ⟨hclosed v w hedge, .single hedge, hback⟩
    rw [hpeers, List.mem_singleton] at hw
    exact hloop (hw ▸ hedge)
  · intro hlone
    by_cases hloop : Edge adjacency v v
    · exact .single hloop
    · obtain ⟨u, hu⟩ := List.exists_mem_of_ne_nil others fun hnone => hlone ⟨hnone, hloop⟩
      have hnodup : (v :: others).Nodup := hpeers ▸ List.nodup_range.filter _
      have hmem : u ∈ peersOf adjacency v := hpeers ▸ List.mem_cons_of_mem v hu
      obtain ⟨-, hforth, hback⟩ := (mem_peersOf_iff _ v u).mp hmem
      rcases Relation.reflTransGen_iff_eq_or_transGen.mp hforth with rfl | hforth
      · exact absurd hu (List.nodup_cons.mp hnodup).1
      · exact hforth.trans_left hback

/-- A component is reported exactly if its first vertex lies on a cycle. -/
theorem containmentError?_isSome_iff {v : Nat} (hv : v < (resolvedTypes files).length)
    (hhead : (peersOf (heldAdjacency files) v).head? = some v) :
    (containmentError? (resolvedTypes files) (heldAdjacency files)
      (peersOf (heldAdjacency files) v)).isSome = true ↔
      TransGen (Edge (heldAdjacency files)) v v := by
  obtain ⟨others, hpeers⟩ := List.head?_eq_some_iff.mp hhead
  rw [transGen_iff_of_peersOf (closed_heldAdjacency files) (length_heldAdjacency files ▸ hv) hpeers,
    hpeers, ← containmentError?_eq_none_iff _ _ _ _ hv, Option.isSome_iff_ne_none]

/-- An edge comes from a field that holds the type at its end. -/
theorem exists_field_of_edge {v w : Nat} (h : Edge (heldAdjacency files) v w)
    (hv : v < (resolvedTypes files).length) :
    ∃ field ∈ (resolvedTypes files)[v].fields, directTarget? field =
      some (idAt (resolvedTypes files) w) := by
  obtain ⟨type, htype, field, hfield, target, htarget, hposition⟩ :=
    (edge_adjacencyBy_iff _ _ v w).mp h
  obtain ⟨other, hother, rfl⟩ := getElem?_of_positionOf? hposition
  obtain rfl := Option.some.inj ((List.getElem?_eq_getElem hv).symm.trans htype)
  exact ⟨field, hfield, by rw [htarget, idAt, hother]; rfl⟩

/-- A field of a resolved type that holds another comes from the first declared field of its
name. -/
theorem holdsIn_of_directTarget? {v : Nat} (hv : v < (resolvedTypes files).length) {field : Field}
    (hfield : field ∈ (resolvedTypes files)[v].fields) {target : TypeId}
    (htarget : directTarget? field = some target) :
    ∃ declaration ∈ firstDeclarations files, declaredId declaration = (resolvedTypes files)[v].id ∧
      ∃ source ∈ firstFields declaration, source.span = field.span ∧
        HoldsIn files (resolvedTypes files)[v].id source target := by
  obtain ⟨declaration, hdeclaration, htype⟩ := List.mem_map.mp (List.getElem_mem hv)
  rw [← htype] at hfield ⊢
  obtain ⟨source, hsource, hresolve⟩ := (mem_resolveDeclaration_fields_iff _ _ field).mp hfield
  have hholds := (directTarget?_resolveField_iff _ _ source target).mp ⟨field, hresolve, htarget⟩
  rw [mem_knownIds_eq] at hholds
  exact ⟨declaration, hdeclaration, rfl, source, hsource,
    (translates_of_resolveField hresolve).span_eq.symm, hholds⟩

/-- What is reported about a component in which a walk was found: the types on the walk, at the
place of a field of the first that leads to the second. -/
theorem eq_containsItself_of_containmentError? {types : List TypeNode} {adjacency : Adjacency}
    {v w : Nat} {others way : List Nat} (hv : v < types.length)
    (hwalk : closedWalk adjacency (v :: others) v = v :: way ++ [v])
    (hinside : ∀ u ∈ v :: way ++ [v], u < types.length) (hfirst : (way ++ [v]).head? = some w)
    (hleads : ∃ field ∈ types[v].fields, directTarget? field = some (idAt types w))
    {error : GraphError} (h : containmentError? types adjacency (v :: others) = some error) :
    ∃ field ∈ types[v].fields, directTarget? field = some (idAt types w) ∧
      error = .containsItself (idAt types v) (idAt types v :: way.map (idAt types) ++
        [idAt types v]) field.span := by
  have hids := map_id_filterMap_getElem? hinside
  have hat := List.getElem?_eq_getElem hv
  have hnext : ((v :: way ++ [v]).filterMap fun i => types[i]?)[1]?.map TypeNode.id =
      some (idAt types w) := by
    rw [← List.getElem?_map, hids, List.cons_append, List.map_cons, List.getElem?_cons_succ,
      ← List.head?_eq_getElem?, List.head?_map, hfirst]
    rfl
  simp only [containmentError?, hwalk, hat, hnext, hids, Option.isSome_some, true_and] at h
  split at h
  · contradiction
  · obtain rfl := Option.some.inj h
    obtain ⟨field, hfield, htarget⟩ := hleads
    have hsome :
        (types[v].fields.find? fun field => directTarget? field = some (idAt types w)).isSome =
          true :=
      List.find?_isSome.mpr ⟨field, hfield, by simpa using htarget⟩
    obtain ⟨found, hfound⟩ := Option.isSome_iff_exists.mp hsome
    refine ⟨found, List.mem_of_find?_eq_some hfound, by simpa using List.find?_some hfound, ?_⟩
    rw [hfound, id_getElem hv]
    simp

/-- The first of the peers of a vertex is the least. -/
theorem head_le_of_mem_peersOf {adjacency : Adjacency} {v first w : Nat}
    (hhead : (peersOf adjacency v).head? = some first) (hw : w ∈ peersOf adjacency v) :
    first ≤ w := by
  obtain ⟨others, hothers⟩ := List.head?_eq_some_iff.mp hhead
  have hsorted : (peersOf adjacency v).Pairwise (· < ·) := List.pairwise_lt_range.filter _
  rw [hothers] at hsorted hw
  rcases List.mem_cons.mp hw with rfl | hw
  · exact Nat.le_refl _
  · exact Nat.le_of_lt ((List.pairwise_cons.mp hsorted).1 w hw)

/-- The type at the first vertex of a component comes first among its types. -/
theorem idAt_head_upTo {v first : Nat}
    (hhead : (peersOf (heldAdjacency files) v).head? = some first) {b : TypeId}
    (hb : b ∈ idsAt (resolvedTypes files) (peersOf (heldAdjacency files) v)) :
    (idAt (resolvedTypes files) first).upTo b = true := by
  obtain ⟨i, hi, rfl⟩ := hb
  rcases Nat.eq_or_lt_of_le (head_le_of_mem_peersOf hhead hi) with rfl | hlt
  · exact TypeId.upTo_refl _
  · have hlength : i < (resolvedTypes files).length :=
      length_heldAdjacency files ▸ List.mem_range.mp (List.mem_filter.mp hi).1
    exact (idAt_before (resolvedTypes_nodup files) (resolvedTypes_sorted files) hlt hlength).1

/-- The error for a component reports its knot. -/
theorem reportsKnot_of_containmentError? {v : Nat} (hv : v < (resolvedTypes files).length)
    (hhead : (peersOf (heldAdjacency files) v).head? = some v) {error : GraphError}
    (h : containmentError? (resolvedTypes files) (heldAdjacency files)
      (peersOf (heldAdjacency files) v) = some error) :
    ReportsKnot files (idsAt (resolvedTypes files) (peersOf (heldAdjacency files) v)) error := by
  have hclosed := closed_heldAdjacency files
  have hlength := length_heldAdjacency files
  have hdistinct := resolvedTypes_nodup files
  have hcycle := (containmentError?_isSome_iff hv hhead).mp (Option.isSome_of_eq_some h)
  obtain ⟨way, hwalk, hway⟩ := exists_closedWalk hclosed (hlength ▸ hv) hcycle
  have hinside : ∀ u ∈ v :: way ++ [v], u < (resolvedTypes files).length := by
    refine List.forall_mem_cons.mpr ⟨hv, fun u hu => ?_⟩
    exact hlength ▸ ((mem_peersOf_iff _ _ u).mp (hway.inside u hu)).1
  obtain ⟨w, hw, hfirst⟩ := hway.first
  have hreported := h
  obtain ⟨others, hothers⟩ := List.head?_eq_some_iff.mp hhead
  rw [hothers] at hreported hwalk
  obtain ⟨found, hfound, hheld, rfl⟩ := eq_containsItself_of_containmentError?
    hv hwalk hinside hfirst (exists_field_of_edge hw hv) hreported
  refine .intro _ _ _ ⟨v, List.mem_of_head? hhead, rfl⟩
    (fun b hb => idAt_head_upTo hhead hb) ?_ ?_ ?_ ?_
  · intro b hb
    obtain ⟨i, hi, rfl⟩ := List.mem_map.mp hb
    exact ⟨i, hway.inside i (List.mem_append_left _ hi), rfl⟩
  · rw [← List.map_cons]
    exact hway.simple.map_on
      fun i hi j hj => idAt_inj hdistinct (hinside i (List.mem_append_left _ hi))
      (hinside j (List.mem_append_left _ hj))
  · have hids := (List.isChain_map (idAt (resolvedTypes files)) (R := Holds files)).mpr
      (hway.closed.imp fun _ _ hedge => holds_of_edge hedge)
    simpa using hids
  · obtain ⟨declaration, hdeclaration, hid, source, hsource, hspan, hholds⟩ :=
      holdsIn_of_directTarget? hv hfound hheld
    rw [id_getElem hv] at hid hholds
    refine ⟨declaration, hdeclaration, hid, source, hsource, hspan,
      idAt (resolvedTypes files) w, ?_, hholds⟩
    have hsecond := congrArg (Option.map (idAt (resolvedTypes files))) hfirst
    rwa [← List.head?_map, List.map_append] at hsecond

end Component

/-! ## All knots -/

section Knots

variable (files : List SchemaFile)

/-- The components that are reported. -/
def reportedComponents : List (List Nat) :=
  (components (heldAdjacency files)).filter fun members =>
    (containmentError? (resolvedTypes files) (heldAdjacency files) members).isSome

variable {files}

/-- A component is reported exactly if it consists of the peers of its first vertex, which lies on a
cycle. -/
theorem mem_reportedComponents_iff (members : List Nat) :
    members ∈ reportedComponents files ↔ ∃ v < (resolvedTypes files).length,
      members = peersOf (heldAdjacency files) v ∧ members.head? = some v ∧
        TransGen (Edge (heldAdjacency files)) v v := by
  rw [reportedComponents, List.mem_filter, mem_components_iff (closed_heldAdjacency files),
    length_heldAdjacency]
  constructor
  · intro h
    obtain ⟨⟨v, hv, rfl, hhead⟩, hsome⟩ := h
    exact ⟨v, hv, rfl, hhead, (containmentError?_isSome_iff hv hhead).mp hsome⟩
  · intro h
    obtain ⟨v, hv, rfl, hhead, hcycle⟩ := h
    exact ⟨⟨v, hv, rfl, hhead⟩, (containmentError?_isSome_iff hv hhead).mpr hcycle⟩

/-- The containment errors are those for the reported components. -/
theorem containmentErrors_eq :
    containmentErrors (resolvedTypes files) =
      (reportedComponents files).filterMap
        (containmentError? (resolvedTypes files) (heldAdjacency files)) := by
  have hall : containmentErrors (resolvedTypes files) = (components (heldAdjacency files)).filterMap
      (containmentError? (resolvedTypes files) (heldAdjacency files)) := rfl
  rw [hall, reportedComponents, List.filterMap_filter]
  refine List.filterMap_congr fun members _ => ?_
  cases containmentError? (resolvedTypes files) (heldAdjacency files) members <;> rfl

/-- The types of a reported component form a knot. -/
theorem knot_idsAt {members : List Nat} (h : members ∈ reportedComponents files) :
    Knot files (idsAt (resolvedTypes files) members) := by
  obtain ⟨v, hv, rfl, -, hcycle⟩ := (mem_reportedComponents_iff members).mp h
  have hdeclared := (mem_ids_resolvedTypes_iff files _).mp (idAt_mem hv)
  refine ⟨⟨_, hdeclared, mem_idsAt_peersOf_iff hv⟩, idAt (resolvedTypes files) v, ?_, ?_⟩
  · exact (mem_idsAt_peersOf_iff hv _).mpr ⟨hdeclared, .refl, .refl⟩
  · obtain ⟨w, hedge, hback⟩ := TransGen.head'_iff.mp hcycle
    have hw : w < (resolvedTypes files).length :=
      length_heldAdjacency files ▸ closed_heldAdjacency files v w hedge
    have hholds := holds_of_edge hedge
    exact ⟨_, (mem_idsAt_peersOf_iff hv _).mpr
      ⟨(mem_ids_resolvedTypes_iff files _).mp (idAt_mem hw), .single hholds,
        (reflTransGen_edge_iff hw hv).mp hback⟩, hholds⟩

/-- Every knot is made of the types of a reported component. -/
theorem exists_reportedComponent {knot : Set TypeId} (h : Knot files knot) :
    ∃ members ∈ reportedComponents files, idsAt (resolvedTypes files) members = knot := by
  have hclosed := closed_heldAdjacency files
  have hlength := length_heldAdjacency files
  obtain ⟨a, hdeclared, hknot⟩ := h.component
  have hmem := (mem_ids_resolvedTypes_iff files a).mpr hdeclared
  have hi := positionAt_lt hmem
  obtain ⟨v, hv, hpeers, hhead⟩ := (mem_components_iff (closed_heldAdjacency files) _).mp
    (peersOf_mem_components hclosed (hlength ▸ hi : positionAt (resolvedTypes files) a < _))
  rw [hpeers] at hhead
  have hsame : idsAt (resolvedTypes files) (peersOf (heldAdjacency files) v) = knot := by
    rw [← hpeers]
    ext b
    rw [mem_idsAt_peersOf_iff hi, idAt_positionAt hmem, hknot]
  rw [hlength] at hv
  refine ⟨_, (mem_reportedComponents_iff _).mpr ⟨v, hv, rfl, hhead, ?_⟩, hsame⟩
  obtain ⟨b, hb, c, hc, hholds⟩ := h.edge
  rw [← hsame, mem_idsAt_peersOf_iff hv] at hb hc
  have hcycle : TransGen (Holds files) (idAt (resolvedTypes files) v)
      (idAt (resolvedTypes files) v) :=
    ((TransGen.single hholds).trans_right hb.2.1).trans_left hc.2.2
  rw [← refers_resolvedTypes_eq_holds] at hcycle
  have hpositions : TransGen (Edge (heldAdjacency files))
      (positionAt (resolvedTypes files) (idAt (resolvedTypes files) v))
      (positionAt (resolvedTypes files) (idAt (resolvedTypes files) v)) :=
    hcycle.lift (positionAt (resolvedTypes files))
      fun _ _ hrefers => hrefers.edge (resolvedTypes_nodup files)
  rwa [positionAt_idAt (resolvedTypes_nodup files) hv] at hpositions

/-- The types of reported components are in the order of their first types. -/
theorem reportedComponents_precede :
    ((reportedComponents files).map (idsAt (resolvedTypes files))).Pairwise
    Precedes := by
  refine List.pairwise_map.mpr
    (((components_pairwise (closed_heldAdjacency files)).filter _).imp_of_mem
      fun {members others} hm ho hlt => ?_)
  obtain ⟨v, hv, rfl, hhead, -⟩ := (mem_reportedComponents_iff members).mp hm
  obtain ⟨w, hw, rfl, hhead', -⟩ := (mem_reportedComponents_iff others).mp ho
  have hvw := hlt v w hhead hhead'
  refine ⟨idAt (resolvedTypes files) v, ⟨v, List.mem_of_head? hhead, rfl⟩, fun b hb => ?_⟩
  obtain ⟨j, hj, rfl⟩ := hb
  have hwj := head_le_of_mem_peersOf hhead' hj
  have hlength : j < (resolvedTypes files).length :=
    List.mem_range.mp (List.mem_filter.mp hj).1 |>.trans_eq (length_heldAdjacency files)
  exact idAt_before (resolvedTypes_nodup files) (resolvedTypes_sorted files)
    (Nat.lt_of_lt_of_le hvw hwj) hlength

end Knots

/-- The containment errors report the knots, one error for each knot, in the order of their first
types. -/
theorem containmentErrors_report (files : List SchemaFile) :
    ∃ knots : List (Set TypeId), (∀ knot, knot ∈ knots ↔ Knot files knot) ∧
      knots.Pairwise Precedes ∧
      List.Forall₂ (ReportsKnot files) knots (containmentErrors (resolvedTypes files)) := by
  refine ⟨(reportedComponents files).map (idsAt (resolvedTypes files)), ?_,
    reportedComponents_precede, ?_⟩
  · intro knot
    rw [List.mem_map]
    constructor
    · intro h
      obtain ⟨members, hmembers, rfl⟩ := h
      exact knot_idsAt hmembers
    · exact exists_reportedComponent
  · rw [containmentErrors_eq, List.forall₂_map_left_iff]
    refine forall₂_filterMap fun members hmembers => ?_
    obtain ⟨hcomponent, hsome⟩ := List.mem_filter.mp hmembers
    obtain ⟨error, herror⟩ := Option.isSome_iff_exists.mp hsome
    obtain ⟨v, hv, rfl, hhead⟩ := (mem_components_iff (closed_heldAdjacency files) _).mp hcomponent
    exact ⟨error, herror, reportsKnot_of_containmentError? (length_heldAdjacency files ▸ hv)
      hhead herror⟩

/-! ## Among all errors -/

/-- Repeated names are not reported as types that contain themselves. -/
theorem isContainment_of_mem_duplicates {earlier declarations : List Schema.TypeDecl}
    {error : GraphError} (h : error ∈ duplicates earlier declarations) :
    error.isContainment = false := by
  have hrepetition := isRepetition_of_mem_duplicates h
  cases error <;> first | rfl | contradiction

/-- What is wrong with a field is not reported as a type that contains itself. -/
theorem isContainment_of_mem_fieldErrors {known : List TypeId} {owner : TypeId}
    {field : Schema.Field} {error : GraphError} (h : error ∈ fieldErrors known owner field) :
    error.isContainment = false := by
  obtain ⟨missing, -, rfl⟩ | ⟨type, -, ⟨value, rfl⟩ | ⟨validator, rfl⟩ | ⟨value, rfl⟩⟩ :=
    cases_of_mem_fieldErrors h <;> rfl

/-- A component with a cycle of held types is reported as a type that contains itself. -/
theorem isContainment_of_containmentError? {types : List TypeNode} {adjacency : Adjacency}
    {members : List Nat} {error : GraphError}
    (h : containmentError? types adjacency members = some error) :
    error.isContainment = true := by
  unfold containmentError? at h
  split at h
  · contradiction
  · split at h
    · contradiction
    · dsimp only at h
      split at h
      · contradiction
      · obtain rfl := Option.some.inj h
        rfl

/-- What building reports is what its checks report, in their order. -/
theorem buildErrors_eq (files : List SchemaFile) :
    buildErrors files = duplicates [] (declarationsOf files) ++
      (firstDeclarations files).flatMap (declarationErrors (knownIds files)) ++
        containmentErrors (resolvedTypes files) := by
  cases hbuild : build files with
  | ok graph =>
    obtain ⟨hduplicates, hdeclarations, hcontainment, -⟩ := (build_eq_ok_iff files graph).mp hbuild
    rw [buildErrors, hbuild, hduplicates, hdeclarations, hcontainment]
    rfl
  | error errors =>
    rw [buildErrors, hbuild]
    simp only [build] at hbuild
    split at hbuild
    · contradiction
    · exact (Except.error.inj hbuild).symm

/-- For all schema files, the errors about types that contain themselves report the knots of types
that hold each other: one error for each knot, in the order of their first types, and each says what
is so about its knot. -/
theorem knots_reported (files : List SchemaFile) :
    ∃ knots : List (Set TypeId), (∀ knot, knot ∈ knots ↔ Knot files knot) ∧
      knots.Pairwise Precedes ∧
      List.Forall₂ (ReportsKnot files) knots
        ((buildErrors files).filter GraphError.isContainment) := by
  obtain ⟨knots, hknots, hsorted, hreports⟩ := containmentErrors_report files
  have hcontainment : (containmentErrors (resolvedTypes files)).filter GraphError.isContainment =
      containmentErrors (resolvedTypes files) := by
    refine List.filter_eq_self.mpr fun error herror => ?_
    obtain ⟨members, -, herror⟩ := List.mem_filterMap.mp herror
    exact isContainment_of_containmentError? herror
  have hothers : (duplicates [] (declarationsOf files) ++ (firstDeclarations files).flatMap
      (declarationErrors (knownIds files))).filter GraphError.isContainment = [] := by
    refine List.filter_eq_nil_iff.mpr fun error herror => ?_
    rw [Bool.not_eq_true]
    rcases List.mem_append.mp herror with h | h
    · exact isContainment_of_mem_duplicates h
    · obtain ⟨declaration, -, h⟩ := List.mem_flatMap.mp h
      obtain ⟨field, -, h⟩ := List.mem_flatMap.mp h
      exact isContainment_of_mem_fieldErrors h
  refine ⟨knots, hknots, hsorted, ?_⟩
  rwa [buildErrors_eq, List.filter_append, hothers, hcontainment, List.nil_append]

/-- A type that holds itself beside two that hold each other, one of them by a name that is declared
again, and a field that means nothing. -/
def tangledSchemas : List SchemaFile :=
  [⟨"b.schema", "b", [
      ⟨"Self", "b", [⟨"me", .named [] "Self", false, none, [], none, .nowhere⟩], none, .nowhere⟩,
      ⟨"Tail", "b", [⟨"head", .named [] "Head", false, none, [], none, .nowhere⟩,
        ⟨"lost", .named [] "Lost", false, none, [], none, .nowhere⟩], none, .nowhere⟩,
      ⟨"Head", "b", [⟨"me", .named [] "Self", false, none, [], none, .nowhere⟩,
        ⟨"tail", .named [] "Tail", false, none, [], none, .nowhere⟩], none, .nowhere⟩,
      ⟨"Head", "b", [], none, .nowhere⟩]⟩]

example : (buildErrors tangledSchemas).filter GraphError.isContainment =
    [.containsItself ⟨"b", "Head"⟩ [⟨"b", "Head"⟩, ⟨"b", "Tail"⟩, ⟨"b", "Head"⟩] .nowhere,
      .containsItself ⟨"b", "Self"⟩ [⟨"b", "Self"⟩, ⟨"b", "Self"⟩] .nowhere] := by
  cbv

end SchemaBindings.Graph
