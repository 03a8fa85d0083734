import SchemaBindings.Proofs.Graph.Knots

/-!
# Which types are named where types contain themselves

Every type that holds itself, directly or through others, is in one knot, and one error reports that
knot. No other error names any type of it. The error shows one way around, from the first type of
the knot back to it. So a type that every such way passes is named in exactly one error, above all
the first type itself and each type of a knot that is a single ring. A type that the way shown
leaves out is named in none.
-/

namespace SchemaBindings.Graph

open Relation (ReflTransGen TransGen)
open SchemaBindings.Schema (SchemaFile)

/-- The types that an error names as containing each other. -/
def GraphError.cycle : GraphError → List TypeId
  | .containsItself _ cycle _ => cycle
  | _ => []

/-- The types that hold each other with a type. -/
def knotOf (files : List SchemaFile) (a : TypeId) : Set TypeId :=
  {b | ReflTransGen (Holds files) a b ∧ ReflTransGen (Holds files) b a}

/-- Whether types, one behind the other, are a simple way from a type back to itself inside its
knot. -/
structure ClosedWay (files : List SchemaFile) (start : TypeId) (way : List TypeId) : Prop where
  inside : ∀ b ∈ way, b ∈ knotOf files start
  simple : (start :: way).Nodup
  chain : List.IsChain (Holds files) (start :: way ++ [start])

/-- Whether every simple way around from the first type of its knot passes a type. -/
def Unavoidable (files : List SchemaFile) (a : TypeId) : Prop :=
  ∀ least ∈ knotOf files a, (∀ b ∈ knotOf files a, least.upTo b = true) →
    ∀ way, ClosedWay files least way → a ∈ least :: way

/-- Whether each type of a knot holds only one type of the knot. -/
def Ring (files : List SchemaFile) (a : TypeId) : Prop :=
  ∀ b ∈ knotOf files a, ∀ c ∈ knotOf files a, ∀ d ∈ knotOf files a, Holds files b c →
    Holds files b d → c = d

/-- What is reported about a type that holds itself: one error reports its knot and no other error
names a type of it. -/
structure Mentioned (files : List SchemaFile) (a : TypeId) (error : GraphError) : Prop where
  reports : ReportsKnot files (knotOf files a) error
  alone : ∃ before behind, buildErrors files = before ++ error :: behind ∧
    ∀ other ∈ before ++ behind, ∀ b ∈ knotOf files a, b ∉ other.cycle
  count : (buildErrors files).countP (fun error => a ∈ error.cycle) = if a ∈ error.cycle then 1
    else 0
  named : Unavoidable files a → a ∈ error.cycle
  ring : Ring files a → a ∈ error.cycle

/-! ## Knots of types -/

section Knots

variable {files : List SchemaFile} {a b : TypeId}

/-- A type that holds another is declared. -/
theorem Holds.declared_left (h : Holds files a b) : Declared files a := by
  obtain ⟨declaration, hdeclaration, rfl, -⟩ := h
  exact ⟨declaration, mem_of_mem_firstDeclarations hdeclaration, rfl⟩

/-- A type that is held by another is declared. -/
theorem Holds.declared_right (h : Holds files a b) : Declared files b := by
  obtain ⟨_, -, _, _, -, -, hmeans⟩ := h
  exact hmeans.declared rfl

/-- A type is in its knot. -/
theorem mem_knotOf_self (files : List SchemaFile) (a : TypeId) : a ∈ knotOf files a :=
  ⟨.refl, .refl⟩

/-- The types that hold each other with a type that holds itself form a knot. -/
theorem knot_knotOf (h : TransGen (Holds files) a a) : Knot files (knotOf files a) := by
  obtain ⟨first, hfirst, hback⟩ := TransGen.head'_iff.mp h
  refine ⟨⟨a, hfirst.declared_left, fun b => ⟨fun hb => ⟨?_, hb⟩, fun hb => hb.2⟩⟩, ?_⟩
  · rcases ReflTransGen.cases_tail hb.1 with rfl | ⟨last, -, hlast⟩
    · exact hfirst.declared_left
    · exact hlast.declared_right
  · exact ⟨a, mem_knotOf_self files a, first, ⟨.single hfirst, hback⟩, hfirst⟩

/-- A knot consists of the types that hold each other with any of its types. -/
theorem Knot.eq_knotOf {knot : Set TypeId} (h : Knot files knot) (ha : a ∈ knot) :
    knot = knotOf files a := by
  obtain ⟨root, hroot, hknot⟩ := h.component
  obtain ⟨-, hto, hfrom⟩ := (hknot a).mp ha
  ext b
  constructor
  · intro hb
    obtain ⟨-, hb, hback⟩ := (hknot b).mp hb
    exact ⟨hfrom.trans hb, hback.trans hto⟩
  · intro hb
    refine (hknot b).mpr ⟨?_, hto.trans hb.1, hb.2.trans hfrom⟩
    rcases ReflTransGen.cases_tail (hto.trans hb.1) with rfl | ⟨last, -, hlast⟩
    · exact hroot
    · exact hlast.declared_right

/-- The knot of a type is that of any type in it. -/
theorem knotOf_eq_of_mem (h : b ∈ knotOf files a) : knotOf files a = knotOf files b := by
  ext c
  exact ⟨fun hc => ⟨h.2.trans hc.1, hc.2.trans h.1⟩, fun hc => ⟨h.1.trans hc.1, hc.2.trans h.2⟩⟩

/-- Each type on a way around holds another one on it. -/
theorem ClosedWay.exists_next {start : TypeId} {way : List TypeId} (h : ClosedWay files start way)
    (hb : b ∈ start :: way) : ∃ next ∈ start :: way, Holds files b next := by
  obtain ⟨before, behind, hsplit⟩ := List.append_of_mem hb
  have hchain := h.chain
  rw [hsplit, List.append_assoc, List.cons_append] at hchain
  cases behind with
  | nil => exact ⟨start, List.mem_cons_self, (List.isChain_cons_cons.mp hchain.right_of_append).1⟩
  | cons next behind =>
    refine ⟨next, ?_, (List.isChain_cons_cons.mp hchain.right_of_append).1⟩
    rw [hsplit]
    simp

/-- In a knot where each type holds only one type of the knot, none can be avoided. The types passed
hold each other and nothing else of the knot, so nothing else of it is reached from them. -/
theorem unavoidable_of_ring (h : Ring files a) : Unavoidable files a := by
  intro least hleast _ way hway
  have hknot := knotOf_eq_of_mem hleast
  have hpassed : ∀ b, ReflTransGen (Holds files) least b → b ∈ knotOf files a →
      b ∈ least :: way := by
    intro b hreach hb
    induction hreach with
    | refl => exact List.mem_cons_self
    | @tail c b hreach hholds ih =>
      have hc : c ∈ knotOf files a := ⟨hleast.1.trans hreach, .head hholds hb.2⟩
      obtain ⟨next, hnext, hedge⟩ := hway.exists_next (ih hc)
      have hinside : next ∈ knotOf files a := by
        rcases List.mem_cons.mp hnext with rfl | hnext
        · exact hleast
        · exact hknot ▸ hway.inside next hnext
      exact h c hc b hb next hinside hholds hedge ▸ hnext
  exact hpassed a hleast.2 (mem_knotOf_self files a)

/-- Knots that precede each other are different. -/
theorem nodup_of_precedes {knots : List (Set TypeId)} (h : knots.Pairwise Precedes) :
    knots.Nodup := by
  refine h.imp fun hprecedes heq => ?_
  obtain ⟨first, hfirst, hbefore⟩ := hprecedes
  exact (hbefore first (heq ▸ hfirst)).2 rfl

end Knots

/-! ## The types that errors name -/

/-- The error for a knot names types of that knot only. -/
theorem ReportsKnot.mem_of_mem_cycle {files : List SchemaFile} {knot : Set TypeId}
    {error : GraphError} (h : ReportsKnot files knot error) {b : TypeId} (hb : b ∈ error.cycle) :
    b ∈ knot := by
  obtain ⟨least, way, span, hmem, -, hinside, -⟩ := h
  rw [GraphError.cycle, List.mem_append, List.mem_cons, List.mem_singleton] at hb
  rcases hb with (rfl | hb) | rfl
  · exact hmem
  · exact hinside b hb
  · exact hmem

/-- The error for a knot names every type of it that cannot be avoided. -/
theorem ReportsKnot.mem_cycle {files : List SchemaFile} {a : TypeId} {error : GraphError}
    (h : ReportsKnot files (knotOf files a) error) (ha : Unavoidable files a) :
    a ∈ error.cycle := by
  obtain ⟨least, way, span, hmem, hleast, hinside, hsimple, hchain, -⟩ := h
  rw [knotOf_eq_of_mem hmem] at hinside
  exact List.mem_append_left _ (ha least hmem hleast way ⟨hinside, hsimple, hchain⟩)

/-- An error about anything else names no types. -/
theorem cycle_eq_nil {error : GraphError} (h : error.isContainment = false) : error.cycle = [] := by
  cases error <;> first | rfl | contradiction

/-- Where two lists are related and nothing is twice in the first, all but one element of the second
are related to others than a given element of the first. -/
theorem exists_append_of_forall₂ {α β : Type} {r : α → β → Prop} {elements : List α}
    {images : List β} (h : List.Forall₂ r elements images) (hnodup : elements.Nodup) {a : α}
    (ha : a ∈ elements) :
    ∃ before b behind, images = before ++ b :: behind ∧ r a b ∧
      ∀ other ∈ before ++ behind, ∃ element ∈ elements, element ≠ a ∧ r element other := by
  induction h with
  | nil => exact absurd ha List.not_mem_nil
  | @cons element image rest others hrelated hrest ih =>
    obtain ⟨hnew, hnodup⟩ := List.nodup_cons.mp hnodup
    rcases List.mem_cons.mp ha with rfl | ha
    · refine ⟨[], image, others, rfl, hrelated, fun other hother => ?_⟩
      obtain ⟨element, helement, hrelated⟩ := exists_of_forall₂ hrest hother
      exact ⟨element, List.mem_cons_of_mem a helement, fun heq => hnew (heq ▸ helement), hrelated⟩
    · obtain ⟨before, b, behind, rfl, hb, hothers⟩ := ih hnodup ha
      refine ⟨image :: before, b, behind, rfl, hb,
        List.forall_mem_cons.mpr ⟨?_, fun other hother => ?_⟩⟩
      · exact ⟨element, List.mem_cons_self, fun heq => hnew (heq ▸ ha), hrelated⟩
      · obtain ⟨related, hmem, hne, hrelated⟩ := hothers other hother
        exact ⟨related, List.mem_cons_of_mem element hmem, hne, hrelated⟩

/-- Where all elements but one of a list fail a check, that one alone decides how many pass it. -/
theorem countP_append_cons {α : Type} (check : α → Prop) [DecidablePred check]
    {before behind : List α} (a : α) (h : ∀ other ∈ before ++ behind, ¬ check other) :
    (before ++ a :: behind).countP (fun other => check other) = if check a then 1 else 0 := by
  have hbefore : before.countP (fun other => decide (check other)) = 0 :=
    List.countP_eq_zero.mpr
      fun other hother => by simpa using h other (List.mem_append_left _ hother)
  have hbehind : behind.countP (fun other => decide (check other)) = 0 :=
    List.countP_eq_zero.mpr
      fun other hother => by simpa using h other (List.mem_append_right _ hother)
  rw [List.countP_append, List.countP_cons, hbefore, hbehind]
  simp

/-- For all schema files, every type that holds itself, directly or through others, is in a knot
that exactly one error reports. No other error names any type of that knot, so the type is named in
exactly one error if it is on the way around that this one shows, as it is if it cannot be avoided,
and else in none. -/
theorem mentioned_of_cycle {files : List SchemaFile} {a : TypeId} (h : TransGen (Holds files) a a) :
    ∃ error, Mentioned files a error := by
  obtain ⟨knots, hknots, hsorted, hreports⟩ := containmentErrors_report files
  obtain ⟨before, error, behind, hcontainment, hreport, hothers⟩ := exists_append_of_forall₂
    hreports (nodup_of_precedes hsorted) ((hknots _).mpr (knot_knotOf h))
  have hbuild := buildErrors_eq files
  rw [hcontainment, ← List.append_assoc] at hbuild
  have halone : ∀ other ∈ (duplicates [] (declarationsOf files) ++ (firstDeclarations files).flatMap
      (declarationErrors (knownIds files)) ++ before) ++ behind,
      ∀ b ∈ knotOf files a, b ∉ other.cycle := by
    intro other hother b hb hmem
    rw [List.append_assoc, List.append_assoc] at hother
    rcases List.mem_append.mp hother with hother | hother
    · rw [cycle_eq_nil (isContainment_of_mem_duplicates hother)] at hmem
      exact List.not_mem_nil hmem
    rcases List.mem_append.mp hother with hother | hother
    · obtain ⟨declaration, -, hother⟩ := List.mem_flatMap.mp hother
      obtain ⟨field, -, hother⟩ := List.mem_flatMap.mp hother
      rw [cycle_eq_nil (isContainment_of_mem_fieldErrors hother)] at hmem
      exact List.not_mem_nil hmem
    · obtain ⟨knot, hknot, hne, hreport⟩ := hothers other hother
      have hknot := (hknots knot).mp hknot
      rw [hknot.eq_knotOf (hreport.mem_of_mem_cycle hmem), ← (knot_knotOf h).eq_knotOf hb] at hne
      exact hne rfl
  refine ⟨error, hreport, ⟨_, behind, hbuild, halone⟩, ?_, hreport.mem_cycle,
    fun hring => hreport.mem_cycle (unavoidable_of_ring hring)⟩
  rw [hbuild]
  exact countP_append_cons (fun error => a ∈ error.cycle) error fun other hother =>
    halone other hother a (mem_knotOf_self files a)

/-- A field that holds a type of the root namespace. -/
def heldField (name target : String) : Schema.Field :=
  ⟨name, .named [] target, false, none, [], none, .nowhere⟩

/-- Two ways around that meet in their first type. -/
def crossedSchemas : List SchemaFile :=
  [⟨"a.schema", "", [⟨"A", "", [heldField "b" "B", heldField "c" "C"], none, .nowhere⟩,
    ⟨"B", "", [heldField "a" "A"], none, .nowhere⟩,
    ⟨"C", "", [heldField "a" "A"], none, .nowhere⟩]⟩]

/-- The second type of the second way holds itself. -/
theorem transGen_crossedSchemas : TransGen (Holds crossedSchemas) ⟨"", "C"⟩ ⟨"", "C"⟩ := by
  have hfirst : firstDeclarations crossedSchemas = declarationsOf crossedSchemas := by cbv
  have hmeans : ∀ name ∈ ["A", "C"], Means (Declared crossedSchemas) "" (.named [] name)
      (.named ⟨"", name⟩) := by
    intro name hname
    refine .own name (fun kind => ?_) ((mem_map_firstDeclarations_iff _ _).mp ?_)
    · rintro rfl
      cases kind <;> exact absurd hname (by decide)
    · rw [hfirst]
      revert name
      decide
  have hback : Holds crossedSchemas ⟨"", "C"⟩ ⟨"", "A"⟩ := by
    refine ⟨⟨"C", "", [heldField "a" "A"], none, .nowhere⟩, ?_, rfl, heldField "a" "A",
      List.mem_cons_self, rfl, hmeans "A" (by decide)⟩
    rw [hfirst]
    decide
  have hforth : Holds crossedSchemas ⟨"", "A"⟩ ⟨"", "C"⟩ := by
    refine ⟨⟨"A", "", [heldField "b" "B", heldField "c" "C"], none, .nowhere⟩, ?_, rfl,
      heldField "c" "C", ?_, rfl, hmeans "C" (by decide)⟩
    · rw [hfirst]
      decide
    · decide
  exact .tail (.single hback) hforth

/-- The second type of the second way is mentioned by an error. -/
theorem mentioned_crossedSchemas :
    TransGen (Holds crossedSchemas) ⟨"", "C"⟩ ⟨"", "C"⟩ ∧
    ∃ error, Mentioned crossedSchemas ⟨"", "C"⟩ error :=
  ⟨transGen_crossedSchemas, mentioned_of_cycle transGen_crossedSchemas⟩

/-- A type that holds itself need not be named: only one of two ways around is shown. -/
theorem not_named_crossedSchemas :
    TransGen (Holds crossedSchemas) ⟨"", "C"⟩ ⟨"", "C"⟩ ∧
      (buildErrors crossedSchemas).countP (fun error => ⟨"", "C"⟩ ∈ error.cycle) ≠ 1 := by
  have hcount : (buildErrors crossedSchemas).countP (fun error => ⟨"", "C"⟩ ∈ error.cycle) =
      0 := by cbv
  exact ⟨transGen_crossedSchemas, hcount ▸ Nat.zero_ne_one⟩

end SchemaBindings.Graph
