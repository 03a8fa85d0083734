import Mathlib
import SchemaBindings.Proofs.Graph.Acceptance
import SchemaBindings.Proofs.Graph.Spans

/-!
# The order of declarations does not matter

Schema files hold the same declarations if they differ only in how declarations are spread over
files, in the order of declarations and of their fields, and in places. Such files are well-formed
together, and where they are, the types that they become are the same up to places: both are sorted
by keys that are distinct.
-/

namespace SchemaBindings.Graph

open Relation (TransGen)
open SchemaBindings.Schema (SchemaFile TypeDecl)

/-- What a declaration says, whatever the order of its fields and wherever it stands. -/
structure Content where
  id : TypeId
  doc? : Option String
  fields : Multiset Schema.Field

/-- The content of a declaration. -/
def contentOf (declaration : TypeDecl) : Content :=
  ⟨declaredId declaration, declaration.doc?, ↑(declaration.fields.map Schema.Field.withoutSpan)⟩

/-- Whether schema files hold the same declarations, in any order and in any files. -/
def SameDeclarations (files others : List SchemaFile) : Prop :=
  ((declarationsOf files).map contentOf).Perm ((declarationsOf others).map contentOf)

/-! ## Sorting by distinct keys -/

/-- Lists that hold the same are sorted into the same order, if the keys by which they are sorted
are distinct and part of what they hold. -/
theorem map_mergeSort_eq_of_perm {α β κ : Type} (key : α → κ) (content : α → β) (contentKey : β → κ)
    (le : κ → κ → Bool) (hkey : ∀ a, contentKey (content a) = key a)
    (htrans : ∀ a b c, le a b = true → le b c = true → le a c = true)
    (htotal : ∀ a b, (le a b || le b a) = true)
    (hantisymm : ∀ a b, le a b = true → le b a = true → a = b) {elements others : List α}
    (hnodup : (elements.map key).Nodup) (hperm : (elements.map content).Perm (others.map content)) :
    (elements.mergeSort fun a b => le (key a) (key b)).map content =
      (others.mergeSort fun a b => le (key a) (key b)).map content := by
  have hsorted : ∀ list : List α,
      ((list.mergeSort fun a b => le (key a) (key b)).map content).Pairwise
      fun a b => le (contentKey a) (contentKey b) = true := by
    intro list
    rw [List.pairwise_map]
    simp only [hkey]
    exact List.pairwise_mergeSort (fun a b c => htrans (key a) (key b) (key c))
      (fun a b => htotal (key a) (key b)) list
  have hsame : ((elements.mergeSort fun a b => le (key a) (key b)).map content).Perm
      ((others.mergeSort fun a b => le (key a) (key b)).map content) :=
    (((List.mergeSort_perm elements _).map content).trans hperm).trans
      ((List.mergeSort_perm others _).map content).symm
  refine List.Perm.eq_of_pairwise (fun a b ha hb hab hba => ?_) (hsorted elements)
    (hsorted others) hsame
  have hkeys : (((elements.mergeSort fun a b => le (key a) (key b)).map content).map
        contentKey).Nodup := by
    rw [List.map_map, show contentKey ∘ content = key from funext hkey]
    exact ((List.mergeSort_perm elements _).map key).nodup_iff.mpr hnodup
  exact List.inj_on_of_nodup_map hkeys ha (hsame.mem_iff.mpr hb) (hantisymm _ _ hab hba)

/-- The order of names is transitive. -/
theorem name_le_trans (a b c : String) (hab : decide (a ≤ b) = true) (hbc : decide (b ≤ c) = true) :
    decide (a ≤ c) = true := by
  rw [decide_eq_true_eq] at hab hbc ⊢
  exact String.le_trans hab hbc

/-- Names can always be compared. -/
theorem name_le_total (a b : String) : (decide (a ≤ b) || decide (b ≤ a)) = true := by
  rw [Bool.or_eq_true, decide_eq_true_eq, decide_eq_true_eq]
  exact String.le_total a b

/-- Names that come before each other are the same. -/
theorem name_le_antisymm (a b : String) (hab : decide (a ≤ b) = true)
    (hba : decide (b ≤ a) = true) :
    a = b := by
  rw [decide_eq_true_eq] at hab hba
  exact String.le_antisymm hab hba

/-- The order of types compares namespaces first. -/
theorem TypeId.upTo_iff (a b : TypeId) :
    a.upTo b = true ↔
      a.namespacePath < b.namespacePath ∨ a.namespacePath = b.namespacePath ∧ a.name ≤ b.name := by
  simp [TypeId.upTo]

/-- The order of types is transitive. -/
theorem TypeId.upTo_trans (a b c : TypeId) (hab : a.upTo b = true) (hbc : b.upTo c = true) :
    a.upTo c = true := by
  rw [TypeId.upTo_iff] at hab hbc ⊢
  rcases hab with hab | ⟨hab, hname⟩
  · rcases hbc with hbc | ⟨hbc, -⟩
    · exact Or.inl (String.lt_trans hab hbc)
    · exact Or.inl (hbc ▸ hab)
  · rcases hbc with hbc | ⟨hbc, hname'⟩
    · exact Or.inl (hab ▸ hbc)
    · exact Or.inr ⟨hab.trans hbc, String.le_trans hname hname'⟩

/-- Types can always be compared. -/
theorem TypeId.upTo_total (a b : TypeId) : (a.upTo b || b.upTo a) = true := by
  rw [Bool.or_eq_true, TypeId.upTo_iff, TypeId.upTo_iff]
  by_cases hab : a.namespacePath < b.namespacePath
  · exact Or.inl (Or.inl hab)
  · by_cases hba : b.namespacePath < a.namespacePath
    · exact Or.inr (Or.inl hba)
    · have heq : a.namespacePath = b.namespacePath :=
        String.le_antisymm (String.not_lt.mp hba) (String.not_lt.mp hab)
      rcases String.le_total a.name b.name with hname | hname
      · exact Or.inl (Or.inr ⟨heq, hname⟩)
      · exact Or.inr (Or.inr ⟨heq.symm, hname⟩)

/-- A type does not come after itself. -/
theorem TypeId.upTo_refl (a : TypeId) : a.upTo a = true := by
  simpa using TypeId.upTo_total a a

/-- Types that come before each other are the same. -/
theorem TypeId.upTo_antisymm (a b : TypeId) (hab : a.upTo b = true) (hba : b.upTo a = true) :
    a = b := by
  rw [TypeId.upTo_iff] at hab hba
  obtain ⟨namespacePath, name⟩ := a
  obtain ⟨namespacePath', name'⟩ := b
  rcases hab with hab | ⟨rfl, hname⟩
  · rcases hba with hba | ⟨heq, -⟩
    · exact absurd hba (String.lt_asymm hab)
    · exact absurd (heq ▸ hab) (String.lt_irrefl _)
  · rcases hba with hba | ⟨-, hname'⟩
    · exact absurd hba (String.lt_irrefl _)
    · exact congrArg _ (String.le_antisymm hname hname')

/-! ## The same declarations -/

section

variable {files others : List SchemaFile} (hsame : SameDeclarations files others)

include hsame

/-- Holding the same declarations is symmetric. -/
theorem SameDeclarations.symm : SameDeclarations others files :=
  List.Perm.symm hsame

/-- Files with the same declarations declare the same types. -/
theorem SameDeclarations.ids_perm :
    ((declarationsOf files).map declaredId).Perm ((declarationsOf others).map declaredId) := by
  have hids := List.Perm.map Content.id hsame
  rwa [List.map_map, List.map_map] at hids

/-- A type is declared in both or in neither. -/
theorem SameDeclarations.declared_eq : Declared files = Declared others := by
  funext id
  refine propext ?_
  rw [Declared, Declared, ← List.mem_map, ← List.mem_map]
  exact hsame.ids_perm.mem_iff

/-- Each declaration has one with the same content. -/
theorem SameDeclarations.exists_contentOf_eq {declaration : TypeDecl}
    (h : declaration ∈ declarationsOf files) :
    ∃ other ∈ declarationsOf others, contentOf other = contentOf declaration :=
  List.mem_map.mp (hsame.mem_iff.mp (List.mem_map_of_mem h))

end

/-- Declarations with the same content have the same identity. -/
theorem declaredId_eq_of_contentOf {declaration other : TypeDecl}
    (h : contentOf other = contentOf declaration) : declaredId other = declaredId declaration :=
  congrArg Content.id h

/-- Declarations with the same content have the same fields up to order and places. -/
theorem fields_perm_of_contentOf {declaration other : TypeDecl}
    (h : contentOf other = contentOf declaration) :
    (other.fields.map Schema.Field.withoutSpan).Perm
    (declaration.fields.map Schema.Field.withoutSpan) :=
  Multiset.coe_eq_coe.mp (congrArg Content.fields h)

/-- Declarations with the same content have the same field names. -/
theorem names_perm_of_contentOf {declaration other : TypeDecl}
    (h : contentOf other = contentOf declaration) :
    (other.fields.map Schema.Field.name).Perm (declaration.fields.map Schema.Field.name) := by
  have hnames := (fields_perm_of_contentOf h).map Schema.Field.name
  rwa [List.map_map, List.map_map] at hnames

/-- Each field has one in a declaration of the same content that differs from it at most by its
place. -/
theorem exists_field_of_contentOf {declaration other : TypeDecl}
    (h : contentOf other = contentOf declaration) {field : Schema.Field}
    (hfield : field ∈ other.fields) :
    ∃ source ∈ declaration.fields, source.withoutSpan = field.withoutSpan :=
  List.mem_map.mp ((fields_perm_of_contentOf h).mem_iff.mp (List.mem_map_of_mem hfield))

/-! ## Well-formedness -/

/-- A field is sound with and without its place. -/
theorem sound_withoutSpan_iff (declared : TypeId → Prop) (namespacePath : String)
    (field : Schema.Field) (type : FieldType) :
    Sound declared namespacePath field.withoutSpan type ↔ Sound declared namespacePath field type :=
  ⟨fun h => ⟨h.means, h.default_fits, h.validators_fit, h.port_in_range⟩,
    fun h => ⟨h.means, h.default_fits, h.validators_fit, h.port_in_range⟩⟩

section

variable {files others : List SchemaFile} (hsame : SameDeclarations files others)

include hsame

/-- In files with the same declarations the same types contain each other. -/
theorem SameDeclarations.contains {a b : TypeId} (h : Contains files a b) :
    Contains others a b := by
  obtain ⟨declaration, hmem, rfl, field, hfield, hoptional, hmeans⟩ := h
  obtain ⟨other, hother, hcontent⟩ := hsame.exists_contentOf_eq hmem
  obtain ⟨source, hsource, heq⟩ := exists_field_of_contentOf hcontent.symm hfield
  have hid := declaredId_eq_of_contentOf hcontent
  have hnamespace : other.namespacePath = declaration.namespacePath :=
    congrArg TypeId.namespacePath hid
  have htype : source.withoutSpan.type = field.withoutSpan.type := by rw [heq]
  refine ⟨other, hother, hid, source, hsource, ?_, ?_⟩
  · exact (congrArg Schema.Field.optional heq).trans hoptional
  · rw [← hsame.declared_eq, hnamespace, show source.type = field.type from htype]
    exact hmeans

/-- Files with the declarations of well-formed ones are well-formed. -/
theorem SameDeclarations.wellFormed (h : WellFormed files) : WellFormed others where
  types_distinct := hsame.ids_perm.nodup_iff.mp h.types_distinct
  fields_distinct := by
    intro other hother
    obtain ⟨declaration, hmem, hcontent⟩ := hsame.symm.exists_contentOf_eq hother
    exact (names_perm_of_contentOf hcontent).nodup_iff.mp (h.fields_distinct declaration hmem)
  fields_sound := by
    intro other hother field hfield
    obtain ⟨declaration, hmem, hcontent⟩ := hsame.symm.exists_contentOf_eq hother
    obtain ⟨source, hsource, heq⟩ := exists_field_of_contentOf hcontent.symm hfield
    have hnamespace : declaration.namespacePath = other.namespacePath :=
      congrArg TypeId.namespacePath (declaredId_eq_of_contentOf hcontent)
    obtain ⟨type, hsound⟩ := h.fields_sound declaration hmem source hsource
    refine ⟨type, ?_⟩
    rw [← hsame.declared_eq, ← hnamespace, ← sound_withoutSpan_iff, ← heq, sound_withoutSpan_iff]
    exact hsound
  acyclic := by
    intro id hcycle
    exact h.acyclic id (hcycle.lift (fun a => a) fun a b => hsame.symm.contains)

end

/-! ## The types that declarations become -/

/-- The fields that resolve keep their names. -/
theorem names_filterMap_resolveField_sublist (known : List TypeId) (owner : TypeId)
    (fields : List Schema.Field) :
    ((fields.filterMap fun field => (resolveField known owner field).toOption).map
      Field.name).Sublist (fields.map Schema.Field.name) := by
  induction fields with
  | nil => exact List.Sublist.refl []
  | cons field fields ih =>
    rw [List.filterMap_cons, List.map_cons]
    cases hresolve : resolveField known owner field with
    | error error => exact ih.cons field.name
    | ok resolved =>
      have hname : resolved.name = field.name := by
        unfold resolveField at hresolve
        split at hresolve
        · contradiction
        · obtain rfl := Except.ok.inj hresolve
          rfl
      simpa [Except.toOption, hname] using ih

/-- Declarations with the same content, whose field names are distinct, become the same type up to
places. The resolved fields agree up to order and places, so sorting them by name makes them agree
up to places. -/
theorem resolveDeclaration_of_contentOf (known : List TypeId) {declaration other : TypeDecl}
    (h : contentOf other = contentOf declaration)
    (hfields : (other.fields.map Schema.Field.name).Nodup) :
    (resolveDeclaration known other).withoutSpans =
      (resolveDeclaration known declaration).withoutSpans := by
  have hnames := (names_perm_of_contentOf h).nodup_iff.mp hfields
  have hid := declaredId_eq_of_contentOf h
  have hdoc : other.doc? = declaration.doc? := congrArg Content.doc? h
  have hresolved : ∀ fields : List Schema.Field,
      (fields.filterMap
        fun field => (resolveField known (declaredId declaration) field).toOption).map
          Field.withoutSpan =
        (fields.map Schema.Field.withoutSpan).filterMap fun field =>
          (resolveField known (declaredId declaration) field).toOption := by
    intro fields
    simp only [List.map_filterMap, List.filterMap_map, Function.comp_def, resolveField_withoutSpan]
  have hperm := (fields_perm_of_contentOf h).filterMap fun field =>
    (resolveField known (declaredId declaration) field).toOption
  rw [← hresolved, ← hresolved] at hperm
  have hnodup := hfields.sublist
    (names_filterMap_resolveField_sublist known (declaredId declaration) other.fields)
  have hsorted := map_mergeSort_eq_of_perm Field.name Field.withoutSpan Field.name
    (fun a b => decide (a ≤ b))
    (fun _ => rfl) name_le_trans name_le_total name_le_antisymm hnodup hperm
  unfold resolveDeclaration firstFields
  rw [firstBy_eq_self _ _ hfields, firstBy_eq_self _ _ hnames, hid, hdoc]
  simp only [TypeNode.withoutSpans, hsorted]

/-- Lists that hold the same in the same order are mapped alike by what only depends on what they
hold. -/
theorem map_eq_map_of_content {α β γ : Type} {content : α → β} {f : α → γ}
    {elements others : List α} (hcontent : elements.map content = others.map content)
    (hf : ∀ a ∈ elements, ∀ b ∈ others, content a = content b → f a = f b) :
    elements.map f = others.map f := by
  induction elements generalizing others with
  | nil =>
    obtain rfl := List.map_eq_nil_iff.mp hcontent.symm
    rfl
  | cons a elements ih =>
    obtain ⟨b, rest, rfl, hab, hrest⟩ := List.map_eq_cons_iff.mp hcontent.symm
    rw [List.map_cons, List.map_cons, hf a List.mem_cons_self b List.mem_cons_self hab.symm]
    refine congrArg _ (ih hrest.symm fun c hc d hd => ?_)
    exact hf c (List.mem_cons_of_mem a hc) d (List.mem_cons_of_mem b hd)

section

variable {files others : List SchemaFile} (hsame : SameDeclarations files others)

include hsame

/-- The declarations that count hold the same, in the same order. -/
theorem SameDeclarations.firstDeclarations_eq (h : WellFormed files) :
    (firstDeclarations files).map contentOf = (firstDeclarations others).map contentOf := by
  have htypes := (hsame.wellFormed h).types_distinct
  unfold firstDeclarations
  rw [firstBy_eq_self declaredId _ h.types_distinct, firstBy_eq_self declaredId _ htypes]
  exact map_mergeSort_eq_of_perm declaredId contentOf Content.id TypeId.upTo
    (fun _ => rfl) TypeId.upTo_trans TypeId.upTo_total TypeId.upTo_antisymm h.types_distinct hsame

/-- The known identities are the same, in the same order. -/
theorem SameDeclarations.knownIds_eq (h : WellFormed files) : knownIds files = knownIds others := by
  have hids := congrArg (List.map Content.id) (hsame.firstDeclarations_eq h)
  rwa [List.map_map, List.map_map] at hids

/-- The declarations become the same types up to places. -/
theorem SameDeclarations.resolvedTypes_eq (h : WellFormed files) :
    (resolvedTypes files).map TypeNode.withoutSpans =
      (resolvedTypes others).map TypeNode.withoutSpans := by
  unfold resolvedTypes
  rw [List.map_map, List.map_map, ← hsame.knownIds_eq h]
  refine map_eq_map_of_content (hsame.firstDeclarations_eq h)
    fun declaration hmem other _ hcontent => ?_
  exact resolveDeclaration_of_contentOf (knownIds files) hcontent
    (h.fields_distinct declaration (mem_of_mem_firstDeclarations hmem))

/-- Files that hold the declarations of others that make a graph make one. -/
theorem SameDeclarations.exists_build (h : ∃ graph, build files = .ok graph) :
    ∃ graph, build others = .ok graph := by
  obtain ⟨graph, hbuild⟩ := h
  have hwell := ((build_eq_ok_iff_wellFormed files graph).mp hbuild).1
  exact ⟨_, (build_eq_ok_iff_wellFormed others _).mpr ⟨hsame.wellFormed hwell, rfl⟩⟩

/-- The graphs that they make are the same up to places. -/
theorem SameDeclarations.graph_eq {graph other : TypeGraph} (hbuild : build files = .ok graph)
    (hother : build others = .ok other) : graph.withoutSpans = other.withoutSpans := by
  obtain ⟨hwell, rfl⟩ := (build_eq_ok_iff_wellFormed files graph).mp hbuild
  obtain ⟨-, rfl⟩ := (build_eq_ok_iff_wellFormed others other).mp hother
  rw [TypeGraph.withoutSpans, TypeGraph.withoutSpans, ← markRecursive_withoutSpans,
    ← markRecursive_withoutSpans, hsame.resolvedTypes_eq hwell]

end

end SchemaBindings.Graph
