import SchemaBindings.Proofs.Schema.Covering
import SchemaBindings.Proofs.Schema.Parsing

/-!
# Where declarations and fields stand

A declaration stands at its first word and a field at its name, which are tokens of the file. Tokens
stand at places of their own, and so do the declarations and fields of a file that is parsed.
-/

namespace SchemaBindings.Schema

open SchemaBindings.Text (Position)

/-- The places of a declaration and of its fields. -/
def TypeDecl.places (declaration : TypeDecl) : List Span :=
  declaration.span :: declaration.fields.map Field.span

/-- The places of tokens in a file. -/
def spansOf (file : String) (tokens : Tokens) : List Span :=
  tokens.map fun token => ⟨file, token.position⟩

/-! ## Places of tokens -/

/-- The tokens of a source stand at places of their own. -/
theorem positions_lex_nodup (source : List Char) :
    ((lex source).tokens.map Located.position).Nodup := by
  have hitems := (List.pairwise_append.mp (covers_itemsFrom [] source).increasing.1).1
  refine List.Pairwise.sublist (positions_tokens_sublist (lex source))
    (hitems.imp fun hbefore heq => ?_)
  rw [heq, Position.before_iff] at hbefore
  omega

namespace Grammar

variable {file namespacePath : String} {tokens : Tokens}

/-- A field stands at its name. -/
theorem Field.span_sublist {field : Schema.Field} (h : Field file tokens field) :
    [field.span].Sublist (spansOf file tokens) := by
  obtain ⟨place, colon, name⟩ := h
  refine List.singleton_sublist.mpr (List.mem_map.mpr ⟨⟨place, .name name⟩, ?_, rfl⟩)
  simp

/-- Fields stand at their names, one behind the other. -/
theorem Fields.spans_sublist {fields : List Schema.Field} (h : Fields file tokens fields) :
    (fields.map Schema.Field.span).Sublist (spansOf file tokens) := by
  induction h with
  | last h => exact h.span_sublist
  | lastComma comma h hdocs =>
    rw [spansOf, List.map_append]
    exact h.span_sublist.trans (List.sublist_append_left _ _)
  | cons comma h hothers ih =>
    rw [spansOf, List.map_append, List.map_cons]
    exact h.span_sublist.append (ih.cons _)

/-- The places of the fields of a body are among those of its tokens, in their order. -/
theorem Body.spans_sublist {fields : List Schema.Field} (h : Body file tokens fields) :
    (fields.map Schema.Field.span).Sublist (spansOf file tokens) := by
  cases h with
  | empty h => exact List.nil_sublist _
  | fields h => exact h.spans_sublist

/-- A declaration stands at its first word, in front of its fields. -/
theorem Declaration.places_sublist {declaration : TypeDecl}
    (h : Declaration file namespacePath tokens declaration) :
    declaration.places.Sublist (spansOf file tokens) := by
  obtain ⟨position, place, opening, closing, name, hdocs, hname, hbody⟩ := h
  rw [spansOf, List.map_append, List.map_cons]
  refine List.Sublist.trans ?_ (List.sublist_append_right _ _)
  refine List.Sublist.cons_cons _ (List.Sublist.cons _ (List.Sublist.cons _ ?_))
  rw [List.map_append]
  exact hbody.spans_sublist.trans (List.sublist_append_left _ _)

/-- The places of declarations are among those of their tokens, in their order. -/
theorem Declarations.places_sublist {declarations : List TypeDecl}
    (h : Declarations file namespacePath tokens declarations) :
    (declarations.flatMap TypeDecl.places).Sublist (spansOf file tokens) := by
  induction h with
  | nil => exact List.nil_sublist _
  | cons h hothers ih =>
    rw [spansOf, List.map_append, List.flatMap_cons]
    exact h.places_sublist.append ih

/-- The declarations and fields of a file stand at tokens of it, one behind the other. -/
theorem File.places_sublist {schema : SchemaFile} (h : File file tokens schema) :
    (schema.declarations.flatMap TypeDecl.places).Sublist (spansOf file tokens) := by
  obtain ⟨hheader, hdeclarations, htrailing⟩ := h
  rw [spansOf, List.map_append, List.map_append]
  exact (hdeclarations.places_sublist.trans (List.sublist_append_left _ _)).trans
    (List.sublist_append_right _ _)

/-! ## Validators of fields -/

/-- No validator is given twice to a field. -/
theorem Field.validators_nodup {field : Schema.Field} (h : Field file tokens field) :
    field.validators.Nodup := by
  obtain ⟨_, _, _, _, _, _, _, _, hdifferent⟩ := h
  exact hdifferent

/-- No field that is read has a validator twice. -/
theorem Fields.validators_nodup {fields : List Schema.Field} (h : Fields file tokens fields) :
    ∀ field ∈ fields, field.validators.Nodup := by
  induction h with
  | last h => exact List.forall_mem_singleton.mpr h.validators_nodup
  | lastComma comma h hdocs => exact List.forall_mem_singleton.mpr h.validators_nodup
  | cons comma h hothers ih => exact List.forall_mem_cons.mpr ⟨h.validators_nodup, ih⟩

/-- No field of a declaration that is read has a validator twice. -/
theorem Declaration.validators_nodup {declaration : TypeDecl}
    (h : Declaration file namespacePath tokens declaration) :
    ∀ field ∈ declaration.fields, field.validators.Nodup := by
  obtain ⟨_, _, _, _, _, _, _, hbody⟩ := h
  cases hbody with
  | empty h => exact fun _ hfield => absurd hfield List.not_mem_nil
  | fields h => exact h.validators_nodup

/-- No field of any declaration that is read has a validator twice. -/
theorem Declarations.validators_nodup {declarations : List TypeDecl}
    (h : Declarations file namespacePath tokens declarations) :
    ∀ declaration ∈ declarations, ∀ field ∈ declaration.fields, field.validators.Nodup := by
  induction h with
  | nil => exact fun _ hdeclaration => absurd hdeclaration List.not_mem_nil
  | cons h hothers ih => exact List.forall_mem_cons.mpr ⟨h.validators_nodup, ih⟩

/-- No validator is given twice to a field of a file. -/
theorem File.validators_nodup {schema : SchemaFile} (h : File file tokens schema) :
    ∀ declaration ∈ schema.declarations, ∀ field ∈ declaration.fields, field.validators.Nodup := by
  obtain ⟨hheader, hdeclarations, htrailing⟩ := h
  exact hdeclarations.validators_nodup

end Grammar

/-! ## Parsed files -/

/-- The declarations and fields of a parsed file stand at places of their own in it, and no field is
given a validator twice. -/
theorem places_of_parse {path source : String} {schema : SchemaFile}
    (h : parse path source = .ok schema) :
    (schema.declarations.flatMap TypeDecl.places).Nodup ∧
      (∀ place ∈ schema.declarations.flatMap TypeDecl.places, place.file = path) ∧
      ∀ declaration ∈ schema.declarations, ∀ field ∈ declaration.fields,
        field.validators.Nodup := by
  obtain ⟨-, namespacePath?, declarations, rfl, hread⟩ :=
    (parse_eq_ok_iff_readContents path source schema).mp h
  have hderived := file_of_readContents hread
  have hplaces := hderived.places_sublist
  refine ⟨?_, fun place hplace => ?_, hderived.validators_nodup⟩
  · have hpositions := positions_lex_nodup source.toList
    have hspans : (spansOf path (lex source.toList).tokens).Nodup := by
      have hmap : spansOf path (lex source.toList).tokens =
          ((lex source.toList).tokens.map Located.position).map (Span.mk path) := by
        rw [List.map_map]
        rfl
      rw [hmap]
      exact hpositions.map fun a b hsame => (Span.mk.inj hsame).2
    exact hspans.sublist hplaces
  · obtain ⟨token, -, rfl⟩ := List.mem_map.mp (hplaces.subset hplace)
    rfl

end SchemaBindings.Schema
