import SchemaBindings.Schema.Declaration

/-!
# Schema files up to places

Places say where something was written, and only messages show them. Two schema files that differ
only in their places are the same without them.
-/

namespace SchemaBindings.Schema

/-- A place that stands for none. -/
def Span.nowhere : Span := ⟨"", .start⟩

/-- A field without its place. -/
def Field.withoutSpan (field : Field) : Field :=
  { field with span := .nowhere }

/-- A declaration without its place and without those of its fields. -/
def TypeDecl.withoutSpans (declaration : TypeDecl) : TypeDecl :=
  { declaration with fields := declaration.fields.map Field.withoutSpan, span := .nowhere }

/-- A schema file without the places in it. -/
def SchemaFile.withoutSpans (file : SchemaFile) : SchemaFile :=
  { file with declarations := file.declarations.map TypeDecl.withoutSpans }

end SchemaBindings.Schema
