import SchemaBindings.Proofs.Bindings.Spans
import SchemaBindings.Proofs.Graph.Order

/-!
# The order of declarations never shows

Schema files that hold the same declarations are accepted together. If they are, their type graphs
are the same up to places, and the bindings for each language are the same, character by character,
or are refused for the same reason.
-/

namespace SchemaBindings.Bindings

open SchemaBindings.Graph (SameDeclarations build contentOf)
open SchemaBindings.Schema (SchemaFile TypeDecl)

/-- Schema files that hold the same declarations, in whatever files and order, make a type graph
together or not at all. The graphs are the same up to places, and so are the bindings in every
language and with every naming. -/
theorem bindings_of_sameDeclarations (files others : List SchemaFile)
    (hsame : SameDeclarations files others) :
    ((∃ graph, build files = .ok graph) ↔ ∃ other, build others = .ok other) ∧
      ∀ graph other, build files = .ok graph → build others = .ok other →
        graph.withoutSpans = other.withoutSpans ∧
          ∀ language options, emit language options graph = emit language options other := by
  refine ⟨⟨hsame.exists_build, hsame.symm.exists_build⟩, fun graph other hbuild hother => ?_⟩
  have hgraph := hsame.graph_eq hbuild hother
  exact ⟨hgraph, emit_eq_of_withoutSpans hgraph⟩

/-- A type that refers to another, with its fields in some order and some place. -/
def samplePair (fields : List Schema.Field → List Schema.Field) (span : Schema.Span) : TypeDecl :=
  ⟨"A", "n", fields [⟨"x", .named [] "int", false, some (.integer 7), [.port], none, .nowhere⟩,
    ⟨"b", .named ["n"] "B", true, none, [], some "The other", .nowhere⟩], none, span⟩

/-- A type that holds a list of the other. -/
def sampleList (span : Schema.Span) : TypeDecl :=
  ⟨"B", "n", [⟨"items", .list (.named [] "A"), false, none, [], none, .nowhere⟩], none, span⟩

/-- Two types in two files. -/
def sampleApart : List SchemaFile :=
  [⟨"a.schema", "n", [samplePair id ⟨"a.schema", ⟨2, 1⟩⟩]⟩,
    ⟨"b.schema", "n", [sampleList ⟨"b.schema", ⟨2, 1⟩⟩]⟩]

/-- The two types in one file, the other way round. -/
def sampleTogether : List SchemaFile :=
  [⟨"c.schema", "n",
    [sampleList ⟨"c.schema", ⟨2, 1⟩⟩, samplePair List.reverse ⟨"c.schema", ⟨5, 1⟩⟩]⟩]

/-- Both samples make a graph, with the same bindings in every language. -/
theorem bindings_sampleTogether :
    SameDeclarations sampleApart sampleTogether ∧
      ∃ graph other, build sampleApart = .ok graph ∧ build sampleTogether = .ok other ∧
        graph.withoutSpans = other.withoutSpans ∧
          ∀ language options, emit language options graph = emit language options other := by
  have hpair : contentOf (samplePair id ⟨"a.schema", ⟨2, 1⟩⟩) =
      contentOf (samplePair List.reverse ⟨"c.schema", ⟨5, 1⟩⟩) := by
    have hfields := (List.reverse_perm (samplePair id ⟨"a.schema", ⟨2, 1⟩⟩).fields).map
      Schema.Field.withoutSpan
    exact congrArg (Graph.Content.mk _ _) (Multiset.coe_eq_coe.mpr hfields.symm)
  have hsame : SameDeclarations sampleApart sampleTogether := by
    change List.Perm [contentOf (samplePair id _), contentOf (sampleList _)] [_, _]
    rw [hpair]
    exact List.Perm.swap _ _ []
  have hbuild : (build sampleApart).toOption.isSome = true := by cbv
  obtain ⟨hboth, hequal⟩ := bindings_of_sameDeclarations sampleApart sampleTogether hsame
  cases hgraph : build sampleApart with
  | error errors => simp [hgraph, Except.toOption] at hbuild
  | ok graph =>
    obtain ⟨other, hother⟩ := hboth.mp ⟨graph, hgraph⟩
    exact ⟨hsame, graph, other, rfl, hother, hequal graph other hgraph hother⟩

end SchemaBindings.Bindings
