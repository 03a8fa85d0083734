import SchemaBindings.Main
import SchemaBindings.Project.Overview
import SchemaBindings.Proofs.Graph.Acceptance
import SchemaBindings.Proofs.Graph.Definitions
import SchemaBindings.Proofs.Graph.Meaning
import SchemaBindings.Proofs.Graph.References
import SchemaBindings.Proofs.Schema.Parsing
import SchemaBindings.Proofs.Schema.Reading
import SchemaBindings.Proofs.Text.Distinct
import SchemaBindings.FileTree.Lemmas
import SchemaBindings.Proofs.Schema.Layout
import SchemaBindings.Proofs.Schema.Lexing
import SchemaBindings.Proofs.Schema.Printing
import SchemaBindings.Proofs.Schema.RoundTrip
import SchemaBindings.Proofs.Graph.Spans
import SchemaBindings.Proofs.Graph.Order
import SchemaBindings.Proofs.Bindings.Spans
import SchemaBindings.Proofs.Bindings.Order
import SchemaBindings.Proofs.Bindings.Names
import SchemaBindings.Proofs.Bindings.Placement
import SchemaBindings.Proofs.Text.Starts
import SchemaBindings.Proofs.Bindings.CHeader
import SchemaBindings.Proofs.Bindings.Modules
import SchemaBindings.Proofs.FileTree.Grounded
import SchemaBindings.Proofs.FileTree.Walks
import SchemaBindings.Proofs.Path.Pieces
import SchemaBindings.Proofs.FileTree.Changes
import SchemaBindings.Proofs.FileTree.Hidden
import SchemaBindings.Proofs.Bindings.Outputs
import SchemaBindings.Proofs.Bindings.Staging
import SchemaBindings.Proofs.Bindings.Rollback
import SchemaBindings.Proofs.Bindings.Writing
import SchemaBindings.Proofs.FileTree.LinkFree
import SchemaBindings.Proofs.Path.Around
import SchemaBindings.Proofs.FileTree.Steps
import SchemaBindings.Proofs.Bindings.Merging
import SchemaBindings.Proofs.Bindings.Overlay
import SchemaBindings.Proofs.Graph.Translation
import SchemaBindings.Proofs.Bindings.Built
import SchemaBindings.Proofs.Bindings.ReservedWords
import SchemaBindings.Proofs.Bindings.HeaderLayers
import SchemaBindings.Proofs.Bindings.FiniteStructs
import SchemaBindings.Proofs.Bindings.ModuleScope
import SchemaBindings.Proofs.Graph.Marks
import SchemaBindings.Proofs.Schema.Faults
import SchemaBindings.Proofs.Text.SingleLine
import SchemaBindings.Proofs.Project.Diagnostics
import SchemaBindings.Proofs.Graph.Search
import SchemaBindings.Proofs.Graph.Knots
import SchemaBindings.Proofs.Path.Moves
import SchemaBindings.Proofs.FileTree.Ways
import SchemaBindings.Proofs.FileTree.Making
import SchemaBindings.Proofs.FileTree.Named
import SchemaBindings.Proofs.Bindings.Exchange
import SchemaBindings.Proofs.Bindings.Installing
import SchemaBindings.Proofs.Bindings.Outcome
import SchemaBindings.Proofs.Path.Landing
import SchemaBindings.Proofs.Project.OutputConflicts
import SchemaBindings.Proofs.Graph.Traversal
import SchemaBindings.Proofs.Schema.Chunks
import SchemaBindings.Proofs.Schema.Removal
import SchemaBindings.Proofs.Schema.Unclosed
import SchemaBindings.Proofs.Bindings.FileNames
import SchemaBindings.Proofs.Project.Generating
import SchemaBindings.Proofs.Project.Isolation
import SchemaBindings.Proofs.Schema.Covering
import SchemaBindings.Proofs.Graph.Batch
import SchemaBindings.Proofs.Schema.CursorParsing
import SchemaBindings.Proofs.Graph.Mentions
import SchemaBindings.Proofs.Naming.Identifiers
import SchemaBindings.Proofs.Bindings.BlockComments
import SchemaBindings.Proofs.Bindings.LineComments
import SchemaBindings.Proofs.Bindings.Docstrings
import SchemaBindings.Proofs.Number.Text
import SchemaBindings.Proofs.Graph.Fields
import SchemaBindings.Proofs.Bindings.RustLiterals
import SchemaBindings.Proofs.Bindings.TextDefaults
import SchemaBindings.Proofs.Bindings.DefaultFunctions
import SchemaBindings.Proofs.Bindings.ClassScope
import SchemaBindings.Proofs.Bindings.CodeNames
import SchemaBindings.Proofs.Bindings.PythonNames
import SchemaBindings.Proofs.Bindings.ModuleImports
import SchemaBindings.Proofs.Schema.Integers
import SchemaBindings.Proofs.Bindings.HeaderAcceptance
import SchemaBindings.Proofs.Number.Overflow
import SchemaBindings.Proofs.Schema.FloatLiterals
import SchemaBindings.Proofs.Bindings.InfiniteDefaults
import SchemaBindings.Proofs.FileTree.Following
import SchemaBindings.Proofs.Bindings.Rooms
import SchemaBindings.Proofs.Bindings.Leftovers
import SchemaBindings.Proofs.Naming.Recasing
import SchemaBindings.Proofs.Naming.SnakeCase
import SchemaBindings.Proofs.Bindings.SnakeNames
import SchemaBindings.Proofs.Bindings.NameTables
import SchemaBindings.Proofs.Path.Order
import SchemaBindings.Proofs.FileTree.Lookups
import SchemaBindings.Proofs.Glob.Finding
import SchemaBindings.Proofs.Glob.Escaping
import SchemaBindings.Proofs.Glob.Level
import SchemaBindings.Proofs.Glob.Rooted
import SchemaBindings.Proofs.Project.Patterns
import SchemaBindings.Proofs.Project.Discovery
