import SchemaBindings.Bindings.Language

/-!
# Manifests

A manifest names a project, the patterns that its schema files match, and the targets that bindings
are made for.
-/

namespace SchemaBindings

open SchemaBindings.Bindings (Language NamingOptions)

namespace Manifest

/-- The file that holds a project's manifest. -/
def fileName : String := "athalar.toml"

/-- A target: a language, the directory for its files, and overrides of name cases. -/
structure Target where
  language : Language
  output : String
  naming : NamingOptions
deriving DecidableEq

end Manifest

/-- A manifest. Patterns and directories are as written. -/
structure Manifest where
  name : String
  schemas : List String
  targets : List Manifest.Target
deriving DecidableEq

end SchemaBindings
