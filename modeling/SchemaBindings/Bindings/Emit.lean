import SchemaBindings.Bindings.CHeader
import SchemaBindings.Bindings.PythonPackage
import SchemaBindings.Bindings.RustModules
import SchemaBindings.Bindings.TypeScriptModules

/-!
# Bindings for a language

The files that a type graph becomes in each language.
-/

namespace SchemaBindings.Bindings

/-- The files of a language's bindings, or what the language cannot express. -/
def emit (language : Language) (options : NamingOptions) (graph : TypeGraph) :
    Except Unsupported (List EmittedFile) :=
  match language with
  | .c => CHeader.emit options graph
  | .python => PythonPackage.emit options graph
  | .rust => RustModules.emit options graph
  | .typescript => TypeScriptModules.emit options graph

end SchemaBindings.Bindings
