import SchemaBindings.Naming.Case

/-!
# Languages and naming options

The languages that bindings are made for, and how a target may override the way its names are
written.
-/

namespace SchemaBindings.Bindings

open SchemaBindings.Naming (Case)

/-- A language that bindings are made for. -/
inductive Language where
  | c
  | python
  | rust
  | typescript
deriving DecidableEq

/-- The word for a language. -/
def Language.word : Language → String
  | .c => "c"
  | .python => "python"
  | .rust => "rust"
  | .typescript => "typescript"

/-- Every language. -/
def Language.all : List Language :=
  [.c, .python, .rust, .typescript]

/-- The language of a word. -/
def Language.ofWord? (word : String) : Option Language :=
  Language.all.find? fun language => language.word = word

/-- Overrides of the cases of type and field names. -/
structure NamingOptions where
  types? : Option Case
  fields? : Option Case
deriving DecidableEq

/-- No overrides. -/
def NamingOptions.none : NamingOptions := ⟨.none, .none⟩

/-- The case of type names in a language. -/
def Language.typeCase : Language → Case
  | .c => .preserve
  | _ => .pascal

/-- The case of field names in a language. -/
def Language.fieldCase : Language → Case
  | .typescript => .camel
  | _ => .snake

/-- A type name as a target writes it. -/
def NamingOptions.typeName (options : NamingOptions) (language : Language) (name : String) :
    String :=
  (options.types?.getD language.typeCase).apply name

/-- A field name as a target writes it. -/
def NamingOptions.fieldName (options : NamingOptions) (language : Language) (name : String) :
    String :=
  (options.fields?.getD language.fieldCase).apply name

end SchemaBindings.Bindings
