import SchemaBindings.Bindings.Language

/-!
# What a language cannot express

A type graph may have no bindings in a language: two names may be written alike there, or a type may
have no counterpart. The cause is kept as a value; one function gives the line that reports it.
-/

namespace SchemaBindings.Bindings

/-- Two names of the schema that are written alike. -/
structure Collision where
  first : String
  second : String
  emitted : String
deriving DecidableEq

/-- Why a language cannot express a part of a schema. -/
inductive Reason where
  | sameName (collision : Collision)
  | anyValue
  | nestedList
deriving DecidableEq

/-- The message of a reason. -/
def Reason.message : Reason → String
  | .sameName ⟨first, second, emitted⟩ => s!"`{first}` and `{second}` both become `{emitted}`"
  | .anyValue => "`any` has no C representation"
  | .nestedList => "nested lists have no C representation"

/-- A part of a schema that a language cannot express. -/
structure Unsupported where
  language : Language
  location : String
  reason : Reason
deriving DecidableEq

/-- The line that reports it. -/
def Unsupported.shown (unsupported : Unsupported) : String :=
  s!"{unsupported.language.word} cannot represent `{unsupported.location}`: " ++
    unsupported.reason.message

end SchemaBindings.Bindings
