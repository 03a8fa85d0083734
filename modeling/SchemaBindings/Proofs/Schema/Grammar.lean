import SchemaBindings.Schema.Readers

/-!
# The grammar of schema files

Which tokens form which part of a file, without a word about how they are read:

file := (doc* 'namespace' path ';')? declaration* doc* declaration := doc* 'type' NAME '{' body '}'
body := doc* | field (',' field)* (',' doc*)? field := doc* NAME ':' reference '?'? ('=' literal)?
('@' NAME)* reference := '[' reference ']' | path path := NAME ('.' NAME)* literal := INTEGER |
FLOAT | TEXT | 'true' | 'false'

A type may not be called like a built-in one, and the validators of a field are known and pairwise
different. Each relation also says what the tokens mean. A doc comment belongs to what it stands
directly in front of, so that at the start of a file without a namespace line it is that of the
first type. Places are carried along, since declarations and fields keep theirs; the places of all
other tokens are free.
-/

namespace SchemaBindings.Schema.Grammar

open SchemaBindings.Text (Position)

/-- Doc comment lines. -/
inductive Docs : Tokens → List String → Prop
  | nil : Docs [] []
  | cons (place : Position) (line : String) {tokens : Tokens} {lines : List String}
      (h : Docs tokens lines) :
      Docs (⟨place, .doc line⟩ :: tokens) (line :: lines)

/-- Names with a dot in front of each. -/
inductive Segments : Tokens → List String → Prop
  | nil : Segments [] []
  | cons (dot place : Position) (segment : String) {tokens : Tokens} {segments : List String}
      (h : Segments tokens segments) :
      Segments (⟨dot, .symbol .dot⟩ :: ⟨place, .name segment⟩ :: tokens) (segment :: segments)

/-- A dotted name. -/
inductive Path : Tokens → List String → Prop
  | mk (place : Position) (first : String) {tokens : Tokens} {segments : List String}
      (h : Segments tokens segments) : Path (⟨place, .name first⟩ :: tokens) (first :: segments)

/-- A type as it is written. The last segment of a dotted name is the name of the type. -/
inductive Reference : Tokens → TypeRef → Prop
  | named {tokens : Tokens} {qualifier : List String} {name : String}
      (h : Path tokens (qualifier ++ [name])) :
      Reference tokens (.named qualifier name)
  | list (opening closing : Position) {tokens : Tokens} {element : TypeRef}
      (h : Reference tokens element) :
      Reference (⟨opening, .symbol .leftBracket⟩ :: (tokens ++ [⟨closing, .symbol .rightBracket⟩]))
        (.list element)

/-- A token that is a literal. -/
inductive IsLiteral : Token → Literal → Prop
  | integer (value : Int) : IsLiteral (.integer value) (.integer value)
  | float (value : Number.Binary64) : IsLiteral (.float value) (.float value)
  | text (content : String) : IsLiteral (.text content) (.text content)
  | yes : IsLiteral (.name "true") (.boolean true)
  | no : IsLiteral (.name "false") (.boolean false)

/-- A question mark or nothing. -/
inductive Optionality : Tokens → Bool → Prop
  | absent : Optionality [] false
  | present (place : Position) : Optionality [⟨place, .symbol .question⟩] true

/-- A default value or nothing. -/
inductive Default : Tokens → Option Literal → Prop
  | absent : Default [] none
  | present (equals place : Position) {token : Token} {literal : Literal}
      (h : IsLiteral token literal) :
      Default [⟨equals, .symbol .equals⟩, ⟨place, token⟩] (some literal)

/-- Known validators. -/
inductive Validators : Tokens → List Validator → Prop
  | nil : Validators [] []
  | cons (mark place : Position) (validator : Validator) {tokens : Tokens}
      {validators : List Validator} (h : Validators tokens validators) :
      Validators (⟨mark, .symbol .at⟩ :: ⟨place, .name validator.word⟩ :: tokens)
        (validator :: validators)

/-- A field with the doc comment in front of it. -/
inductive Field (file : String) : Tokens → Schema.Field → Prop
  | mk (place colon : Position) (name : String) {docs typeTokens optionalTokens defaultTokens
      validatorTokens : Tokens} {lines : List String} {type : TypeRef} {optional : Bool}
      {default? : Option Literal} {validators : List Validator} (hdocs : Docs docs lines)
      (htype : Reference typeTokens type) (hoptional : Optionality optionalTokens optional)
      (hdefault : Default defaultTokens default?)
      (hvalidators : Validators validatorTokens validators) (hdifferent : validators.Nodup) :
      Field file
        (docs ++ ⟨place, .name name⟩ :: ⟨colon, .symbol .colon⟩ ::
          (typeTokens ++ (optionalTokens ++ (defaultTokens ++ validatorTokens))))
        ⟨name, type, optional, default?, validators, joinDocs lines, ⟨file, place⟩⟩

/-- Fields with commas between them, and maybe a comma behind the last and doc comments behind
that. -/
inductive Fields (file : String) : Tokens → List Schema.Field → Prop
  | last {tokens : Tokens} {field : Schema.Field} (h : Field file tokens field) :
      Fields file tokens [field]
  | lastComma (comma : Position) {tokens docs : Tokens} {field : Schema.Field} {lines : List String}
      (h : Field file tokens field) (hdocs : Docs docs lines) :
      Fields file (tokens ++ ⟨comma, .symbol .comma⟩ :: docs) [field]
  | cons (comma : Position) {tokens others : Tokens} {field : Schema.Field}
      {fields : List Schema.Field}
      (h : Field file tokens field) (hothers : Fields file others fields) :
      Fields file (tokens ++ ⟨comma, .symbol .comma⟩ :: others) (field :: fields)

/-- What stands between the braces of a type. -/
inductive Body (file : String) : Tokens → List Schema.Field → Prop
  | empty {docs : Tokens} {lines : List String} (h : Docs docs lines) : Body file docs []
  | fields {tokens : Tokens} {fields : List Schema.Field} (h : Fields file tokens fields) :
      Body file tokens fields

/-- A type declaration with the doc comment in front of it. -/
inductive Declaration (file namespacePath : String) : Tokens → TypeDecl → Prop
  | mk (position place opening closing : Position) (name : String) {docs body : Tokens}
      {lines : List String} {fields : List Schema.Field} (hdocs : Docs docs lines)
      (hname : ∀ kind : Primitive, kind.word ≠ name) (hbody : Body file body fields) :
      Declaration file namespacePath
        (docs ++ ⟨position, .name "type"⟩ :: ⟨place, .name name⟩ :: ⟨opening, .symbol .leftBrace⟩ ::
          (body ++ [⟨closing, .symbol .rightBrace⟩]))
        ⟨name, namespacePath, fields, joinDocs lines, ⟨file, position⟩⟩

/-- Type declarations, one behind the other. -/
inductive Declarations (file namespacePath : String) : Tokens → List TypeDecl → Prop
  | nil : Declarations file namespacePath [] []
  | cons {tokens others : Tokens} {declaration : TypeDecl} {declarations : List TypeDecl}
      (h : Declaration file namespacePath tokens declaration)
      (hothers : Declarations file namespacePath others declarations) :
      Declarations file namespacePath (tokens ++ others) (declaration :: declarations)

/-- A namespace line, whose doc comment means nothing, or no line at all, which means the root
namespace. -/
inductive Header : Tokens → Option String → Prop
  | absent : Header [] none
  | present (place closing : Position) {docs path : Tokens} {lines segments : List String}
      (hdocs : Docs docs lines) (hpath : Path path segments) :
      Header (docs ++ ⟨place, .name "namespace"⟩ :: (path ++ [⟨closing, .symbol .semicolon⟩]))
        (some (dotted segments))

/-- A schema file. -/
inductive File (file : String) : Tokens → SchemaFile → Prop
  | mk {header declarationTokens trailing : Tokens} {lines : List String}
      {namespacePath? : Option String}
      {declarations : List TypeDecl} (hheader : Header header namespacePath?)
      (hdeclarations :
        Declarations file (namespacePath?.getD "") declarationTokens declarations)
      (htrailing : Docs trailing lines) :
      File file (header ++ (declarationTokens ++ trailing))
        ⟨file, namespacePath?.getD "", declarations⟩

end SchemaBindings.Schema.Grammar
