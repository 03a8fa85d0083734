import SchemaBindings.Schema.Parser

/-!
# Reading by a cursor

The tokens of a source stand in one list with a mark for the end behind them, and a number says how
far reading has come. Every step of reading looks at the token there or at one of the next two, and
may go on by one token. Indices beyond the list are bent to its last place.

Here all of this is checked. There is no result if a subtraction goes below zero, if an index is
outside the list, if the cursor would be moved behind the end mark, or if a loop does not come to an
end.
-/

namespace SchemaBindings.Schema

open SchemaBindings.Text (Position)

/-- Tokens with a mark for the end behind them. -/
def endMarked (finish : Position) (tokens : Tokens) : List (Located (Option Token)) :=
  tokens.map (fun token => ⟨token.position, some token.value⟩) ++ [⟨finish, none⟩]

/-- A list that a cursor moves over. -/
abbrev Cursor.TokenStream := List (Located (Option Token))

/-- What a cursor moves over to read a source. -/
def Lexing.stream (lexing : Lexing) : Cursor.TokenStream :=
  endMarked lexing.finish lexing.tokens

namespace Cursor

/-- How far reading has come, the faults so far, and the namespace. -/
structure State where
  place : Nat
  faults : List (Located SyntaxFault)
  namespacePath? : Option String

/-- A step of reading. It may stop at a fault, and it may have no result at all. -/
abbrev Step (α : Type) := ExceptT (Located SyntaxFault) (StateT State Option) α

/-- A value that has to be there. -/
def checked {α : Type} (value? : Option α) : Step α :=
  liftM value?

/-- Notes a fault. -/
def note (fault : Located SyntaxFault) : Step Unit :=
  modify fun state => { state with faults := state.faults ++ [fault] }

/-- Notes a fault at the name of a built-in type. -/
def noteBuiltIn (name : String) (position : Position) : Step Unit :=
  if (Primitive.ofWord? name).isSome then note ⟨position, .builtInTypeName name⟩ else pure ()

section Steps

variable (stream : TokenStream)

/-! ## The token ahead -/

/-- The last place of the list. -/
def lastPlace? : Option Nat :=
  if 1 ≤ stream.length then some (stream.length - 1) else none

/-- The token some places ahead, or the last one. -/
def itemAt (offset : Nat) : Step (Located (Option Token)) := do
  let last ← checked (lastPlace? stream)
  let state ← get
  checked stream[min (state.place + offset) last]?

/-- The token ahead. -/
def current : Step (Located (Option Token)) :=
  itemAt stream 0

/-- The token some places ahead, without its place. -/
def peekAt (offset : Nat) : Step (Option Token) := do
  let item ← itemAt stream offset
  return item.value

/-- Goes on behind the token ahead. The end mark is never passed. -/
def advance : Step Unit := do
  let item ← current stream
  if item.value.isSome then
    let state ← get
    let place ← checked (if state.place + 1 < stream.length then some (state.place + 1) else none)
    set { state with place }

/-- Stops at the token ahead. -/
def stop {α : Type} (fault : SyntaxFault) : Step α := do
  let item ← current stream
  throw ⟨item.position, fault⟩

/-- Takes a punctuation mark. -/
def expectSymbol (mark : Symbol) : Step Unit := do
  let found ← peekAt stream 0
  if found = some (.symbol mark) then advance stream
  else stop stream (.expected (.symbol mark) found)

/-- Takes a name. -/
def expectName (what : Expectation) : Step (String × Position) := do
  let item ← current stream
  match item.value with
  | some (.name name) =>
    advance stream
    return (name, item.position)
  | found => stop stream (.expected what found)

/-- Whether a declaration starts here, rather than a field called `type`. -/
def atDeclaration : Step Bool := do
  let word ← peekAt stream 0
  let name ← peekAt stream 1
  let brace ← peekAt stream 2
  match word, name, brace with
  | some (.name word), some (.name _), some (.symbol .leftBrace) => return word = "type"
  | _, _, _ => return false

/-- Takes doc comment lines. -/
def TokenStream.takeDocs (stream : TokenStream) : Step (List String) := do
  match ← peekAt stream 0 with
  | some (.doc line) =>
    advance stream
    let lines ← stream |>.takeDocs
    return line :: lines
  | _ => return []
partial_fixpoint

/-! ## Recovery -/

/-- Skips to the next comma or closing brace of the current type body, or to the next
declaration. -/
def TokenStream.recoverField (stream : TokenStream) (depth : Nat) : Step Unit := do
  match ← peekAt stream 0 with
  | none => return
  | some token =>
    if depth = 0 ∧ (token = .symbol .comma ∨ token = .symbol .rightBrace) then return
    let starts ← atDeclaration stream
    if depth = 0 ∧ starts then return
    advance stream
    if token = .symbol .leftBrace ∨
    token = .symbol .leftBracket then stream |>.recoverField (depth + 1)
    else if token = .symbol .rightBrace ∨
    token = .symbol .rightBracket then stream |>.recoverField (depth - 1)
    else stream |>.recoverField depth
partial_fixpoint

/-- Skips to the next `type` outside braces. -/
def TokenStream.recoverDeclaration (stream : TokenStream) (depth : Nat) : Step Unit := do
  match ← peekAt stream 0 with
  | none => return
  | some token =>
    if depth = 0 ∧ token = .name "type" then return
    advance stream
    if token = .symbol .leftBrace then stream |>.recoverDeclaration (depth + 1)
    else if token = .symbol .rightBrace then stream |>.recoverDeclaration (depth - 1)
    else stream |>.recoverDeclaration depth
partial_fixpoint

/-- Takes a comma, if one is ahead. -/
def takeComma : Step Unit := do
  if (← peekAt stream 0) = some (.symbol .comma) then advance stream

/-- Goes on behind a broken field. -/
def resume : Step Unit := do
  stream.recoverField 0
  takeComma stream

/-! ## Grammar -/

/-- Reads the further segments of a dotted name. -/
def TokenStream.parseSegments (stream : TokenStream) : Step (List String) := do
  if (← peekAt stream 0) = some (.symbol .dot) then
    advance stream
    let (segment, _) ← expectName stream .nameAfterDot
    let segments ← stream |>.parseSegments
    return segment :: segments
  else return []
partial_fixpoint

/-- Reads a dotted name. -/
def parsePath (what : Expectation) : Step (String × List String) := do
  let (first, _) ← expectName stream what
  let segments ← stream.parseSegments
  return (first, segments)

/-- Reads a type. -/
def TokenStream.parseType (stream : TokenStream) : Step TypeRef := do
  if (← peekAt stream 0) = some (.symbol .leftBracket) then
    advance stream
    let element ← stream |>.parseType
    expectSymbol stream .rightBracket
    return .list element
  else
    let (first, segments) ← parsePath stream .fieldType
    return .ofPath first segments
partial_fixpoint

/-- Reads a literal. -/
def parseLiteral : Step Literal := do
  let found ← peekAt stream 0
  match found.bind Token.literal? with
  | some literal =>
    advance stream
    return literal
  | none => stop stream (.expected .literal found)

/-- Reads a question mark, if there is one. -/
def parseOptional : Step Bool := do
  if (← peekAt stream 0) = some (.symbol .question) then
    advance stream
    return true
  else return false

/-- Reads a default value, if an equals sign announces one. -/
def parseDefault : Step (Option Literal) := do
  if (← peekAt stream 0) = some (.symbol .equals) then
    advance stream
    let literal ← parseLiteral stream
    return some literal
  else return none

/-- Reads validators behind those already given. -/
def TokenStream.parseValidators (stream : TokenStream) (given : List Validator) :
    Step (List Validator) := do
  if (← peekAt stream 0) = some (.symbol .at) then
    advance stream
    let (name, position) ← expectName stream .validatorName
    match Validator.ofWord? name with
    | some validator =>
      if validator ∈ given then
        note ⟨position, .repeatedValidator validator⟩
        stream |>.parseValidators given
      else stream |>.parseValidators (given ++ [validator])
    | none =>
      note ⟨position, .unknownValidator name⟩
      stream |>.parseValidators given
  else return given
partial_fixpoint

/-- Reads a field. -/
def parseField (file : String) (doc? : Option String) : Step Field := do
  let (name, position) ← expectName stream .fieldName
  expectSymbol stream .colon
  let type ← stream.parseType
  let optional ← parseOptional stream
  let default? ← parseDefault stream
  let validators ← stream.parseValidators []
  return ⟨name, type, optional, default?, validators, doc?, ⟨file, position⟩⟩

/-- Ends a field: a comma is taken, a closing brace or a new declaration is left, and all else is a
fault. -/
def finishField : Step Unit := do
  let item ← current stream
  if item.value = some (.symbol .comma) then advance stream
  else if item.value = some (.symbol .rightBrace) then return
  else if ← atDeclaration stream then return
  else
    note ⟨item.position, .expected .fieldEnd item.value⟩
    resume stream

/-- Reads one field and what ends it, or goes on behind it if it is broken. -/
def parseEntry (file : String) (doc? : Option String) : Step (Option Field) := do
  match ← observing (parseField stream file doc?) with
  | .ok field =>
    finishField stream
    return some field
  | .error fault =>
    note fault
    resume stream
    return none

/-- Reads the body of a type behind its opening brace. -/
def TokenStream.parseBody (stream : TokenStream) (file typeName : String) : Step (List Field) := do
  let lines ← stream.takeDocs
  let found ← peekAt stream 0
  if found = some (.symbol .rightBrace) then
    advance stream
    return []
  else if found = none then stop stream (.unclosedAtEnd typeName)
  else if ← atDeclaration stream then stop stream (.unclosedAtDeclaration typeName)
  else
    let field? ← parseEntry stream file (joinDocs lines)
    let fields ← stream |>.parseBody file typeName
    return field?.toList ++ fields
partial_fixpoint

/-- Reads a type declaration. -/
def parseDeclaration (file : String) (doc? : Option String) : Step TypeDecl := do
  let item ← current stream
  advance stream
  let (name, position) ← expectName stream .typeName
  noteBuiltIn name position
  expectSymbol stream .leftBrace
  let fields ← stream.parseBody file name
  let state ← get
  return ⟨name, state.namespacePath?.getD "", fields, doc?, ⟨file, item.position⟩⟩

/-- Reads the name of a namespace and the semicolon behind it. -/
def parseNamespace : Step String := do
  let (first, segments) ← parsePath stream .namespaceName
  expectSymbol stream .semicolon
  return dotted (first :: segments)

/-- Reads a type declaration, or goes on behind it if it is broken. -/
def takeDeclaration (file : String) (doc? : Option String) : Step (Option TypeDecl) := do
  match ← observing (parseDeclaration stream file doc?) with
  | .ok declaration => return some declaration
  | .error fault =>
    note fault
    stream.recoverDeclaration 0
    return none

/-- Reads a namespace behind its word, which stands at `position`, or goes on behind it if it is
broken. It may be given only while none is known and no declaration was read. -/
def takeNamespace (started : Bool) (position : Position) : Step Unit := do
  match ← observing (parseNamespace stream) with
  | .ok name =>
    let state ← get
    if state.namespacePath?.isSome ∨ started then note ⟨position, .misplacedNamespace name⟩
    else set { state with namespacePath? := some name }
  | .error fault =>
    note fault
    stream.recoverDeclaration 0

/-- Reads a file from a place between declarations, where it is known whether some declaration was
read. -/
def TokenStream.parseFile (stream : TokenStream) (file : String) (started : Bool) :
    Step (List TypeDecl) := do
  let lines ← stream.takeDocs
  let item ← current stream
  match item.value with
  | none => return []
  | some token =>
    if token = .name "namespace" then
      advance stream
      takeNamespace stream started item.position
      stream |>.parseFile file started
    else if token = .name "type" then
      let declaration? ← takeDeclaration stream file (joinDocs lines)
      let declarations ← stream |>.parseFile file (started || declaration?.isSome)
      return declaration?.toList ++ declarations
    else
      note ⟨item.position, .expected .declaration item.value⟩
      advance stream
      stream.recoverDeclaration 0
      stream |>.parseFile file started
partial_fixpoint

end Steps

/-- The run of a step from a state. -/
def run {α : Type} (step : Step α) (state : State) :
    Option (Except (Located SyntaxFault) α × State) :=
  (ExceptT.run step).run state

/-- Reads a schema file: its declarations, or every fault in it. -/
def parse (path source : String) : Option (Except (List SyntaxError) SchemaFile) :=
  let lexing := lex source.toList
  let lexical := lexing.faults.map fun fault => ⟨fault.position, .lexical fault.value⟩
  match run (lexing.stream.parseFile path false) ⟨0, lexical, none⟩ with
  | some (.ok declarations, state) =>
    if state.faults.isEmpty then some (.ok ⟨path, state.namespacePath?.getD "", declarations⟩)
    else some (.error
      ((sortFaults state.faults).map fun fault => ⟨⟨path, fault.position⟩, fault.value⟩))
  | _ => none

end Cursor

end SchemaBindings.Schema
