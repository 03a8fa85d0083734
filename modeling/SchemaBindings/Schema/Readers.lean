import SchemaBindings.Schema.SyntaxError

/-!
# Readers of the parts of a declaration

Each reader takes the tokens ahead and returns what it read with the tokens it leaves, or where it
is stuck. That it leaves an end piece of what it got is proved here; the loops over fields and
declarations end for this reason. The skipping functions find the place where reading goes on after
a fault.
-/

namespace SchemaBindings.Schema

open SchemaBindings.Text (Position)

/-- The tokens that are still to be read. -/
abbrev Tokens := List (Located Token)

/-- The token ahead. -/
def peek (ahead : Tokens) : Option Token :=
  ahead.head?.map Located.value

/-- The place of the token ahead, or the end of the file. -/
def placeOf (finish : Position) (ahead : Tokens) : Position :=
  (ahead.head?.map Located.position).getD finish

/-- A fault at the token ahead, which ends the reading of a construct. -/
structure Stuck where
  fault : SyntaxFault
  ahead : Tokens

/-- Something else was allowed here. -/
def Stuck.expected (what : Expectation) (ahead : Tokens) : Stuck :=
  ⟨.expected what (peek ahead), ahead⟩

/-- The fault with its place. -/
def Stuck.located (finish : Position) (stuck : Stuck) : Located SyntaxFault :=
  ⟨placeOf finish stuck.ahead, stuck.fault⟩

/-- What a reader of one construct returns: the construct and the tokens behind it, or where it
stopped. -/
abbrev Read (α : Type) := Except Stuck (α × Tokens)

/-- The tokens that a reader leaves. -/
def leftBy {α : Type} : Read α → Tokens
  | .ok (_, ahead) => ahead
  | .error stuck => stuck.ahead

/-- A result together with the faults that did not stop its reader. -/
structure Noted (α : Type) where
  faults : List (Located SyntaxFault)
  value : α

/-- A result with more faults in front. -/
def Noted.after {α : Type} (faults : List (Located SyntaxFault)) (noted : Noted α) : Noted α :=
  ⟨faults ++ noted.faults, noted.value⟩

/-! ## Names, types and literals -/

/-- Reads one punctuation mark. -/
def readSymbol (mark : Symbol) : Tokens → Read Unit
  | token :: rest =>
    if token.value = .symbol mark then .ok ((), rest)
    else .error (.expected (.symbol mark) (token :: rest))
  | [] => .error (.expected (.symbol mark) [])

/-- Reads the further segments of a dotted name. -/
def readSegments : Tokens → Read (List String)
  | ⟨_, .symbol .dot⟩ :: ⟨_, .name segment⟩ :: rest =>
    match readSegments rest with
    | .ok (segments, ahead) => .ok (segment :: segments, ahead)
    | .error stuck => .error stuck
  | ⟨_, .symbol .dot⟩ :: rest => .error (.expected .nameAfterDot rest)
  | ahead => .ok ([], ahead)

/-- Reads a dotted name, as its first segment and the others. -/
def readPath (what : Expectation) : Tokens → Read (String × List String)
  | ⟨_, .name first⟩ :: rest =>
    match readSegments rest with
    | .ok (segments, ahead) => .ok ((first, segments), ahead)
    | .error stuck => .error stuck
  | ahead => .error (.expected what ahead)

/-- Reads a type. -/
def readType : Tokens → Read TypeRef
  | ⟨_, .symbol .leftBracket⟩ :: rest =>
    match readType rest with
    | .error stuck => .error stuck
    | .ok (element, ahead) =>
      match readSymbol .rightBracket ahead with
      | .ok (_, ahead) => .ok (.list element, ahead)
      | .error stuck => .error stuck
  | ahead =>
    match readPath .fieldType ahead with
    | .ok ((first, segments), ahead) => .ok (.ofPath first segments, ahead)
    | .error stuck => .error stuck

/-- The literal that a token is. -/
def Token.literal? : Token → Option Literal
  | .integer value => some (.integer value)
  | .float value => some (.float value)
  | .text content => some (.text content)
  | .name word =>
    if word = "true" then some (.boolean true)
    else if word = "false" then some (.boolean false)
    else none
  | _ => none

/-- Reads a literal. -/
def readLiteral : Tokens → Read Literal
  | token :: rest =>
    match token.value.literal? with
    | some literal => .ok (literal, rest)
    | none => .error (.expected .literal (token :: rest))
  | [] => .error (.expected .literal [])

/-! ## Fields -/

/-- Reads a question mark, if there is one. -/
def readOptional : Tokens → Bool × Tokens
  | ⟨_, .symbol .question⟩ :: rest => (true, rest)
  | ahead => (false, ahead)

/-- Reads a default value, if an equals sign announces one. -/
def readDefault : Tokens → Read (Option Literal)
  | ⟨_, .symbol .equals⟩ :: rest =>
    match readLiteral rest with
    | .ok (literal, ahead) => .ok (some literal, ahead)
    | .error stuck => .error stuck
  | ahead => .ok (none, ahead)

/-- Reads validators behind those already given. A repeated or unknown one is noted and left out. -/
def readValidators (given : List Validator) : Tokens → Noted (Read (List Validator))
  | ⟨_, .symbol .at⟩ :: ⟨position, .name name⟩ :: rest =>
    match Validator.ofWord? name with
    | some validator =>
      if validator ∈ given then
        (readValidators given rest).after [⟨position, .repeatedValidator validator⟩]
      else readValidators (given ++ [validator]) rest
    | none => (readValidators given rest).after [⟨position, .unknownValidator name⟩]
  | ⟨_, .symbol .at⟩ :: rest => ⟨[], .error (.expected .validatorName rest)⟩
  | ahead => ⟨[], .ok (given, ahead)⟩

/-- Reads a field behind its name. -/
def readField (name : String) (span : Span) (doc? : Option String) (ahead : Tokens) :
    Noted (Read Field) :=
  match readSymbol .colon ahead with
  | .error stuck => ⟨[], .error stuck⟩
  | .ok (_, ahead) =>
    match readType ahead with
    | .error stuck => ⟨[], .error stuck⟩
    | .ok (type, ahead) =>
      let (optional, ahead) := readOptional ahead
      match readDefault ahead with
      | .error stuck => ⟨[], .error stuck⟩
      | .ok (default?, ahead) =>
        match readValidators [] ahead with
        | ⟨faults, .error stuck⟩ => ⟨faults, .error stuck⟩
        | ⟨faults, .ok (validators, ahead)⟩ =>
          ⟨faults, .ok (⟨name, type, optional, default?, validators, doc?, span⟩, ahead)⟩

/-! ## Comments and recovery -/

/-- Splits off the doc comment lines ahead. -/
def takeDocs : Tokens → List String × Tokens
  | ⟨_, .doc line⟩ :: rest =>
    let (lines, ahead) := takeDocs rest
    (line :: lines, ahead)
  | ahead => ([], ahead)

/-- The doc comment that lines make up, if there are any. -/
def joinDocs : List String → Option String
  | [] => none
  | lines => some (String.intercalate "\n" lines)

/-- Whether a declaration starts here, rather than a field called `type`. -/
def startsDeclaration : Tokens → Bool
  | ⟨_, .name word⟩ :: ⟨_, .name _⟩ :: ⟨_, .symbol .leftBrace⟩ :: _ => word = "type"
  | _ => false

/-- Skips to the next comma or closing brace of the current type body, or to the next declaration.
Brackets and braces that open on the way have to close first. -/
def skipField : (depth : Nat) → Tokens → Tokens
  | _, [] => []
  | depth, token :: rest =>
    if depth = 0 ∧ (token.value = .symbol .comma ∨ token.value = .symbol .rightBrace) then
      token :: rest
    else if depth = 0 ∧ startsDeclaration (token :: rest) then token :: rest
    else if token.value = .symbol .leftBrace ∨ token.value = .symbol .leftBracket then
      skipField (depth + 1) rest
    else if token.value = .symbol .rightBrace ∨ token.value = .symbol .rightBracket then
      skipField (depth - 1) rest
    else skipField depth rest

/-- Drops a comma, if one is ahead. -/
def dropComma : Tokens → Tokens
  | ⟨_, .symbol .comma⟩ :: rest => rest
  | ahead => ahead

/-- Skips to the next `type` outside braces. -/
def skipDeclaration : (depth : Nat) → Tokens → Tokens
  | _, [] => []
  | depth, token :: rest =>
    if depth = 0 ∧ token.value = .name "type" then token :: rest
    else if token.value = .symbol .leftBrace then skipDeclaration (depth + 1) rest
    else if token.value = .symbol .rightBrace then skipDeclaration (depth - 1) rest
    else skipDeclaration depth rest

/-! ## What readers leave -/

/-- What is ahead behind a symbol is the end of what was ahead. -/
theorem readSymbol_suffix (mark : Symbol) (ahead : Tokens) :
    leftBy (readSymbol mark ahead) <:+ ahead := by
  unfold readSymbol
  split
  · split
    · exact List.suffix_cons _ _
    · exact List.suffix_rfl
  · exact List.suffix_rfl

/-- What is ahead behind segments is the end of what was ahead. -/
theorem readSegments_suffix (ahead : Tokens) : leftBy (readSegments ahead) <:+ ahead := by
  fun_induction readSegments ahead with
  | case1 _ _ segment rest segments left hread ih =>
    rw [hread] at ih
    exact (ih.trans (List.suffix_cons _ _)).trans (List.suffix_cons _ _)
  | case2 _ _ segment rest stuck hread ih =>
    rw [hread] at ih
    exact (ih.trans (List.suffix_cons _ _)).trans (List.suffix_cons _ _)
  | case3 _ rest _ => exact List.suffix_cons _ _
  | case4 ahead _ _ => exact List.suffix_rfl

/-- What is ahead behind a path is the end of what was ahead. -/
theorem readPath_suffix (what : Expectation) (ahead : Tokens) :
    leftBy (readPath what ahead) <:+ ahead := by
  unfold readPath
  split
  · next rest =>
    have ih := readSegments_suffix rest
    split <;> next hread =>
      rw [hread] at ih
      exact ih.trans (List.suffix_cons _ _)
  · exact List.suffix_rfl

/-- What is ahead behind a type is the end of what was ahead. -/
theorem readType_suffix (ahead : Tokens) : leftBy (readType ahead) <:+ ahead := by
  fun_induction readType ahead with
  | case1 _ rest stuck hread ih =>
    rw [hread] at ih
    exact ih.trans (List.suffix_cons _ _)
  | case2 _ rest element left hread _ left' hclose ih =>
    rw [hread] at ih
    have hsuffix := readSymbol_suffix .rightBracket left
    rw [hclose] at hsuffix
    exact (hsuffix.trans ih).trans (List.suffix_cons _ _)
  | case3 _ rest element left hread stuck hclose ih =>
    rw [hread] at ih
    have hsuffix := readSymbol_suffix .rightBracket left
    rw [hclose] at hsuffix
    exact (hsuffix.trans ih).trans (List.suffix_cons _ _)
  | case4 ahead _ first segments left hread =>
    have ih := readPath_suffix .fieldType ahead
    rw [hread] at ih
    exact ih
  | case5 ahead _ stuck hread =>
    have ih := readPath_suffix .fieldType ahead
    rw [hread] at ih
    exact ih

/-- What is ahead behind a literal is the end of what was ahead. -/
theorem readLiteral_suffix (ahead : Tokens) : leftBy (readLiteral ahead) <:+ ahead := by
  unfold readLiteral
  split
  · split
    · exact List.suffix_cons _ _
    · exact List.suffix_rfl
  · exact List.suffix_rfl

/-- What is ahead behind a question mark is the end of what was ahead. -/
theorem readOptional_suffix (ahead : Tokens) : (readOptional ahead).2 <:+ ahead := by
  unfold readOptional
  split
  · exact List.suffix_cons _ _
  · exact List.suffix_rfl

/-- What is ahead behind a default value is the end of what was ahead. -/
theorem readDefault_suffix (ahead : Tokens) : leftBy (readDefault ahead) <:+ ahead := by
  unfold readDefault
  split
  · next rest =>
    have ih := readLiteral_suffix rest
    split <;> next hread =>
      rw [hread] at ih
      exact ih.trans (List.suffix_cons _ _)
  · exact List.suffix_rfl

/-- What is ahead behind validators is the end of what was ahead. -/
theorem readValidators_suffix (given : List Validator) (ahead : Tokens) :
    leftBy (readValidators given ahead).value <:+ ahead := by
  fun_induction readValidators given ahead with
  | case1 given _ position name rest validator _ _ ih =>
    exact (ih.trans (List.suffix_cons _ _)).trans (List.suffix_cons _ _)
  | case2 given _ position name rest validator _ _ ih =>
    exact (ih.trans (List.suffix_cons _ _)).trans (List.suffix_cons _ _)
  | case3 given _ position name rest _ ih =>
    exact (ih.trans (List.suffix_cons _ _)).trans (List.suffix_cons _ _)
  | case4 given _ rest _ => exact List.suffix_cons _ _
  | case5 given ahead _ _ => exact List.suffix_rfl

/-- What is ahead behind a field is the end of what was ahead. -/
theorem readField_suffix (name : String) (span : Span) (doc? : Option String) (ahead : Tokens) :
    leftBy (readField name span doc? ahead).value <:+ ahead := by
  unfold readField
  have hcolon := readSymbol_suffix .colon ahead
  split
  · next hread => rw [hread] at hcolon; exact hcolon
  · next afterColon hread =>
    rw [hread] at hcolon
    have htype := readType_suffix afterColon
    split
    · next hread => rw [hread] at htype; exact htype.trans hcolon
    · next type afterType hread =>
      rw [hread] at htype
      have hoptional := readOptional_suffix afterType
      have hdefault := readDefault_suffix (readOptional afterType).2
      dsimp only
      split
      · next hread =>
        rw [hread] at hdefault
        exact ((hdefault.trans hoptional).trans htype).trans hcolon
      · next default? afterDefault hread =>
        rw [hread] at hdefault
        have hvalidators := readValidators_suffix [] afterDefault
        have hall := ((hdefault.trans hoptional).trans htype).trans hcolon
        split <;> next hread =>
          rw [hread] at hvalidators
          exact hvalidators.trans hall

/-- What is ahead behind doc comments is the end of what was ahead. -/
theorem takeDocs_suffix (ahead : Tokens) : (takeDocs ahead).2 <:+ ahead := by
  fun_induction takeDocs ahead with
  | case1 _ line rest lines left hdocs ih =>
    rw [hdocs] at ih
    exact ih.trans (List.suffix_cons _ _)
  | case2 ahead _ => exact List.suffix_rfl

/-- What is ahead once a field is skipped is the end of what was ahead. -/
theorem skipField_suffix (depth : Nat) (ahead : Tokens) : skipField depth ahead <:+ ahead := by
  fun_induction skipField depth ahead with
  | case1 => exact List.suffix_rfl
  | case2 => exact List.suffix_rfl
  | case3 => exact List.suffix_rfl
  | case4 _ _ _ _ _ _ ih => exact ih.trans (List.suffix_cons _ _)
  | case5 _ _ _ _ _ _ _ ih => exact ih.trans (List.suffix_cons _ _)
  | case6 _ _ _ _ _ _ _ ih => exact ih.trans (List.suffix_cons _ _)

/-- What is ahead behind a comma is the end of what was ahead. -/
theorem dropComma_suffix (ahead : Tokens) : dropComma ahead <:+ ahead := by
  unfold dropComma
  split
  · exact List.suffix_cons _ _
  · exact List.suffix_rfl

/-- What is ahead once a declaration is skipped is the end of what was ahead. -/
theorem skipDeclaration_suffix (depth : Nat) (ahead : Tokens) :
    skipDeclaration depth ahead <:+ ahead := by
  fun_induction skipDeclaration depth ahead with
  | case1 => exact List.suffix_rfl
  | case2 => exact List.suffix_rfl
  | case3 _ _ _ _ _ ih => exact ih.trans (List.suffix_cons _ _)
  | case4 _ _ _ _ _ _ ih => exact ih.trans (List.suffix_cons _ _)
  | case5 _ _ _ _ _ _ ih => exact ih.trans (List.suffix_cons _ _)

end SchemaBindings.Schema
