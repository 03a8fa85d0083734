import SchemaBindings.Schema.Readers

/-!
# From tokens to declarations

A schema file is an optional namespace line followed by type declarations. Reading goes on after a
fault: behind a broken field at the next comma or closing brace of its type, behind a broken
declaration at the next top-level `type`. So one pass over a file finds every fault in it, and a
file has declarations only if there is none.
-/

namespace SchemaBindings.Schema

open SchemaBindings.Text (Position)

/-! ## The body of a type -/

/-- What one place for a field held: the field if it could be read, the faults, and the tokens
behind it and behind the comma that ends it. -/
structure FieldEntry where
  field? : Option Field
  faults : List (Located SyntaxFault)
  ahead : Tokens

/-- Goes on behind a broken field. -/
def resumeField (ahead : Tokens) : Tokens :=
  dropComma (skipField 0 ahead)

/-- Whether a closing brace is ahead. -/
def closesBody : Tokens → Bool
  | token :: _ => token.value = .symbol .rightBrace
  | [] => false

/-- Ends a field: a comma is dropped, a closing brace or a new declaration is left, and all else is
a fault. -/
def endField (finish : Position) (ahead : Tokens) : List (Located SyntaxFault) × Tokens :=
  if peek ahead = some (.symbol .comma) then ([], dropComma ahead)
  else if closesBody ahead ∨ startsDeclaration ahead then ([], ahead)
  else ([(Stuck.expected .fieldEnd ahead).located finish], resumeField ahead)

/-- Reads the field that starts with `token`. -/
def readEntry (file : String) (finish : Position) (doc? : Option String) (token : Located Token)
    (rest : Tokens) : FieldEntry :=
  match token.value with
  | .name name =>
    match readField name ⟨file, token.position⟩ doc? rest with
    | ⟨faults, .ok (field, ahead)⟩ =>
      ⟨some field, faults ++ (endField finish ahead).1, (endField finish ahead).2⟩
    | ⟨faults, .error stuck⟩ => ⟨none, faults ++ [stuck.located finish], resumeField stuck.ahead⟩
  | _ =>
    ⟨none, [(Stuck.expected .fieldName (token :: rest)).located finish],
      resumeField (token :: rest)⟩

/-- What is ahead after a field is resumed is the end of what was ahead. -/
theorem resumeField_suffix (ahead : Tokens) : resumeField ahead <:+ ahead :=
  (dropComma_suffix _).trans (skipField_suffix 0 ahead)

/-- What is ahead behind the end of a field is the end of what was ahead. -/
theorem endField_suffix (finish : Position) (ahead : Tokens) :
    (endField finish ahead).2 <:+ ahead := by
  unfold endField
  split
  · exact dropComma_suffix ahead
  · split
    · exact List.suffix_rfl
    · exact resumeField_suffix ahead

/-- Skipping from a token that neither closes the body nor starts a declaration drops that token. -/
theorem resumeField_cons_suffix (token : Located Token) (rest : Tokens)
    (hclose : token.value ≠ .symbol .rightBrace)
    (hstart : startsDeclaration (token :: rest) = false) :
    resumeField (token :: rest) <:+ rest := by
  unfold resumeField skipField
  by_cases hcomma : token.value = .symbol .comma
  · obtain ⟨position, value⟩ := token
    subst hcomma
    simp [dropComma]
  · simp only [hcomma, hclose, hstart, or_self, and_false, if_false, Bool.false_eq_true]
    split
    · exact (dropComma_suffix _).trans (skipField_suffix _ rest)
    · split <;> exact (dropComma_suffix _).trans (skipField_suffix _ rest)

/-- A field entry takes at least its first token. -/
theorem readEntry_suffix (file : String) (finish : Position) (doc? : Option String)
    (token : Located Token) (rest : Tokens) (hclose : token.value ≠ .symbol .rightBrace)
    (hstart : startsDeclaration (token :: rest) = false) :
    (readEntry file finish doc? token rest).ahead <:+ rest := by
  unfold readEntry
  split
  · next name _ =>
    have hfield := readField_suffix name ⟨file, token.position⟩ doc? rest
    split
    · next faults field ahead hread =>
      rw [hread] at hfield
      exact (endField_suffix finish ahead).trans hfield
    · next faults stuck hread =>
      rw [hread] at hfield
      exact (resumeField_suffix stuck.ahead).trans hfield
  · exact resumeField_cons_suffix token rest hclose hstart

/-- The fields of a type, the faults among them, and the tokens behind its closing brace. -/
structure Body where
  fields : List Field
  faults : List (Located SyntaxFault)
  close : Except Stuck Tokens

/-- A body with one more entry in front. -/
def Body.after (entry : FieldEntry) (body : Body) : Body :=
  ⟨entry.field?.toList ++ body.fields, entry.faults ++ body.faults, body.close⟩

/-- Reads the body of a type behind its opening brace. -/
def readBody (file : String) (finish : Position) (typeName : String) (ahead : Tokens) : Body :=
  match _hdocs : (takeDocs ahead).2 with
  | [] => ⟨[], [], .error ⟨.unclosedAtEnd typeName, []⟩⟩
  | token :: rest =>
    if _hclose : token.value = .symbol .rightBrace then ⟨[], [], .ok rest⟩
    else if _hstart : startsDeclaration (token :: rest) then
      ⟨[], [], .error ⟨.unclosedAtDeclaration typeName, token :: rest⟩⟩
    else
      let entry := readEntry file finish (joinDocs (takeDocs ahead).1) token rest
      (readBody file finish typeName entry.ahead).after entry
termination_by ahead.length
decreasing_by
  have hentry := readEntry_suffix file finish (joinDocs (takeDocs ahead).1) token rest _hclose
    (by simpa using _hstart)
  have hlength := (takeDocs_suffix ahead).length_le
  rw [_hdocs, List.length_cons] at hlength
  have := hentry.length_le
  omega

/-- What is ahead behind a body is the end of what was ahead. -/
theorem readBody_suffix (file : String) (finish : Position) (typeName : String) (ahead : Tokens) :
    (match (readBody file finish typeName ahead).close with
      | .ok left => left
      | .error stuck => stuck.ahead) <:+ ahead := by
  fun_induction readBody file finish typeName ahead with
  | case1 => exact List.nil_suffix
  | case2 ahead token rest hdocs _ =>
    have hsuffix := takeDocs_suffix ahead
    rw [hdocs] at hsuffix
    exact (List.suffix_cons _ _).trans hsuffix
  | case3 ahead token rest hdocs _ _ =>
    have hsuffix := takeDocs_suffix ahead
    rw [hdocs] at hsuffix
    exact hsuffix
  | case4 ahead token rest hdocs hclose hstart entry ih =>
    have hsuffix := takeDocs_suffix ahead
    rw [hdocs] at hsuffix
    have hentry := readEntry_suffix file finish (joinDocs (takeDocs ahead).1) token rest hclose
      (by simpa using hstart)
    exact ((ih.trans hentry).trans (List.suffix_cons _ _)).trans hsuffix

/-! ## Declarations -/

/-- Reads a type declaration behind the word `type`, which stands at `position`. -/
def readDeclaration (file : String) (finish : Position) (namespacePath : String)
    (doc? : Option String) (position : Position) : Tokens → Noted (Read TypeDecl)
  | ⟨place, .name name⟩ :: rest =>
    let builtIn : List (Located SyntaxFault) :=
      if (Primitive.ofWord? name).isSome then [⟨place, .builtInTypeName name⟩] else []
    match readSymbol .leftBrace rest with
    | .error stuck => ⟨builtIn, .error stuck⟩
    | .ok (_, ahead) =>
      let body := readBody file finish name ahead
      match body.close with
      | .error stuck => ⟨builtIn ++ body.faults, .error stuck⟩
      | .ok ahead =>
        ⟨builtIn ++ body.faults,
          .ok (⟨name, namespacePath, body.fields, doc?, ⟨file, position⟩⟩, ahead)⟩
  | ahead => ⟨[], .error (.expected .typeName ahead)⟩

/-- What is ahead behind a declaration is the end of what was ahead. -/
theorem readDeclaration_suffix (file : String) (finish : Position) (namespacePath : String)
    (doc? : Option String) (position : Position) (ahead : Tokens) :
    leftBy (readDeclaration file finish namespacePath doc? position ahead).value <:+ ahead := by
  unfold readDeclaration
  split
  · next place name rest =>
    have hbrace := readSymbol_suffix .leftBrace rest
    dsimp only
    split
    · next stuck hread =>
      rw [hread] at hbrace
      exact hbrace.trans (List.suffix_cons _ _)
    · next afterBrace hread =>
      rw [hread] at hbrace
      have hbody := readBody_suffix file finish name afterBrace
      split <;> next hclose =>
        rw [hclose] at hbody
        exact (hbody.trans hbrace).trans (List.suffix_cons _ _)
  · exact List.suffix_rfl

/-- Reads the name of a namespace and the semicolon behind it. -/
def readNamespace (ahead : Tokens) : Read String :=
  match readPath .namespaceName ahead with
  | .error stuck => .error stuck
  | .ok ((first, segments), ahead) =>
    match readSymbol .semicolon ahead with
    | .error stuck => .error stuck
    | .ok (_, ahead) => .ok (dotted (first :: segments), ahead)

/-- What is ahead behind a namespace is the end of what was ahead. -/
theorem readNamespace_suffix (ahead : Tokens) : leftBy (readNamespace ahead) <:+ ahead := by
  unfold readNamespace
  have hpath := readPath_suffix .namespaceName ahead
  split
  · next hread => rw [hread] at hpath; exact hpath
  · next first segments afterPath hread =>
    rw [hread] at hpath
    have hmark := readSymbol_suffix .semicolon afterPath
    split <;> next hread =>
      rw [hread] at hmark
      exact hmark.trans hpath

/-- The namespace, the declarations and the faults of a file. -/
structure Contents where
  namespacePath? : Option String
  declarations : List TypeDecl
  faults : List (Located SyntaxFault)

/-- Contents with more faults in front. -/
def Contents.after (faults : List (Located SyntaxFault)) (contents : Contents) : Contents :=
  { contents with faults := faults ++ contents.faults }

/-- Contents with a declaration in front. -/
def Contents.declare (declaration : TypeDecl) (contents : Contents) : Contents :=
  { contents with declarations := declaration :: contents.declarations }

/-- Reads a file from a place between declarations. A namespace may be given only while none is
known and no declaration was read. -/
def readContents (file : String) (finish : Position) (namespacePath? : Option String)
    (started : Bool) (ahead : Tokens) : Contents :=
  match _hdocs : (takeDocs ahead).2 with
  | [] => ⟨namespacePath?, [], []⟩
  | token :: rest =>
    if token.value = .name "namespace" then
      match _hread : readNamespace rest with
      | .ok (name, left) =>
        if namespacePath?.isSome ∨ started then
          (readContents file finish namespacePath? started left).after
            [⟨token.position, .misplacedNamespace name⟩]
        else readContents file finish (some name) started left
      | .error stuck =>
        (readContents file finish namespacePath? started (skipDeclaration 0 stuck.ahead)).after
          [stuck.located finish]
    else if token.value = .name "type" then
      let doc? := joinDocs (takeDocs ahead).1
      match _hread :
          readDeclaration file finish (namespacePath?.getD "") doc? token.position rest with
      | ⟨faults, .ok (declaration, left)⟩ =>
        ((readContents file finish namespacePath? true left).declare declaration).after faults
      | ⟨faults, .error stuck⟩ =>
        (readContents file finish namespacePath? started (skipDeclaration 0 stuck.ahead)).after
          (faults ++ [stuck.located finish])
    else
      (readContents file finish namespacePath? started (skipDeclaration 0 rest)).after
        [(Stuck.expected .declaration (token :: rest)).located finish]
termination_by ahead.length
decreasing_by
  all_goals
    have hlength := (takeDocs_suffix ahead).length_le
    rw [_hdocs, List.length_cons] at hlength
  · have hleft := (readNamespace_suffix rest).length_le
    rw [_hread] at hleft
    exact Nat.lt_of_lt_of_le (Nat.lt_succ_of_le hleft) hlength
  · have hleft := (readNamespace_suffix rest).length_le
    rw [_hread] at hleft
    exact Nat.lt_of_lt_of_le (Nat.lt_succ_of_le hleft) hlength
  · have hleft := (readNamespace_suffix rest).length_le
    rw [_hread] at hleft
    have hskip := (skipDeclaration_suffix 0 stuck.ahead).length_le
    exact Nat.lt_of_lt_of_le (Nat.lt_succ_of_le (Nat.le_trans hskip hleft)) hlength
  · have hleft := (readDeclaration_suffix file finish (namespacePath?.getD "")
      (joinDocs (takeDocs ahead).1) token.position rest).length_le
    rw [_hread] at hleft
    exact Nat.lt_of_lt_of_le (Nat.lt_succ_of_le hleft) hlength
  · have hleft := (readDeclaration_suffix file finish (namespacePath?.getD "")
      (joinDocs (takeDocs ahead).1) token.position rest).length_le
    rw [_hread] at hleft
    have hskip := (skipDeclaration_suffix 0 stuck.ahead).length_le
    exact Nat.lt_of_lt_of_le (Nat.lt_succ_of_le (Nat.le_trans hskip hleft)) hlength
  · have hskip := (skipDeclaration_suffix 0 rest).length_le
    exact Nat.lt_of_lt_of_le (Nat.lt_succ_of_le hskip) hlength

/-- Faults in reading order; those at one place keep their order. -/
def sortFaults (faults : List (Located SyntaxFault)) : List (Located SyntaxFault) :=
  faults.mergeSort fun a b => !b.position.before a.position

/-- Reads a schema file: its declarations, or every fault in it. -/
def parse (path : String) (source : String) : Except (List SyntaxError) SchemaFile :=
  let lexing := lex source.toList
  let contents := readContents path lexing.finish none false lexing.tokens
  let lexical := lexing.faults.map fun fault => ⟨fault.position, .lexical fault.value⟩
  match sortFaults (lexical ++ contents.faults) with
  | [] => .ok ⟨path, contents.namespacePath?.getD "", contents.declarations⟩
  | faults => .error (faults.map fun fault => ⟨⟨path, fault.position⟩, fault.value⟩)

end SchemaBindings.Schema
