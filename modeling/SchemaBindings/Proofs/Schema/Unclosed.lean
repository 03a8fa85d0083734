import SchemaBindings.Proofs.Schema.Chunks
import SchemaBindings.Proofs.Schema.Removal

/-!
# A missing closing brace

The closing braces of a file are those of its declarations, in their order. If one of them but the
last is taken out, the body in front of it goes on into the next declaration, where it is found to
be unclosed; behind that, nothing is at fault. The loop over fields takes doc comments before it
looks for a declaration, but what ends a field does not: so a doc comment of the next declaration
behind a field without a comma is at fault as well.
-/

namespace SchemaBindings.Schema

open SchemaBindings.Text (Position)

namespace Grammar

variable {file namespacePath : String} {tokens : Tokens}

/-! ## Derivations at other places -/

section Moves

variable (place : Position → Position)

/-- Moved doc comments are doc comments with the same lines. -/
theorem Docs.move {lines : List String} (h : Docs tokens lines) :
    Docs (tokens.map (Located.move place)) lines := by
  induction h with
  | nil => exact .nil
  | cons position line _ ih => exact .cons _ line ih

/-- Moved segments are segments with the same names. -/
theorem Segments.move {segments : List String} (h : Segments tokens segments) :
    Segments (tokens.map (Located.move place)) segments := by
  induction h with
  | nil => exact .nil
  | cons dot position segment _ ih => exact .cons _ _ segment ih

/-- A moved path is a path with the same segments. -/
theorem Path.move {segments : List String} (h : Path tokens segments) :
    Path (tokens.map (Located.move place)) segments := by
  cases h with
  | mk position first h => exact .mk _ first (h.move place)

/-- A moved reference refers to the same type. -/
theorem Reference.move {type : TypeRef} (h : Reference tokens type) :
    Reference (tokens.map (Located.move place)) type := by
  induction h with
  | named h => exact .named (h.move place)
  | list opening closing _ ih =>
    rw [List.map_cons, List.map_append]
    exact .list _ _ ih

/-- A moved question mark says the same. -/
theorem Optionality.move {optional : Bool} (h : Optionality tokens optional) :
    Optionality (tokens.map (Located.move place)) optional := by
  cases h with
  | absent => exact .absent
  | present position => exact .present _

/-- A moved default value is the same value. -/
theorem Default.move {default? : Option Literal} (h : Default tokens default?) :
    Default (tokens.map (Located.move place)) default? := by
  cases h with
  | absent => exact .absent
  | present equals position h => exact .present _ _ h

/-- Moved validators are the same validators. -/
theorem Validators.move {validators : List Validator} (h : Validators tokens validators) :
    Validators (tokens.map (Located.move place)) validators := by
  induction h with
  | nil => exact .nil
  | cons mark position validator _ ih => exact .cons _ _ validator ih

/-- The moved tokens of a field are those of a field. -/
theorem Field.move {field : Schema.Field} (h : Field file tokens field) :
    ∃ moved, Field file (tokens.map (Located.move place)) moved := by
  cases h with
  | mk position colon name hdocs htype hoptional hdefault hvalidators hdifferent =>
    simp only [List.map_append, List.map_cons]
    exact ⟨_, .mk _ _ name (hdocs.move place) (htype.move place) (hoptional.move place)
      (hdefault.move place) (hvalidators.move place) hdifferent⟩

/-- The moved tokens of fields are those of fields. -/
theorem Fields.move {fields : List Schema.Field} (h : Fields file tokens fields) :
    ∃ moved, Fields file (tokens.map (Located.move place)) moved := by
  induction h with
  | last hfield =>
    obtain ⟨_, hmoved⟩ := hfield.move place
    exact ⟨_, .last hmoved⟩
  | lastComma comma hfield hdocs =>
    obtain ⟨_, hmoved⟩ := hfield.move place
    rw [List.map_append, List.map_cons]
    exact ⟨_, .lastComma _ hmoved (hdocs.move place)⟩
  | cons comma hfield _ ih =>
    obtain ⟨_, hmoved⟩ := hfield.move place
    obtain ⟨_, hothers⟩ := ih
    rw [List.map_append, List.map_cons]
    exact ⟨_, .cons _ hmoved hothers⟩

/-- The moved tokens of a body are those of a body. -/
theorem Body.move {fields : List Schema.Field} (h : Body file tokens fields) :
    ∃ moved, Body file (tokens.map (Located.move place)) moved := by
  cases h with
  | empty hdocs => exact ⟨_, .empty (hdocs.move place)⟩
  | fields hfields =>
    obtain ⟨_, hmoved⟩ := hfields.move place
    exact ⟨_, .fields hmoved⟩

/-- The moved tokens of a declaration are those of a declaration. -/
theorem Declaration.move {declaration : TypeDecl}
    (h : Declaration file namespacePath tokens declaration) :
    ∃ moved, Declaration file namespacePath (tokens.map (Located.move place)) moved := by
  cases h with
  | mk position name opening closing word hdocs hname hbody =>
    obtain ⟨_, hmoved⟩ := hbody.move place
    simp only [List.map_append, List.map_cons, List.map_nil]
    exact ⟨_, .mk _ _ _ _ word (hdocs.move place) hname hmoved⟩

/-- The moved tokens of declarations are those of declarations. -/
theorem Declarations.move {declarations : List TypeDecl}
    (h : Declarations file namespacePath tokens declarations) :
    ∃ moved, Declarations file namespacePath (tokens.map (Located.move place)) moved := by
  induction h with
  | nil => exact ⟨_, .nil⟩
  | cons hdeclaration _ ih =>
    obtain ⟨_, hmoved⟩ := hdeclaration.move place
    obtain ⟨_, hothers⟩ := ih
    rw [List.map_append]
    exact ⟨_, .cons hmoved hothers⟩

end Moves

end Grammar

/-! ## The tokens of fields -/

/-- Whether a token may stand behind the name of a field: all but doc comments, commas, semicolons
and braces. -/
def Token.inField : Token → Bool
  | .doc _ | .symbol .comma | .symbol .semicolon | .symbol .leftBrace | .symbol .rightBrace => false
  | _ => true

/-- Whether tokens end in a field, with no comma behind it. -/
def endsInField (tokens : Tokens) : Bool :=
  tokens.getLast?.any fun token => token.value.inField

/-- Whether tokens end in a field is decided by the last ones of them. -/
theorem endsInField_append (tokens : Tokens) {others : Tokens} (hne : others ≠ []) :
    endsInField (tokens ++ others) = endsInField others := by
  rw [endsInField, List.getLast?_append, List.getLast?_eq_some_getLast hne, endsInField,
    List.getLast?_eq_some_getLast hne]
  rfl

/-- Behind a token that stands in no field, only the tokens behind it matter. -/
theorem endsInField_append_cons (tokens : Tokens) {token : Located Token}
    (h : token.value.inField = false) (others : Tokens) :
    endsInField (tokens ++ token :: others) = endsInField others := by
  cases others with
  | nil => simp [endsInField, h]
  | cons next others =>
    rw [← List.singleton_append, ← List.append_assoc, endsInField_append _ (List.cons_ne_nil _ _)]

/-- Tokens that all may stand in a field end in a field. -/
theorem endsInField_of_forall {tokens : Tokens} (hne : tokens ≠ [])
    (h : ∀ token ∈ tokens, token.value.inField = true) : endsInField tokens = true := by
  rw [endsInField, List.getLast?_eq_some_getLast hne]
  exact h _ (List.getLast_mem hne)

/-- Where no token is a mark there are no marks. -/
theorem countMark_eq_zero {mark : Symbol} {tokens : Tokens}
    (h : ∀ token ∈ tokens, token.value ≠ .symbol mark) :
    countMark mark tokens = 0 :=
  List.countP_eq_zero.mpr (by simpa using h)

namespace Grammar

variable {file namespacePath : String} {tokens : Tokens}

/-- Every token of doc comments is a doc comment. -/
theorem Docs.forall_doc {lines : List String} (h : Docs tokens lines) :
    ∀ token ∈ tokens, ∃ line, token.value = .doc line := by
  induction h with
  | nil => simp
  | cons position line _ ih => simpa using ih

/-- Every token of segments may stand in a field. -/
theorem Segments.inField {segments : List String} (h : Segments tokens segments) :
    ∀ token ∈ tokens, token.value.inField = true := by
  induction h with
  | nil => simp
  | cons dot position segment _ ih => simpa [Token.inField] using ih

/-- Every token of a path may stand in a field. -/
theorem Path.inField {segments : List String} (h : Path tokens segments) :
    ∀ token ∈ tokens, token.value.inField = true := by
  cases h with
  | mk position first h => simpa [Token.inField] using h.inField

/-- Every token of a reference may stand in a field. -/
theorem Reference.inField {type : TypeRef} (h : Reference tokens type) :
    ∀ token ∈ tokens, token.value.inField = true := by
  induction h with
  | named h => exact h.inField
  | list opening closing _ ih =>
    intro token htoken
    rcases List.mem_cons.mp htoken with rfl | htoken
    · rfl
    · rcases List.mem_append.mp htoken with htoken | htoken
      · exact ih token htoken
      · rw [List.mem_singleton.mp htoken]
        rfl

/-- A question mark may stand in a field. -/
theorem Optionality.inField {optional : Bool} (h : Optionality tokens optional) :
    ∀ token ∈ tokens, token.value.inField = true := by
  cases h <;> simp [Token.inField]

/-- A literal may stand in a field. -/
theorem IsLiteral.inField {token : Token} {literal : Literal} (h : IsLiteral token literal) :
    token.inField = true := by
  cases h <;> rfl

/-- Every token of a default value may stand in a field. -/
theorem Default.inField {default? : Option Literal} (h : Default tokens default?) :
    ∀ token ∈ tokens, token.value.inField = true := by
  cases h with
  | absent => simp
  | present equals position h => simpa [Token.inField] using h.inField

/-- Every token of validators may stand in a field. -/
theorem Validators.inField {validators : List Validator} (h : Validators tokens validators) :
    ∀ token ∈ tokens, token.value.inField = true := by
  induction h with
  | nil => simp
  | cons mark position validator _ ih => simpa [Token.inField] using ih

/-- A field is doc comments and tokens of its own. -/
theorem Field.exists_inField {field : Schema.Field} (h : Field file tokens field) :
    ∃ docs lines own, tokens = docs ++ own ∧ Docs docs lines ∧ own ≠ [] ∧
      ∀ token ∈ own, token.value.inField = true := by
  cases h with
  | mk position colon name hdocs htype hoptional hdefault hvalidators hdifferent =>
    refine ⟨_, _, _, rfl, hdocs, List.cons_ne_nil _ _, fun token htoken => ?_⟩
    simp only [List.mem_cons, List.mem_append] at htoken
    rcases htoken with rfl | rfl | htoken | htoken | htoken | htoken
    · rfl
    · rfl
    · exact htype.inField token htoken
    · exact hoptional.inField token htoken
    · exact hdefault.inField token htoken
    · exact hvalidators.inField token htoken

/-- Doc comments do not end in a field. -/
theorem Docs.endsInField {lines : List String} (h : Docs tokens lines) :
    endsInField tokens = false := by
  induction h with
  | nil => rfl
  | cons position line _ ih => exact (endsInField_append_cons [] rfl _).trans ih

/-- Doc comments behind doc comments are doc comments, with the lines of both. -/
theorem Docs.append {others : Tokens} {lines more : List String} (h : Docs tokens lines)
    (h' : Docs others more) :
    Docs (tokens ++ others) (lines ++ more) := by
  induction h with
  | nil => exact h'
  | cons position line _ ih => exact .cons position line ih

/-- The tokens of a field end in a field. -/
theorem Field.endsInField {field : Schema.Field} (h : Field file tokens field) :
    endsInField tokens = true := by
  obtain ⟨docs, lines, own, rfl, -, hne, hown⟩ := h.exists_inField
  rw [endsInField_append docs hne, endsInField_of_forall hne hown]

/-! ## Braces -/

/-- There are no marks among doc comments. -/
theorem Docs.countMark_eq_zero {lines : List String} (h : Docs tokens lines) (mark : Symbol) :
    countMark mark tokens = 0 := by
  refine Schema.countMark_eq_zero fun token htoken hvalue => ?_
  obtain ⟨line, hline⟩ := h.forall_doc token htoken
  simp [hline] at hvalue

/-- There is no closing brace in a field. -/
theorem Field.countMark_eq_zero {field : Schema.Field} (h : Field file tokens field) :
    countMark .rightBrace tokens = 0 := by
  obtain ⟨docs, lines, own, rfl, hdocs, -, hown⟩ := h.exists_inField
  have hbrace : ∀ token ∈ own, token.value ≠ .symbol .rightBrace := by
    intro token htoken hvalue
    have hinside := hown token htoken
    rw [hvalue] at hinside
    contradiction
  rw [countMark_append, hdocs.countMark_eq_zero, Schema.countMark_eq_zero hbrace]

/-- There is no closing brace among fields. -/
theorem Fields.countMark_eq_zero {fields : List Schema.Field} (h : Fields file tokens fields) :
    countMark .rightBrace tokens = 0 := by
  induction h with
  | last hfield => exact hfield.countMark_eq_zero
  | lastComma comma hfield hdocs =>
    simp [countMark_append, countMark_cons, hfield.countMark_eq_zero, hdocs.countMark_eq_zero]
  | cons comma hfield _ ih => simp [countMark_append, countMark_cons, hfield.countMark_eq_zero, ih]

/-- There is no closing brace in a body. -/
theorem Body.countMark_eq_zero {fields : List Schema.Field} (h : Body file tokens fields) :
    countMark .rightBrace tokens = 0 := by
  cases h with
  | empty hdocs => exact hdocs.countMark_eq_zero _
  | fields hfields => exact hfields.countMark_eq_zero

/-- There is no closing brace in a path. -/
theorem Path.countMark_eq_zero {segments : List String} (h : Path tokens segments) :
    countMark .rightBrace tokens = 0 := by
  refine Schema.countMark_eq_zero fun token htoken hvalue => ?_
  have hinside := h.inField token htoken
  rw [hvalue] at hinside
  contradiction

end Grammar

/-- A mark that is not among the first tokens is behind them. -/
theorem exists_front_of_countMark {mark : Symbol} {gap : Position}
    {tokens others front back : Tokens}
    (h : tokens ++ others = front ++ ⟨gap, .symbol mark⟩ :: back)
    (hcount : countMark mark tokens = 0) :
    ∃ left, front = tokens ++ left ∧ others = left ++ ⟨gap, .symbol mark⟩ :: back := by
  rcases List.append_eq_append_iff.mp h with ⟨left, rfl, rfl⟩ | ⟨left, rfl, hleft⟩
  · exact ⟨left, rfl, rfl⟩
  · cases left with
    | nil => exact ⟨[], by simp, hleft.symm⟩
    | cons token left =>
      obtain ⟨rfl, rfl⟩ := List.cons.inj hleft
      simp [countMark_append, countMark_cons] at hcount

/-! ## An unclosed body -/

section Unclosed

variable {file : String} {finish : Position} {docs : Tokens} {lines : List String}
  {heading : Heading}

/-- The fault of a doc comment behind a field without a comma. -/
def strayDoc (front : Tokens) : Tokens → List (Located SyntaxFault)
  | ⟨position, .doc line⟩ :: _ =>
    if endsInField front then [⟨position, .expected .fieldEnd (some (.doc line))⟩] else []
  | _ => []

/-- A declaration starts with its heading. -/
theorem startsDeclaration_heading (rest : Tokens) :
    startsDeclaration (heading.tokens ++ rest) = true := by
  simp [Heading.tokens, startsDeclaration]

/-- Skipping from doc comments in front of a declaration ends at that declaration. -/
theorem resumeField_docs (hdocs : Grammar.Docs docs lines) (rest : Tokens) :
    resumeField (docs ++ (heading.tokens ++ rest)) = heading.tokens ++ rest := by
  have hskip : skipField 0 (docs ++ (heading.tokens ++ rest)) = heading.tokens ++ rest := by
    induction hdocs with
    | nil =>
      have hstart := @startsDeclaration_heading heading rest
      rw [List.nil_append]
      rw [Heading.tokens, List.cons_append] at hstart ⊢
      rw [skipField, if_neg (by simp), if_pos ⟨rfl, hstart⟩]
    | cons position line _ ih => simpa [skipField, startsDeclaration] using ih
  rw [resumeField, hskip]
  rfl

/-- Behind a field without a comma, another declaration ends the field, with a fault if a doc
comment is in front. -/
theorem endField_docs (hdocs : Grammar.Docs docs lines) {front : Tokens}
    (hfront : endsInField front = true) (rest : Tokens) :
    endField finish (docs ++ (heading.tokens ++ rest)) =
      (strayDoc front (docs ++ (heading.tokens ++ rest)), heading.tokens ++ rest) := by
  cases hdocs with
  | nil =>
    rw [List.nil_append, endField, if_neg (by simp [Heading.tokens]),
      if_pos (.inr (startsDeclaration_heading rest))]
    rfl
  | cons position line hdocs =>
    have hresume := @resumeField_docs _ _ heading (.cons position line hdocs) rest
    rw [endField, if_neg (by simp), if_neg (by simp [closesBody, startsDeclaration]),
      hresume, List.cons_append, strayDoc, if_pos hfront]
    rfl

/-- Behind tokens that do not end in a field there is no stray doc comment. -/
theorem strayDoc_eq_nil {front : Tokens} (h : endsInField front = false) (behind : Tokens) :
    strayDoc front behind = [] := by
  unfold strayDoc
  split
  · rw [h, if_neg Bool.false_ne_true]
  · rfl

/-- Whether a doc comment is stray depends on whether the tokens in front of it end in a field. -/
theorem strayDoc_congr {front other : Tokens} (h : endsInField front = endsInField other)
    (behind : Tokens) :
    strayDoc front behind = strayDoc other behind := by
  unfold strayDoc
  rw [h]

/-- Doc comments and a declaration are no body. -/
theorem readBody_declaration (typeName : String) (hdocs : Grammar.Docs docs lines) (rest : Tokens) :
    readBody file finish typeName (docs ++ (heading.tokens ++ rest)) =
      ⟨[], [], .error ⟨.unclosedAtDeclaration typeName, heading.tokens ++ rest⟩⟩ := by
  have htake :=
    takeDocs_append hdocs (heading.tokens ++ rest) (by simp [StartsWithDoc, Heading.tokens])
  have hstart := @startsDeclaration_heading heading rest
  rw [Heading.tokens, List.cons_append] at htake hstart ⊢
  rw [readBody_of_takeDocs file finish typeName htake, if_neg (by simp), if_pos hstart]

/-- Fields that go on into the next declaration are left there, and nothing else is at fault but a
doc comment behind a field. -/
theorem readBody_fields_declaration (typeName : String) {body : Tokens} {fields : List Field}
    (hbody : Grammar.Fields file body fields) (hdocs : Grammar.Docs docs lines) (rest : Tokens) :
    let read := readBody file finish typeName (body ++ (docs ++ (heading.tokens ++ rest)))
    read.faults = strayDoc body (docs ++ (heading.tokens ++ rest)) ∧
      read.close = .error ⟨.unclosedAtDeclaration typeName, heading.tokens ++ rest⟩ := by
  dsimp only
  induction hbody with
  | @last tokens field hfield =>
    have hleaves : LeavesField (docs ++ (heading.tokens ++ rest)) := by
      cases hdocs <;> simp [LeavesField, Heading.tokens]
    have hstop := @readBody_declaration file finish [] [] heading typeName .nil rest
    rw [List.nil_append] at hstop
    rw [readBody_field_append hfield finish typeName hleaves,
      endField_docs hdocs hfield.endsInField, hstop]
    exact ⟨List.append_nil _, rfl⟩
  | @lastComma comma tokens docs' field lines' hfield hdocs' =>
    have hstop := @readBody_declaration file finish _ _ heading typeName (hdocs'.append hdocs) rest
    have hends : endsInField (tokens ++ ⟨comma, .symbol .comma⟩ :: docs') = false :=
      (endsInField_append_cons tokens rfl docs').trans hdocs'.endsInField
    rw [List.append_assoc] at hstop
    rw [strayDoc_eq_nil hends, List.append_assoc, List.cons_append,
      readBody_field hfield finish typeName (.inl rfl), dropComma, hstop]
    exact ⟨rfl, rfl⟩
  | @cons comma tokens others field fields hfield _ ih =>
    have hends : endsInField (tokens ++ ⟨comma, .symbol .comma⟩ :: others) = endsInField others :=
      endsInField_append_cons tokens rfl others
    rw [strayDoc_congr hends, List.append_assoc, List.cons_append,
      readBody_field hfield finish typeName (.inl rfl), dropComma]
    exact ih

/-- A body that goes on into the next declaration is unclosed there, and nothing else is at fault
but a doc comment behind a field. -/
theorem readBody_unclosed (typeName : String) {body : Tokens} {fields : List Field}
    (hbody : Grammar.Body file body fields) (hdocs : Grammar.Docs docs lines) (rest : Tokens) :
    let read := readBody file finish typeName (body ++ (docs ++ (heading.tokens ++ rest)))
    read.faults = strayDoc body (docs ++ (heading.tokens ++ rest)) ∧
      read.close = .error ⟨.unclosedAtDeclaration typeName, heading.tokens ++ rest⟩ := by
  cases hbody with
  | empty hdocs' =>
    have hstop := @readBody_declaration file finish _ _ heading typeName (hdocs'.append hdocs) rest
    rw [List.append_assoc] at hstop
    dsimp only
    rw [hstop, strayDoc_eq_nil hdocs'.endsInField]
    exact ⟨rfl, rfl⟩
  | fields hfields => exact readBody_fields_declaration typeName hfields hdocs rest

/-! ## Files -/

/-- Behind a declaration that is stuck at another one, the rest is read from there. -/
theorem readContents_of_stuck {place : Position} {namespacePath? : Option String} {started : Bool}
    {ahead rest left : Tokens} {fault : SyntaxFault} {faults : List (Located SyntaxFault)}
    (htake : takeDocs ahead = (lines, ⟨place, .name "type"⟩ :: rest))
    (hread : readDeclaration file finish (namespacePath?.getD "") (joinDocs lines) place rest =
      ⟨faults, .error ⟨fault, heading.tokens ++ left⟩⟩) :
    (readContents file finish namespacePath? started ahead).faults =
      faults ++ ⟨heading.keyword, fault⟩ ::
        (readContents file finish namespacePath? started (heading.tokens ++ left)).faults := by
  have hskip : skipDeclaration 0 (heading.tokens ++ left) = heading.tokens ++ left := by
    rw [Heading.tokens, List.cons_append, skipDeclaration, if_pos ⟨rfl, rfl⟩]
  conv => lhs; rw [readContents]
  split
  · next h => simp [htake] at h
  · next token others h =>
    obtain ⟨rfl, rfl⟩ : ⟨place, .name "type"⟩ = token ∧ rest = others := by simpa [htake] using h
    rw [if_neg (by simp), if_pos rfl]
    dsimp only
    rw [htake]
    split
    · next h => simp [hread] at h
    · next noted stuck h =>
      obtain ⟨rfl, rfl⟩ : faults = noted ∧
        ⟨fault, heading.tokens ++ left⟩ = stuck := by simpa [hread] using h
      rw [hskip]
      simp [Contents.after, Stuck.located, placeOf, Heading.tokens]

/-- A declaration is doc comments, a heading and a body in front of a closing brace; without the doc
comments it still is a declaration. -/
theorem exists_heading_of_declaration {namespacePath : String} {tokens : Tokens}
    {declaration : TypeDecl} (h : Grammar.Declaration file namespacePath tokens declaration) :
    ∃ (docs : Tokens) (lines : List String) (heading : Heading) (body : Tokens)
      (fields : List Field)
      (closing : Position),
      tokens = docs ++ (heading.tokens ++ (body ++ [⟨closing, .symbol .rightBrace⟩])) ∧
      Grammar.Docs docs lines ∧
      Grammar.Body file body fields ∧ (∀ kind : Primitive, kind.word ≠ heading.name.value) ∧
      declaration.name = heading.name.value ∧ declaration.span.position = heading.keyword ∧
      ∃ plain, Grammar.Declaration file namespacePath
        (heading.tokens ++ (body ++ [⟨closing, .symbol .rightBrace⟩])) plain := by
  cases h with
  | mk position place opening closing name hdocs hname hbody =>
    exact ⟨_, _, ⟨position, ⟨place, name⟩, opening⟩, _, _, closing, rfl, hdocs,
      hbody, hname, rfl, rfl, _, .mk position place opening closing name .nil hname hbody⟩

/-- The faults of a declaration without its closing brace, in front of the next one. -/
def unclosedFaults (front back : Tokens) (name : String) (next : Position) :
    List (Located SyntaxFault) :=
  strayDoc front back ++ [⟨next, .unclosedAtDeclaration name⟩]

/-- The faults of a missing brace move with the tokens. -/
theorem unclosedFaults_map (front back : Tokens) (name : String) (next : Position)
    (place : Position → Position) :
    unclosedFaults front (back.map (Located.move place)) name (place next) =
      (unclosedFaults front back name next).map (Located.move place) := by
  have hdoc : strayDoc front (back.map (Located.move place)) =
      (strayDoc front back).map (Located.move place) := by
    match back with
    | [] => rfl
    | ⟨position, value⟩ :: rest =>
      cases value with
      | doc line =>
        simp only [List.map_cons, Located.move_mk, strayDoc]
        split <;> rfl
      | _ => rfl
  rw [unclosedFaults, hdoc, unclosedFaults, List.map_append]
  rfl

/-- A declaration that goes on into another one is unclosed there, and the rest is read from
there. -/
theorem faults_readContents_open {namespacePath? : Option String} {started : Bool}
    {body nextDocs : Tokens} {nextLines : List String} {nextHeading : Heading} {fields : List Field}
    (hdocs : Grammar.Docs docs lines) (hname : ∀ kind : Primitive, kind.word ≠ heading.name.value)
    (hbody : Grammar.Body file body fields) (hnextDocs : Grammar.Docs nextDocs nextLines)
    (rest : Tokens) :
    (readContents file finish namespacePath? started
        (docs ++ (heading.tokens ++ (body ++ (nextDocs ++ (nextHeading.tokens ++ rest)))))).faults =
      unclosedFaults body (nextDocs ++ (nextHeading.tokens ++ rest)) heading.name.value
        nextHeading.keyword ++
        (readContents file finish namespacePath? started (nextHeading.tokens ++ rest)).faults := by
  obtain ⟨hfaults, hclose⟩ :=
    @readBody_unclosed file finish _ _ nextHeading heading.name.value _ _ hbody hnextDocs rest
  have hword := (Graph.ofWord?_eq_none_iff heading.name.value).mpr hname
  generalize nextDocs ++ (nextHeading.tokens ++ rest) = behind at hfaults hclose ⊢
  have htake :=
    takeDocs_append hdocs (heading.tokens ++ (body ++ behind))
      (by simp [StartsWithDoc, Heading.tokens])
  rw [unclosedFaults, List.append_assoc]
  refine readContents_of_stuck htake ?_
  simp [readDeclaration, readSymbol, hword, hclose, hfaults]

/-- A heading at another place. -/
def Heading.move (place : Position → Position) (heading : Heading) : Heading :=
  ⟨place heading.keyword, heading.name.move place, place heading.opening⟩

/-- The moved tokens of a heading are those of the moved heading. -/
theorem Heading.map_tokens (place : Position → Position) (heading : Heading) :
    heading.tokens.map (Located.move place) = (heading.move place).tokens := rfl

/-- Where the first declaration goes on into the second one, nothing is at fault but a doc comment
behind a field and the missing brace. -/
theorem faults_readContents_second {namespacePath? : Option String} {body others trailing : Tokens}
    {more : List String} {fields : List Field} {next : TypeDecl} {declarations : List TypeDecl}
    (hdocs : Grammar.Docs docs lines) (hname : ∀ kind : Primitive, kind.word ≠ heading.name.value)
    (hbody : Grammar.Body file body fields)
    (hothers : Grammar.Declarations file (namespacePath?.getD "") others (next :: declarations))
    (htrailing : Grammar.Docs trailing more) (place : Position → Position) (started : Bool) :
    (readContents file finish namespacePath? started
        (docs ++ (heading.tokens ++
          (body ++ (others ++ trailing).map (Located.move place))))).faults =
      (unclosedFaults body (others ++ trailing) heading.name.value next.span.position).map
        (Located.move place) := by
  cases hothers with
  | @cons tokens others _ _ hnext hothers =>
    obtain ⟨nextDocs, nextLines, nextHeading, nextBody, _, closing, rfl, hnextDocs, -, -, -,
      hposition, _, hplain⟩ :=
      exists_heading_of_declaration hnext
    obtain ⟨_, hmoved⟩ := (Grammar.Declarations.cons hplain hothers).move place
    have hread := readContents_declarations hmoved (htrailing.move place) finish started
    rw [← unclosedFaults_map, hposition]
    simp only [List.append_assoc, List.map_append, Heading.map_tokens] at hread ⊢
    rw [faults_readContents_open hdocs hname hbody (hnextDocs.move place), hread]
    exact List.append_nil _

/-- The faults of a missing brace depend on whether the tokens in front of it end in a field. -/
theorem unclosedFaults_congr {front other : Tokens} (h : endsInField front = endsInField other)
    (back : Tokens) (name : String) (next : Position) :
    unclosedFaults front back name next = unclosedFaults other back name next := by
  rw [unclosedFaults, strayDoc_congr h, unclosedFaults]

end Unclosed

/-! ## Around a closing brace -/

/-- What stands around the closing brace of a declaration that is not the last: that declaration up
to its brace in front, behind any earlier ones; and the next one behind, with any later ones and doc
comments at the end. -/
inductive AroundBrace (file namespacePath : String) : Tokens → Tokens → String → TypeDecl → Prop
  | closed {docs body others trailing : Tokens} {lines trailingLines : List String}
      {heading : Heading}
      {fields : List Field} {next : TypeDecl} {later : List TypeDecl}
      (hdocs : Grammar.Docs docs lines)
      (hname : ∀ kind : Primitive, kind.word ≠ heading.name.value)
      (hbody : Grammar.Body file body fields)
      (hothers : Grammar.Declarations file namespacePath others (next :: later))
      (htrailing : Grammar.Docs trailing trailingLines) :
      AroundBrace file namespacePath (docs ++ (heading.tokens ++ body)) (others ++ trailing)
        heading.name.value next
  | later {tokens front back : Tokens} {declaration next : TypeDecl} {name : String}
      (hdeclaration : Grammar.Declaration file namespacePath tokens declaration)
      (h : AroundBrace file namespacePath front back name next) :
      AroundBrace file namespacePath (tokens ++ front) back name next

namespace AroundBrace

variable {front back : Tokens} {name : String} {next : TypeDecl}

/-- Behind the brace is a name or a doc comment. -/
theorem peek_back {file namespacePath : String}
    (h : AroundBrace file namespacePath front back name next) :
    (∃ word, peek back = some (.name word)) ∨ ∃ line, peek back = some (.doc line) := by
  induction h with
  | closed _ _ _ hothers _ =>
    cases hothers with
    | cons hnext _ =>
      obtain ⟨docs, _, heading, _, _, _, rfl, hdocs, -⟩ := exists_heading_of_declaration hnext
      cases hdocs with
      | nil => exact .inl ⟨_, rfl⟩
      | cons position line _ => exact .inr ⟨line, rfl⟩
  | later _ _ ih => exact ih

/-- Without the brace, the file has the faults of the declaration that it closed. -/
theorem faults_readContents {file : String} {namespacePath? : Option String}
    (h : AroundBrace file (namespacePath?.getD "") front back name next) (finish : Position)
    (place : Position → Position) (started : Bool) :
    (readContents file finish namespacePath? started
      (front ++ back.map (Located.move place))).faults =
      (unclosedFaults front back name next.span.position).map (Located.move place) := by
  induction h generalizing started with
  | @closed docs body _ _ _ _ heading _ _ _ hdocs hname hbody hothers htrailing =>
    have hends : endsInField (docs ++ (heading.tokens ++ body)) = endsInField body := by
      have hopening := @endsInField_append_cons
        (docs ++ [⟨heading.keyword, .name "type"⟩,
          ⟨heading.name.position, .name heading.name.value⟩])
        ⟨heading.opening, .symbol .leftBrace⟩ rfl body
      simpa [Heading.tokens] using hopening
    rw [unclosedFaults_congr hends, List.append_assoc, List.append_assoc]
    exact faults_readContents_second hdocs hname hbody hothers htrailing place started
  | @later tokens front _ _ _ _ hdeclaration _ ih =>
    have hends : endsInField (tokens ++ front) = endsInField front := by
      obtain ⟨docs, _, heading, body, _, closing, rfl, -⟩ :=
        exists_heading_of_declaration hdeclaration
      have hclosing := @endsInField_append_cons (docs ++ (heading.tokens ++ body))
        ⟨closing, .symbol .rightBrace⟩ rfl front
      simpa using hclosing
    rw [unclosedFaults_congr hends, List.append_assoc, readContents_declaration hdeclaration]
    exact ih true

end AroundBrace

/-- Every closing brace but the last stands in this way, that of the declaration which as many
braces are in front of. -/
theorem aroundBrace_of_declarations {file namespacePath : String}
    {tokens trailing front back : Tokens} {gap : Position} {lines : List String}
    {declaration next : TypeDecl} {declarations : List TypeDecl}
    (h : Grammar.Declarations file namespacePath tokens declarations)
    (htrailing : Grammar.Docs trailing lines)
    (hbrace : tokens ++ trailing = front ++ ⟨gap, .symbol .rightBrace⟩ :: back)
    (hdeclaration : declarations[countMark .rightBrace front]? = some declaration)
    (hnext : declarations[countMark .rightBrace front + 1]? = some next) :
    AroundBrace file namespacePath front back declaration.name next := by
  induction h generalizing front with
  | nil => simp at hdeclaration
  | @cons tokens others first declarations hfirst hothers ih =>
    obtain ⟨docs, _, heading, body, _, closing, rfl, hdocs, hbody, hname, hword, -, -⟩ :=
      exists_heading_of_declaration hfirst
    have hcount : countMark .rightBrace (docs ++ (heading.tokens ++ body)) = 0 := by
      simp [countMark_append, Heading.tokens, countMark_cons, hdocs.countMark_eq_zero,
        hbody.countMark_eq_zero]
    have hwhole : (docs ++ (heading.tokens ++ body)) ++ ⟨closing, .symbol .rightBrace⟩ ::
        (others ++ trailing) = front ++ ⟨gap, .symbol .rightBrace⟩ :: back := by
      rw [← hbrace]
      simp
    obtain ⟨left, rfl, hleft⟩ := exists_front_of_countMark hwhole hcount
    cases left with
    | nil =>
      obtain ⟨-, rfl⟩ := List.cons.inj hleft
      rw [List.append_nil, hcount] at hdeclaration hnext
      obtain rfl : first = declaration := by simpa using hdeclaration
      cases declarations with
      | nil => simp at hnext
      | cons second declarations =>
        obtain rfl : second = next := by simpa using hnext
        rw [List.append_nil, hword]
        exact .closed hdocs hname hbody hothers htrailing
    | cons token left =>
      obtain ⟨rfl, hbehind⟩ := List.cons.inj hleft
      have hmore : countMark .rightBrace ((docs ++ (heading.tokens ++ body)) ++
            ⟨closing, .symbol .rightBrace⟩ :: left) =
          countMark .rightBrace left + 1 := by
        rw [countMark_append, hcount, countMark_cons, if_pos rfl, Nat.zero_add]
      rw [hmore] at hdeclaration hnext
      have haround := ih hbehind (by simpa using hdeclaration) (by simpa using hnext)
      have hsame : (docs ++ (heading.tokens ++ body)) ++ ⟨closing, .symbol .rightBrace⟩ :: left =
          (docs ++ (heading.tokens ++ (body ++ [⟨closing, .symbol .rightBrace⟩]))) ++
            left := by simp
      rw [hsame]
      exact .later hfirst haround

/-- Behind every closing brace of a file but the last is a name or a doc comment; and without that
brace, the file has the faults of the declaration that it closed. -/
theorem faults_readContents_file {file : String} {tokens front back : Tokens} {gap : Position}
    {schema : SchemaFile} {declaration next : TypeDecl} (h : Grammar.File file tokens schema)
    (hbrace : tokens = front ++ ⟨gap, .symbol .rightBrace⟩ :: back)
    (hdeclaration : schema.declarations[countMark .rightBrace front]? = some declaration)
    (hnext : schema.declarations[countMark .rightBrace front + 1]? = some next) (finish : Position)
    (place : Position → Position) :
    ((∃ word, peek back = some (.name word)) ∨ ∃ line, peek back = some (.doc line)) ∧
      (readContents file finish none false (front ++ back.map (Located.move place))).faults =
        (unclosedFaults front back declaration.name next.span.position).map
          (Located.move place) := by
  cases h with
  | mk hheader hdeclarations htrailing =>
    cases hheader with
    | absent =>
      have haround := aroundBrace_of_declarations hdeclarations htrailing hbrace hdeclaration hnext
      exact ⟨haround.peek_back, haround.faults_readContents finish place false⟩
    | @present position closing docs path _ _ hdocs hpath =>
      have hcount : countMark .rightBrace
          (docs ++ ⟨position, .name "namespace"⟩ :: (path ++ [⟨closing, .symbol .semicolon⟩])) =
            0 := by
        simp [countMark_append, countMark_cons, hdocs.countMark_eq_zero, hpath.countMark_eq_zero]
      obtain ⟨left, rfl, hleft⟩ := exists_front_of_countMark hbrace hcount
      rw [countMark_append, hcount, Nat.zero_add] at hdeclaration hnext
      have haround := aroundBrace_of_declarations hdeclarations htrailing hleft hdeclaration hnext
      have hends := @endsInField_append_cons (docs ++ ⟨position, .name "namespace"⟩ :: path)
        ⟨closing, .symbol .semicolon⟩ rfl left
      refine ⟨haround.peek_back, ?_⟩
      simp only [List.append_assoc, List.cons_append, List.nil_append] at hends ⊢
      rw [readContents_header hdocs hpath, unclosedFaults_congr hends]
      exact haround.faults_readContents finish place false

/-- A text that is parsed, without the closing brace of a declaration that is not the last: if no
names meet where it was, exactly one error is reported, at the next declaration, where the brace is
missing; but if the next declaration has a doc comment and the body ends in a field without a comma,
that doc comment is reported as well. -/
theorem reported_without_brace {path before after : String} {schema : SchemaFile}
    {front back : Tokens} {declaration next : TypeDecl}
    (h : parse path (before ++ "\x7d" ++ after) = .ok schema)
    (hbrace : (lex (before ++ "\x7d" ++ after).toList).tokens =
      front ++ ⟨Position.start.afterText before.toList, .symbol .rightBrace⟩ :: back)
    (hdeclaration : schema.declarations[countMark .rightBrace front]? = some declaration)
    (hnext : schema.declarations[countMark .rightBrace front + 1]? = some next)
    (hapart : ¬ NamesMeet front before.toList after.toList) :
    reported (parse path (before ++ after)) =
      (unclosedFaults front back declaration.name next.span.position).map fun fault =>
        ⟨⟨path, (Position.start.afterText before.toList).closeUp fault.position⟩, fault.value⟩ := by
  obtain ⟨hclean, hfile⟩ := derived_of_parse h
  have hwhole : (before ++ "\x7d" ++ after).toList = before.toList ++ '\x7d' :: after.toList := by
    simp [String.toList_append]
  obtain ⟨hback, hfaults⟩ := faults_readContents_file hfile hbrace hdeclaration hnext
    (lex (before ++ after).toList).finish (Position.start.afterText before.toList).closeUp
  rw [hwhole] at hclean hbrace
  obtain ⟨hstill, hkept⟩ := lex_remove hclean hbrace hback hapart
  rw [← String.toList_append] at hstill hkept
  rw [reported_parse path _ hstill, hkept, hfaults, List.map_map]
  rfl

/-- Three declarations, the second one with a doc comment. -/
def threeTypes : String :=
  "type A \x7b x: int \x7d\n/// doc\ntype B \x7b y: int \x7d\ntype C \x7b \x7d"

/-- The tokens of the first declaration, up to its closing brace. -/
def firstType : Tokens :=
  [⟨⟨1, 1⟩, .name "type"⟩, ⟨⟨1, 6⟩, .name "A"⟩, ⟨⟨1, 8⟩, .symbol .leftBrace⟩, ⟨⟨1, 10⟩, .name "x"⟩,
    ⟨⟨1, 11⟩, .symbol .colon⟩, ⟨⟨1, 13⟩, .name "int"⟩]

/-- The tokens of the second declaration, up to its closing brace. -/
def secondType : Tokens :=
  [⟨⟨2, 1⟩, .doc "doc"⟩, ⟨⟨3, 1⟩, .name "type"⟩, ⟨⟨3, 6⟩, .name "B"⟩, ⟨⟨3, 8⟩, .symbol .leftBrace⟩,
    ⟨⟨3, 10⟩, .name "y"⟩, ⟨⟨3, 11⟩, .symbol .colon⟩, ⟨⟨3, 13⟩, .name "int"⟩]

/-- The tokens of the third declaration. -/
def thirdType : Tokens :=
  [⟨⟨4, 1⟩, .name "type"⟩, ⟨⟨4, 6⟩, .name "C"⟩, ⟨⟨4, 8⟩, .symbol .leftBrace⟩,
    ⟨⟨4, 10⟩, .symbol .rightBrace⟩]

/-- What the three declarations mean. -/
def threeDeclarations : List TypeDecl :=
  [⟨"A", "", [⟨"x", .named [] "int", false, none, [], none, ⟨"a.ath", ⟨1, 10⟩⟩⟩],
    none, ⟨"a.ath", ⟨1, 1⟩⟩⟩,
    ⟨"B", "", [⟨"y", .named [] "int", false, none, [], none, ⟨"a.ath", ⟨3, 10⟩⟩⟩], some "doc",
      ⟨"a.ath", ⟨3, 1⟩⟩⟩,
    ⟨"C", "", [], none, ⟨"a.ath", ⟨4, 1⟩⟩⟩]

/-- The tokens of the three types are those of each of them, with the closing braces behind the
first two. -/
theorem tokens_threeTypes : (lex threeTypes.toList).tokens =
    (firstType ++ [⟨⟨1, 17⟩, .symbol .rightBrace⟩]) ++
      ((secondType ++ [⟨⟨3, 17⟩, .symbol .rightBrace⟩]) ++ thirdType) := by
  decide +kernel

/-- A name, a colon and a type are the tokens of a field. -/
theorem intField_derived (place colon type : Position) (name : String) :
    Grammar.Field "a.ath" [⟨place, .name name⟩, ⟨colon, .symbol .colon⟩, ⟨type, .name "int"⟩]
      ⟨name, .named [] "int", false, none, [], none, ⟨"a.ath", place⟩⟩ := by
  have htype : Grammar.Reference [⟨type, .name "int"⟩] (.named [] "int") :=
    @Grammar.Reference.named _ [] "int" (.mk type "int" .nil)
  exact .mk place colon name .nil htype .absent .absent .nil List.nodup_nil

/-- The text of the three types is parsed as three declarations. -/
theorem parse_threeTypes : parse "a.ath" threeTypes = .ok ⟨"a.ath", "", threeDeclarations⟩ := by
  have hfirst : Grammar.Declaration "a.ath" "" (firstType ++ [⟨⟨1, 17⟩, .symbol .rightBrace⟩])
      threeDeclarations[0] :=
    .mk ⟨1, 1⟩ ⟨1, 6⟩ ⟨1, 8⟩ ⟨1, 17⟩ "A" .nil (fun kind => by cases kind <;> decide)
      (.fields (.last (intField_derived ⟨1, 10⟩ ⟨1, 11⟩ ⟨1, 13⟩ "x")))
  have hsecond : Grammar.Declaration "a.ath" "" (secondType ++ [⟨⟨3, 17⟩, .symbol .rightBrace⟩])
      threeDeclarations[1] :=
    .mk ⟨3, 1⟩ ⟨3, 6⟩ ⟨3, 8⟩ ⟨3, 17⟩ "B" (.cons ⟨2, 1⟩ "doc" .nil)
    (fun kind => by cases kind <;> decide)
      (.fields (.last (intField_derived ⟨3, 10⟩ ⟨3, 11⟩ ⟨3, 13⟩ "y")))
  have hthird : Grammar.Declaration "a.ath" "" thirdType threeDeclarations[2] :=
    .mk ⟨4, 1⟩ ⟨4, 6⟩ ⟨4, 8⟩ ⟨4, 10⟩ "C" .nil (fun kind => by cases kind <;> decide) (.empty .nil)
  refine parse_of_derived (by decide +kernel) ?_
  rw [tokens_threeTypes]
  exact .mk .absent (.cons hfirst (.cons hsecond (.cons hthird .nil))) .nil

/-- Without its second closing brace, one error is reported, at the third declaration. -/
theorem reported_without_second_brace :
    reported (parse "a.ath" ("type A \x7b x: int \x7d\n/// doc\ntype B \x7b y: int " ++
      "\ntype C \x7b \x7d")) = [⟨⟨"a.ath", ⟨4, 1⟩⟩, .unclosedAtDeclaration "B"⟩] := by
  have htext : "type A \x7b x: int \x7d\n/// doc\ntype B \x7b y: int " ++ "\x7d" ++
      "\ntype C \x7b \x7d" = threeTypes := by
    decide
  have hapart : ∀ front : Tokens, ¬ NamesMeet front
      "type A \x7b x: int \x7d\n/// doc\ntype B \x7b y: int ".toList
      "\ntype C \x7b \x7d".toList := by
    rintro front ⟨_, c, _, -, hc, -, hpart, -⟩
    obtain rfl : ' ' = c := Option.some.inj hc
    contradiction
  have hreported := @reported_without_brace "a.ath"
    "type A \x7b x: int \x7d\n/// doc\ntype B \x7b y: int " "\ntype C \x7b \x7d" _
    (firstType ++ ⟨⟨1, 17⟩, .symbol .rightBrace⟩ :: secondType) thirdType _ _
    (htext ▸ parse_threeTypes) (htext ▸ tokens_threeTypes) rfl rfl (hapart _)
  exact hreported

/-- Not every closing brace but the last leaves one error when it is taken out: that of the first
declaration leaves two, since the second one has a doc comment. -/
theorem not_one_error_without_brace :
    ¬ ∀ (path before after : String) (schema : SchemaFile) (front back : Tokens),
    parse path (before ++ "\x7d" ++ after) = .ok schema →
    (lex (before ++ "\x7d" ++ after).toList).tokens =
      front ++ ⟨Position.start.afterText before.toList, .symbol .rightBrace⟩ :: back →
    countMark .rightBrace front + 1 < schema.declarations.length →
    (reported (parse path (before ++ after))).length = 1 := by
  intro hall
  have htext : "type A \x7b x: int " ++ "\x7d" ++
      "\n/// doc\ntype B \x7b y: int \x7d\ntype C \x7b \x7d" = threeTypes := by
    decide
  have hone := hall "a.ath" "type A \x7b x: int "
    "\n/// doc\ntype B \x7b y: int \x7d\ntype C \x7b \x7d" _ firstType
    (secondType ++ [⟨⟨3, 17⟩, .symbol .rightBrace⟩] ++ thirdType) (htext ▸ parse_threeTypes)
    (htext ▸ tokens_threeTypes) (by decide)
  have htokens :
      (lex ("type A \x7b x: int " ++
        "\n/// doc\ntype B \x7b y: int \x7d\ntype C \x7b \x7d").toList).tokens =
      [] ++ (Heading.tokens ⟨⟨1, 1⟩, ⟨⟨1, 6⟩, "A"⟩, ⟨1, 8⟩⟩ ++
        (firstType.drop 3 ++ ([⟨⟨2, 1⟩, .doc "doc"⟩] ++
        (Heading.tokens ⟨⟨3, 1⟩, ⟨⟨3, 6⟩, "B"⟩, ⟨3, 8⟩⟩ ++
          (secondType.drop 4 ++ [⟨⟨3, 17⟩, .symbol .rightBrace⟩] ++ thirdType))))) := by
    decide +kernel
  have hbody : Grammar.Body "a.ath" (firstType.drop 3) _ :=
    .fields (.last (intField_derived ⟨1, 10⟩ ⟨1, 11⟩ ⟨1, 13⟩ "x"))
  rw [reported_parse _ _ (by decide +kernel), htokens, List.length_map,
    faults_readContents_open .nil (fun kind => by cases kind <;> decide) hbody
      (.cons ⟨2, 1⟩ "doc" .nil)] at hone
  simp [unclosedFaults, strayDoc, endsInField, firstType, Token.inField] at hone

end SchemaBindings.Schema
