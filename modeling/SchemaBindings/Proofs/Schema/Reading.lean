import Mathlib.Data.List.Nodup
import SchemaBindings.Proofs.Schema.Grammar

/-!
# The readers decide the grammar of fields

For each reader of a part of a field there are two statements. In front of tokens that do not
continue the part, it reads exactly what the grammar derives; and what it reads without a fault is
derived, with the tokens behind it left over. The second gives the whole of what was consumed, so
nothing is skipped silently.
-/

namespace SchemaBindings.Schema

open SchemaBindings.Text (Position)

/-- The token ahead of a list that starts with one. -/
@[simp] theorem peek_cons (token : Located Token) (rest : Tokens) :
    peek (token :: rest) = some token.value := rfl

/-- No token is ahead at the end. -/
@[simp] theorem peek_nil : peek [] = none := rfl

/-! ## Names, types and literals -/

/-- A punctuation mark is read exactly if it is ahead. -/
theorem readSymbol_eq_ok_iff (mark : Symbol) (ahead rest : Tokens) :
    readSymbol mark ahead = .ok ((), rest) ↔ ∃ place, ahead = ⟨place, .symbol mark⟩ :: rest := by
  unfold readSymbol
  split
  · next token others =>
    obtain ⟨place, value⟩ := token
    by_cases h : value = .symbol mark
    · simp [h]
    · simp [h]
  · simp

/-- A segment has to follow a dot. -/
theorem readSegments_dot {dot : Position} {rest : Tokens}
    (h : ∀ word, peek rest ≠ some (.name word)) :
    readSegments (⟨dot, .symbol .dot⟩ :: rest) = .error (.expected .nameAfterDot rest) := by
  rw [readSegments.eq_def]
  split
  · next place segment others heq =>
    obtain ⟨-, rfl⟩ := List.cons.inj heq
    exact absurd rfl (h segment)
  · next heq =>
    obtain ⟨-, rfl⟩ := List.cons.inj heq
    rfl
  · next hdot =>
    exact absurd rfl (hdot dot rest)

/-- Segments are read up to the first token that is not a dot. -/
theorem readSegments_append {tokens : Tokens} {segments : List String}
    (h : Grammar.Segments tokens segments) (rest : Tokens)
    (hrest : peek rest ≠ some (.symbol .dot)) :
    readSegments (tokens ++ rest) = .ok (segments, rest) := by
  induction h with
  | nil =>
    rw [List.nil_append, readSegments.eq_def]
    split
    · simp at hrest
    · simp at hrest
    · rfl
  | cons dot place segment _ ih => simp [readSegments, ih]

/-- Segments that are read are derived. -/
theorem segments_of_readSegments {ahead rest : Tokens} {segments : List String}
    (h : readSegments ahead = .ok (segments, rest)) :
    ∃ tokens, ahead = tokens ++ rest ∧ Grammar.Segments tokens segments := by
  fun_induction readSegments ahead generalizing segments with
  | case1 dot place segment others found left hread ih =>
    obtain ⟨rfl, rfl⟩ : segment :: found = segments ∧ left = rest := by simpa using h
    obtain ⟨tokens, rfl, htokens⟩ := ih hread
    exact ⟨_, rfl, .cons dot place segment htokens⟩
  | case2 => contradiction
  | case3 => contradiction
  | case4 ahead =>
    obtain ⟨rfl, rfl⟩ : [] = segments ∧ ahead = rest := by simpa using h
    exact ⟨[], rfl, .nil⟩

/-- A dotted name is read up to the first token that is not a dot. -/
theorem readPath_append {tokens : Tokens} {first : String} {segments : List String}
    (h : Grammar.Path tokens (first :: segments)) (what : Expectation) (rest : Tokens)
    (hrest : peek rest ≠ some (.symbol .dot)) :
    readPath what (tokens ++ rest) = .ok ((first, segments), rest) := by
  cases h with
  | mk place _ hsegments => simp [readPath, readSegments_append hsegments rest hrest]

/-- A dotted name that is read is derived. -/
theorem path_of_readPath {what : Expectation} {ahead rest : Tokens} {first : String}
    {segments : List String} (h : readPath what ahead = .ok ((first, segments), rest)) :
    ∃ tokens, ahead = tokens ++ rest ∧ Grammar.Path tokens (first :: segments) := by
  unfold readPath at h
  split at h
  · next place word others =>
    split at h
    · next found left hread =>
      obtain ⟨⟨rfl, rfl⟩, rfl⟩ : (word = first ∧ found = segments) ∧ left = rest := by simpa using h
      obtain ⟨tokens, rfl, htokens⟩ := segments_of_readSegments hread
      exact ⟨_, rfl, .mk place word htokens⟩
    · contradiction
  · contradiction

/-- The qualifier and the name of a path make up the path. -/
theorem splitPath_append (first : String) (segments : List String) :
    (splitPath first segments).1 ++ [(splitPath first segments).2] = first :: segments := by
  induction segments generalizing first with
  | nil => rfl
  | cons next rest ih => simp [splitPath, ih]

/-- The type that a path names has all but the last segment as its qualifier. -/
theorem ofPath_of_append {first : String} {segments qualifier : List String} {name : String}
    (h : qualifier ++ [name] = first :: segments) :
    TypeRef.ofPath first segments = .named qualifier name := by
  obtain ⟨hqualifier, hname⟩ :=
    List.append_inj' ((splitPath_append first segments).trans h.symm) rfl
  rw [TypeRef.ofPath, hqualifier, List.singleton_inj.mp hname]

/-- A type is read up to the first token that is not a dot. -/
theorem readType_append {tokens : Tokens} {type : TypeRef} (h : Grammar.Reference tokens type)
    (rest : Tokens) (hrest : peek rest ≠ some (.symbol .dot)) :
    readType (tokens ++ rest) = .ok (type, rest) := by
  induction h generalizing rest with
  | named hpath =>
    generalize hsegments : _ ++ [_] = segments at hpath
    cases hpath with
    | mk place first htokens =>
      have hread := readPath_append (.mk place first htokens) .fieldType rest hrest
      rw [List.cons_append] at hread ⊢
      simp [readType, hread, ofPath_of_append hsegments]
  | list opening closing _ ih =>
    have hclosing : peek (⟨closing, .symbol .rightBracket⟩ :: rest) ≠ some (.symbol .dot) := by simp
    simp [readType, ih _ hclosing, readSymbol]

/-- A type that is read is derived. -/
theorem reference_of_readType {ahead rest : Tokens} {type : TypeRef}
    (h : readType ahead = .ok (type, rest)) :
    ∃ tokens, ahead = tokens ++ rest ∧ Grammar.Reference tokens type := by
  fun_induction readType ahead generalizing type rest with
  | case1 => contradiction
  | case2 opening others element left hread _ left' hclose ih =>
    obtain ⟨rfl, rfl⟩ : element.list = type ∧ left' = rest := by simpa using h
    obtain ⟨tokens, rfl, htokens⟩ := ih hread
    obtain ⟨closing, rfl⟩ := (readSymbol_eq_ok_iff ..).mp hclose
    exact ⟨_, by simp, .list opening closing htokens⟩
  | case3 => contradiction
  | case4 ahead _ first segments left hread =>
    obtain ⟨rfl, rfl⟩ : TypeRef.ofPath first segments = type ∧ left = rest := by simpa using h
    obtain ⟨tokens, rfl, htokens⟩ := path_of_readPath hread
    rw [← splitPath_append] at htokens
    exact ⟨tokens, rfl, .named htokens⟩
  | case5 => contradiction

/-- A token is read as the literal that it is. -/
theorem literal?_eq_some_iff (token : Token) (literal : Literal) :
    token.literal? = some literal ↔ Grammar.IsLiteral token literal := by
  constructor
  · fun_cases Token.literal? token with
    | case1 value =>
      intro h
      cases h
      exact .integer value
    | case2 value =>
      intro h
      cases h
      exact .float value
    | case3 content =>
      intro h
      cases h
      exact .text content
    | case4 =>
      intro h
      cases h
      exact .yes
    | case5 =>
      intro h
      cases h
      exact .no
    | case6 => intro h; contradiction
    | case7 => intro h; contradiction
  · intro h
    cases h <;> rfl

/-- A literal is read exactly if one is ahead. -/
theorem readLiteral_eq_ok_iff (ahead rest : Tokens) (literal : Literal) :
    readLiteral ahead = .ok (literal, rest) ↔
      ∃ place token, ahead = ⟨place, token⟩ :: rest ∧ Grammar.IsLiteral token literal := by
  constructor
  · intro h
    unfold readLiteral at h
    split at h
    · next token others =>
      split at h
      · next found hfound =>
        obtain ⟨rfl, rfl⟩ : found = literal ∧ others = rest := by simpa using h
        exact ⟨token.position, token.value, rfl, (literal?_eq_some_iff ..).mp hfound⟩
      · contradiction
    · contradiction
  · intro h
    obtain ⟨place, token, rfl, hliteral⟩ := h
    simp [readLiteral, (literal?_eq_some_iff ..).mpr hliteral]

/-! ## Fields -/

/-- A question mark is read if there is one. -/
theorem readOptional_append {tokens : Tokens} {optional : Bool}
    (h : Grammar.Optionality tokens optional) (rest : Tokens)
    (hrest : peek rest ≠ some (.symbol .question)) :
    readOptional (tokens ++ rest) = (optional, rest) := by
  cases h with
  | present place => rfl
  | absent =>
    rw [List.nil_append]
    unfold readOptional
    split
    · simp at hrest
    · rfl

/-- What is read as a question mark or nothing is that. -/
theorem optionality_of_readOptional {ahead rest : Tokens} {optional : Bool}
    (h : readOptional ahead = (optional, rest)) :
    ∃ tokens, ahead = tokens ++ rest ∧ Grammar.Optionality tokens optional := by
  unfold readOptional at h
  split at h
  · next place others =>
    obtain ⟨rfl, rfl⟩ : true = optional ∧ others = rest := by simpa using h
    exact ⟨_, rfl, .present place⟩
  · next =>
    obtain ⟨rfl, rfl⟩ : false = optional ∧ ahead = rest := by simpa using h
    exact ⟨[], rfl, .absent⟩

/-- A default value is read if there is one. -/
theorem readDefault_append {tokens : Tokens} {default? : Option Literal}
    (h : Grammar.Default tokens default?) (rest : Tokens)
    (hrest : peek rest ≠ some (.symbol .equals)) :
    readDefault (tokens ++ rest) = .ok (default?, rest) := by
  cases h with
  | present equals place hliteral =>
    have hread := (readLiteral_eq_ok_iff _ rest _).mpr ⟨place, _, rfl, hliteral⟩
    simp [readDefault, hread]
  | absent =>
    rw [List.nil_append]
    unfold readDefault
    split
    · simp at hrest
    · rfl

/-- A default value that is read is derived. -/
theorem default_of_readDefault {ahead rest : Tokens} {default? : Option Literal}
    (h : readDefault ahead = .ok (default?, rest)) :
    ∃ tokens, ahead = tokens ++ rest ∧ Grammar.Default tokens default? := by
  unfold readDefault at h
  split at h
  · next equals others =>
    split at h
    · next literal left hread =>
      obtain ⟨rfl, rfl⟩ : some literal = default? ∧ left = rest := by simpa using h
      obtain ⟨place, token, rfl, hliteral⟩ := (readLiteral_eq_ok_iff ..).mp hread
      exact ⟨_, rfl, .present equals place hliteral⟩
    · contradiction
  · next =>
    obtain ⟨rfl, rfl⟩ : none = default? ∧ ahead = rest := by simpa using h
    exact ⟨[], rfl, .absent⟩

/-- A word is looked up as the validator that it is the word of. -/
theorem validatorOfWord?_eq_some_iff (word : String) (validator : Validator) :
    Validator.ofWord? word = some validator ↔ validator.word = word := by
  constructor
  · intro h
    simpa using List.find?_some h
  · intro h
    subst h
    cases validator <;> rfl

/-- A name has to follow the mark of a validator. -/
theorem readValidators_at (given : List Validator) {mark : Position} {rest : Tokens}
    (h : ∀ word, peek rest ≠ some (.name word)) :
    readValidators given (⟨mark, .symbol .at⟩ :: rest) =
      ⟨[], .error (.expected .validatorName rest)⟩ := by
  rw [readValidators.eq_def]
  split
  · next place position name others heq =>
    obtain ⟨-, rfl⟩ := List.cons.inj heq
    exact absurd rfl (h name)
  · next heq =>
    obtain ⟨-, rfl⟩ := List.cons.inj heq
    rfl
  · next hmark =>
    exact absurd rfl (hmark mark rest)

/-- Without a mark there are no further validators. -/
theorem readValidators_of_peek_ne (given : List Validator) {ahead : Tokens}
    (h : peek ahead ≠ some (.symbol .at)) :
    readValidators given ahead = ⟨[], .ok (given, ahead)⟩ := by
  rw [readValidators.eq_def]
  split
  · exact absurd rfl h
  · exact absurd rfl h
  · rfl

/-- Validators that differ from each other and from those given are read one behind the other. -/
theorem readValidators_append {tokens : Tokens} {validators : List Validator}
    (h : Grammar.Validators tokens validators) (given : List Validator) (rest : Tokens)
    (hdifferent : (given ++ validators).Nodup) (hrest : peek rest ≠ some (.symbol .at)) :
    readValidators given (tokens ++ rest) = ⟨[], .ok (given ++ validators, rest)⟩ := by
  induction h generalizing given with
  | nil => rw [List.nil_append, List.append_nil, readValidators_of_peek_ne given hrest]
  | @cons mark place validator tokens validators _ ih =>
    have hnew : validator ∉ given := by
      intro hgiven
      exact (List.nodup_append.mp hdifferent).2.2 validator hgiven validator List.mem_cons_self rfl
    have hmore : ((given ++ [validator]) ++ validators).Nodup := by simpa using hdifferent
    simp [readValidators, (validatorOfWord?_eq_some_iff _ validator).mpr rfl, hnew, ih _ hmore]

/-- Validators that are read without a fault are derived, and all of them are different. -/
theorem validators_of_readValidators {given : List Validator} {ahead rest : Tokens}
    {validators : List Validator} (hgiven : given.Nodup)
    (h : readValidators given ahead = ⟨[], .ok (validators, rest)⟩) :
    ∃ tokens new, ahead = tokens ++ rest ∧ validators = given ++ new ∧ validators.Nodup ∧
      Grammar.Validators tokens new := by
  fun_induction readValidators given ahead with
  | case1 given mark place name others validator hword hrepeated ih => simp [Noted.after] at h
  | case2 given mark place name others validator hword hnew ih =>
    have hmore : (given ++ [validator]).Nodup := by
      rw [List.nodup_append]
      refine ⟨hgiven, List.nodup_singleton validator, fun other hother last hlast heq => ?_⟩
      exact hnew (List.mem_singleton.mp hlast ▸ heq ▸ hother)
    obtain ⟨tokens, new, rfl, rfl, hdifferent, htokens⟩ := ih hmore h
    obtain rfl := (validatorOfWord?_eq_some_iff name validator).mp hword
    exact ⟨_, validator :: new, rfl, by simp, hdifferent, .cons mark place validator htokens⟩
  | case3 given mark place name others hword ih => simp [Noted.after] at h
  | case4 => simp at h
  | case5 given ahead =>
    obtain ⟨rfl, rfl⟩ : given = validators ∧ ahead = rest := by simpa using h
    exact ⟨[], [], rfl, (List.append_nil given).symm, hgiven, .nil⟩

/-- Whether what is ahead ends a field: a comma or the closing brace of its type. -/
def EndsField (ahead : Tokens) : Prop :=
  peek ahead = some (.symbol .comma) ∨ peek ahead = some (.symbol .rightBrace)

/-- Whether what is ahead continues no part of a field. -/
def LeavesField (ahead : Tokens) : Prop :=
  ∀ mark, mark ≠ .comma → mark ≠ .rightBrace → peek ahead ≠ some (.symbol mark)

/-- What ends a field continues no part of it. -/
theorem EndsField.leavesField {ahead : Tokens} (h : EndsField ahead) : LeavesField ahead := by
  intro mark hcomma hbrace
  rcases h with h | h
  · rw [h]
    simpa using hcomma.symm
  · rw [h]
    simpa using hbrace.symm

/-- A token is ahead of a question mark or nothing only if it is that mark or ahead of the rest. -/
theorem Grammar.Optionality.peek_ne {tokens rest : Tokens} {optional : Bool}
    (h : Grammar.Optionality tokens optional) {mark : Symbol} (hmark : mark ≠ .question)
    (hrest : peek rest ≠ some (.symbol mark)) : peek (tokens ++ rest) ≠ some (.symbol mark) := by
  cases h with
  | absent => exact hrest
  | present place => simpa using hmark.symm

/-- A token is ahead of a default value or nothing only if it is the equals sign or ahead of the
rest. -/
theorem Grammar.Default.peek_ne {tokens rest : Tokens} {default? : Option Literal}
    (h : Grammar.Default tokens default?) {mark : Symbol} (hmark : mark ≠ .equals)
    (hrest : peek rest ≠ some (.symbol mark)) : peek (tokens ++ rest) ≠ some (.symbol mark) := by
  cases h with
  | absent => exact hrest
  | present equals place hliteral => simpa using hmark.symm

/-- A token is ahead of validators only if it is their mark or ahead of the rest. -/
theorem Grammar.Validators.peek_ne {tokens rest : Tokens} {validators : List Validator}
    (h : Grammar.Validators tokens validators) {mark : Symbol} (hmark : mark ≠ .at)
    (hrest : peek rest ≠ some (.symbol mark)) : peek (tokens ++ rest) ≠ some (.symbol mark) := by
  cases h with
  | nil => exact hrest
  | cons place _ validator _ => simpa using hmark.symm

/-- A field is read, behind its name, up to what continues no part of it. -/
theorem readField_append {name : String} {span : Span} {doc? : Option String}
    {typeTokens optionalTokens defaultTokens validatorTokens : Tokens} {type : TypeRef}
    {optional : Bool} {default? : Option Literal} {validators : List Validator} (colon : Position)
    (htype : Grammar.Reference typeTokens type)
    (hoptional : Grammar.Optionality optionalTokens optional)
    (hdefault : Grammar.Default defaultTokens default?)
    (hvalidators : Grammar.Validators validatorTokens validators) (hdifferent : validators.Nodup)
    {rest : Tokens} (hrest : LeavesField rest) :
    readField name span doc?
        (⟨colon, .symbol .colon⟩ ::
          (typeTokens ++ (optionalTokens ++ (defaultTokens ++ (validatorTokens ++ rest))))) =
      ⟨[], .ok (⟨name, type, optional, default?, validators, doc?, span⟩, rest)⟩ := by
  have hreadValidators := readValidators_append hvalidators [] rest hdifferent
    (hrest _ (by decide) (by decide))
  have hreadDefault := readDefault_append hdefault (validatorTokens ++ rest)
    (hvalidators.peek_ne (by decide) (hrest _ (by decide) (by decide)))
  have hreadOptional := readOptional_append hoptional (defaultTokens ++ (validatorTokens ++ rest))
    (hdefault.peek_ne (by decide)
      (hvalidators.peek_ne (by decide) (hrest _ (by decide) (by decide))))
  have hreadType := readType_append htype
    (optionalTokens ++ (defaultTokens ++ (validatorTokens ++ rest)))
    (hoptional.peek_ne (by decide) (hdefault.peek_ne (by decide)
      (hvalidators.peek_ne (by decide) (hrest _ (by decide) (by decide)))))
  simp [readField, readSymbol, hreadType, hreadOptional, hreadDefault, hreadValidators]

/-- A field that is read without a fault is derived. -/
theorem field_of_readField {name file : String} {place : Position} {lines : List String}
    {docs ahead rest : Tokens} {field : Field} (hdocs : Grammar.Docs docs lines)
    (h : readField name ⟨file, place⟩ (joinDocs lines) ahead = ⟨[], .ok (field, rest)⟩) :
    ∃ tokens, ahead = tokens ++ rest ∧
      Grammar.Field file (docs ++ ⟨place, .name name⟩ :: tokens) field := by
  unfold readField at h
  split at h
  · simp at h
  · next afterColon hcolon =>
    obtain ⟨colon, rfl⟩ := (readSymbol_eq_ok_iff ..).mp hcolon
    split at h
    · simp at h
    · next type afterType htype =>
      obtain ⟨typeTokens, rfl, hreference⟩ := reference_of_readType htype
      obtain ⟨optional, afterOptional, hread⟩ :
          ∃ optional afterOptional, readOptional afterType = (optional, afterOptional) :=
          ⟨_, _, rfl⟩
      rw [hread] at h
      obtain ⟨optionalTokens, rfl, hoptional⟩ := optionality_of_readOptional hread
      dsimp only at h
      split at h
      · simp at h
      · next default? afterDefault hdefault =>
        obtain ⟨defaultTokens, rfl, hvalue⟩ := default_of_readDefault hdefault
        split at h
        · simp at h
        · next faults validators afterValidators hread =>
          obtain ⟨rfl, rfl, rfl⟩ : faults = [] ∧
              ⟨name, type, optional, default?, validators, joinDocs lines, ⟨file, place⟩⟩ = field ∧
                afterValidators = rest := by simpa using h
          obtain ⟨validatorTokens, new, rfl, rfl, hdifferent, hvalidators⟩ :=
            validators_of_readValidators List.nodup_nil hread
          refine ⟨_, ?_, .mk place colon name hdocs hreference hoptional hvalue
            hvalidators hdifferent⟩
          simp

end SchemaBindings.Schema
