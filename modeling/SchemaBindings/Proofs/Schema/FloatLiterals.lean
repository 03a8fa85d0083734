import SchemaBindings.Proofs.Number.Overflow
import SchemaBindings.Proofs.Number.Text
import SchemaBindings.Proofs.Schema.Integers

/-!
# Literals with a point

Where the lexer starts a token, digits on both sides of a point are one token, however many they
are. No number of digits is refused: a literal that is beyond the finite numbers becomes a token
with an infinite value, and these are the only ones.
-/

namespace SchemaBindings.Schema

open SchemaBindings.Number (Binary64 overflowBound ofDecimal_eq_infinite_iff sign_of_ofDecimal)
open SchemaBindings.Text (Position)

/-- A literal that the lexer reads in a source as a number with a point. -/
def FloatLiteral (source : List Char) (negative : Bool) (whole fraction : List Char) : Prop :=
  ∃ front back, source = front ++ (signed negative (whole ++ '.' :: fraction) ++ back) ∧
    StartsAt source front ∧
    IsDigits whole ∧ IsDigits fraction ∧ Avoids Char.isDigit back

/-- Whether the exact number of a literal is so large that it becomes infinite. -/
def Overflows (whole fraction : List Char) : Prop :=
  overflowBound * 10 ^ fraction.length ≤
    Nat.ofDigits 10 ((whole ++ fraction).reverse.map digitValue)

/-- A literal stands for an infinite number exactly if its exact number is too large. -/
theorem decimalValue_eq_infinite_iff (negative : Bool) (whole fraction : List Char) :
    decimalValue negative whole fraction = .infinite negative ↔ Overflows whole fraction := by
  rw [decimalValue, ofDecimal_eq_infinite_iff, valueOfDigits_eq_ofDigits, Overflows]

/-! ## Reading a literal -/

/-- A literal with a point is read up to its last digit. -/
theorem readToken_float {whole fraction behind : List Char} (hwhole : IsDigits whole)
    (hfraction : IsDigits fraction) (hends : Avoids Char.isDigit behind) (negative : Bool) :
    ∃ first taken, signed negative (whole ++ '.' :: fraction) = first :: taken ∧
      readToken first (taken ++ behind) =
        ⟨taken, .ok (.float (decimalValue negative whole fraction)), behind⟩ := by
  have hread := readNumber_float hwhole hfraction hends negative
  obtain ⟨digit, text, rfl⟩ := List.exists_cons_of_ne_nil hwhole.1
  have hcons : digit :: text ++ '.' :: (fraction ++ behind) =
      digit :: ((text ++ '.' :: fraction) ++ behind) := by simp
  rw [hcons] at hread
  obtain ⟨first, taken, hsigned, -, -, htoken⟩ :=
    readToken_signed negative (hwhole.2 digit List.mem_cons_self) hread
  exact ⟨first, taken, hsigned, htoken⟩

/-- A number with a point that is read from a digit on was spelled with digits on both sides of the
point. -/
theorem spelled_of_readNumber_float {negative : Bool} {text : List Char} {value : Binary64}
    (hstart : startsWithDigit text = true)
    (h : (readNumber negative text).value = .ok (.float value)) :
    ∃ whole fraction, IsDigits whole ∧ IsDigits fraction ∧
      value = decimalValue negative whole fraction ∧
      (readNumber negative text).taken = whole ++ '.' :: fraction := by
  have hinteger : ∀ digits, integerToken negative digits ≠ .ok (.float value) := by
    intro digits hvalue
    simp only [integerToken] at hvalue
    split at hvalue
    · exact Token.noConfusion (Except.ok.inj hvalue)
    · contradiction
  have hwhole : IsDigits (text.takeWhile Char.isDigit) := by
    refine ⟨?_, fun c hc => List.mem_takeWhile_imp hc⟩
    cases text with
    | nil => contradiction
    | cons c rest =>
      have hdigit : c.isDigit = true := hstart
      simp [hdigit]
  unfold readNumber at h ⊢
  dsimp only at h ⊢
  split at h
  · next d rest hdrop =>
    split at h
    · next hdigit =>
      have hfraction : IsDigits ((d :: rest).takeWhile Char.isDigit) :=
        ⟨by simp [hdigit], fun c hc => List.mem_takeWhile_imp hc⟩
      refine ⟨_, _, hwhole, hfraction, (Token.float.inj (Except.ok.inj h)).symm, ?_⟩
      rw [if_pos hdigit]
    · exact absurd h (hinteger _)
  · exact absurd h (hinteger _)

/-- A token with a floating-point number was spelled with digits on both sides of a point, with or
without a sign. -/
theorem spelled_of_readToken_float {first : Char} {rest : List Char} {value : Binary64}
    (h : (readToken first rest).value = .ok (.float value)) :
    ∃ negative whole fraction, IsDigits whole ∧ IsDigits fraction ∧
      value = decimalValue negative whole fraction ∧
      first :: (readToken first rest).taken = signed negative (whole ++ '.' :: fraction) := by
  unfold readToken at h ⊢
  cases hmark : Symbol.ofChar? first with
  | some mark =>
    simp only [hmark] at h
    exact Token.noConfusion (Except.ok.inj h)
  | none =>
    simp only [hmark] at h ⊢
    by_cases hquote : first = '"'
    · rw [if_pos hquote] at h
      cases htext : (readText rest).value <;> simp [htext, Except.map] at h
    rw [if_neg hquote] at h ⊢
    by_cases hdoc : first = '/' ∧ rest.head? = some '/'
    · rw [if_pos hdoc] at h
      exact Token.noConfusion (Except.ok.inj h)
    rw [if_neg hdoc] at h ⊢
    by_cases hminus : first = '-' ∧ startsWithDigit rest = true
    · rw [if_pos hminus] at h ⊢
      obtain ⟨whole, fraction, hwhole, hfraction, hvalue, htaken⟩ :=
        spelled_of_readNumber_float hminus.2 h
      exact ⟨true, whole, fraction, hwhole, hfraction, hvalue, by rw [htaken, hminus.1]; rfl⟩
    rw [if_neg hminus] at h ⊢
    by_cases hdigit : first.isDigit = true
    · rw [if_pos hdigit] at h ⊢
      obtain ⟨whole, fraction, hwhole, hfraction, hvalue, htaken⟩ :=
        @spelled_of_readNumber_float _ (first :: rest) _ hdigit h
      exact ⟨false, whole, fraction, hwhole, hfraction, hvalue,
        (readNumber_taken_cons false first rest hdigit).symm.trans htaken⟩
    rw [if_neg hdigit] at h
    split at h
    · exact Token.noConfusion (Except.ok.inj h)
    · contradiction

/-! ## The numbers of a source -/

/-- The tokens of a source with a floating-point number are those of its literals with a point. -/
theorem exists_float_iff (source : List Char) (value : Binary64) :
    (∃ token ∈ (lex source).tokens, token.value = .float value) ↔
      ∃ negative whole fraction, FloatLiteral source negative whole fraction ∧
        value = decimalValue negative whole fraction := by
  constructor
  · rintro ⟨token, htoken, hvalue⟩
    obtain ⟨item, hitem, hok⟩ := List.mem_filterMap.mp htoken
    split at hok
    · next content hcontent =>
      obtain rfl := Option.some.inj hok
      obtain ⟨-, front, first, rest, hsource, hread, -⟩ := itemsFrom_split hitem
      rw [Position.afterText_start] at hread
      have hplace : StartsAt source front :=
        List.mem_map.mpr ⟨item, hitem, congrArg Located.position hread⟩
      have hfloat : (readToken first rest).value = .ok (.float value) := by
        have hitemValue : item.value = (readToken first rest).value := congrArg Located.value hread
        rw [← hitemValue, hcontent]
        exact congrArg Except.ok hvalue
      obtain ⟨negative, whole, fraction, hwhole, hfraction, heq, htaken⟩ :=
        spelled_of_readToken_float hfloat
      refine ⟨negative, whole, fraction, ⟨front, (readToken first rest).rest, ?_,
        hplace, hwhole, hfraction, (readToken_append_taken hfloat).1⟩, heq⟩
      rw [← htaken, List.cons_append, readToken_append, ← hsource]
    · contradiction
  · rintro ⟨negative, whole, fraction, ⟨front, back, rfl, hstart, hwhole, hfraction, hends⟩, rfl⟩
    obtain ⟨first, taken, hsigned, hread⟩ := readToken_float hwhole hfraction hends negative
    rw [hsigned, List.cons_append] at hstart ⊢
    obtain ⟨earlier, hitems, -⟩ := items_of_startsAt hstart
    rw [hread] at hitems
    have hitem : ⟨.ofOffset front, .ok (.float (decimalValue negative whole fraction))⟩ ∈
        (lex (front ++ first :: (taken ++ back))).items := by
      rw [hitems]
      exact List.mem_append_right _ List.mem_cons_self
    exact ⟨⟨.ofOffset front, _⟩, List.mem_filterMap.mpr ⟨_, hitem, rfl⟩, rfl⟩

/-- A literal is never refused for its size: a source has an infinite token exactly if one of its
literals with a point is too large. -/
theorem exists_infinite_iff (source : List Char) (negative : Bool) :
    (∃ token ∈ (lex source).tokens, token.value = .float (.infinite negative)) ↔
      ∃ whole fraction, FloatLiteral source negative whole fraction ∧ Overflows whole fraction := by
  rw [exists_float_iff]
  constructor
  · rintro ⟨other, whole, fraction, hliteral, hvalue⟩
    obtain rfl := sign_of_ofDecimal hvalue.symm
    exact ⟨whole, fraction, hliteral, (decimalValue_eq_infinite_iff negative whole fraction).mp
      hvalue.symm⟩
  · rintro ⟨whole, fraction, hliteral, hlarge⟩
    exact ⟨negative, whole, fraction, hliteral,
      ((decimalValue_eq_infinite_iff negative whole fraction).mpr hlarge).symm⟩

/-- An integer that is read fits 64 bits. -/
theorem fits_of_readToken {first : Char} {rest : List Char} {value : Int}
    (h : (readToken first rest).value = .ok (.integer value)) : fitsInt64 value = true := by
  have hnumber : ∀ {negative text}, (readNumber negative text).value = .ok (.integer value) →
      fitsInt64 value = true := by
    intro negative text hvalue
    have hinteger : ∀ {digits}, integerToken negative digits = .ok (.integer value) →
        fitsInt64 value = true := by
      intro digits htoken
      simp only [integerToken] at htoken
      split at htoken
      · next hfits => rwa [Token.integer.inj (Except.ok.inj htoken)] at hfits
      · contradiction
    unfold readNumber at hvalue
    dsimp only at hvalue
    split at hvalue
    · split at hvalue
      · exact Token.noConfusion (Except.ok.inj hvalue)
      · exact hinteger hvalue
    · exact hinteger hvalue
  unfold readToken at h
  split at h
  · exact Token.noConfusion (Except.ok.inj h)
  split at h
  · cases htext : (readText rest).value <;> simp [htext, Except.map] at h
  split at h
  · exact Token.noConfusion (Except.ok.inj h)
  split at h
  · exact hnumber h
  split at h
  · exact hnumber h
  split at h
  · exact Token.noConfusion (Except.ok.inj h)
  · contradiction

/-- The integers among the tokens of a source fit 64 bits. -/
theorem fits_of_mem_lex {source : List Char} {token : Located Token}
    (htoken : token ∈ (lex source).tokens) {value : Int} (hvalue : token.value = .integer value) :
    fitsInt64 value = true := by
  obtain ⟨item, hitem, hok⟩ := List.mem_filterMap.mp htoken
  obtain ⟨first, rest, -, hread⟩ := readToken_of_mem_lex hitem
  split at hok
  · next content hcontent =>
    obtain rfl := Option.some.inj hok
    rw [hcontent, show content = .integer value from hvalue] at hread
    exact fits_of_readToken hread.symm
  · contradiction

/-! ## Default values -/

/-- The literal of a token with a number. -/
def Token.number? : Token → Option Literal
  | .integer value => some (.integer value)
  | .float value => some (.float value)
  | _ => none

/-- The numbers among tokens. -/
def numbersOf (tokens : Tokens) : List Literal :=
  tokens.filterMap fun token => token.value.number?

/-- A literal that is a number. -/
def Literal.number? : Literal → Option Literal
  | .integer value => some (.integer value)
  | .float value => some (.float value)
  | _ => none

/-- The numbers that are default values of fields. -/
def numberDefaults (fields : List Field) : List Literal :=
  fields.filterMap fun field => field.default?.bind Literal.number?

/-- There are no numbers among no tokens. -/
@[simp] theorem numbersOf_nil : numbersOf [] = [] := rfl

/-- The numbers among tokens are those among the first ones and those among the others. -/
@[simp] theorem numbersOf_append (tokens others : Tokens) :
    numbersOf (tokens ++ others) = numbersOf tokens ++ numbersOf others :=
  List.filterMap_append

/-- The numbers among tokens are that of the first one, if it is a number, and those behind it. -/
@[simp] theorem numbersOf_cons (place : Position) (token : Token) (others : Tokens) :
    numbersOf (⟨place, token⟩ :: others) = token.number?.toList ++ numbersOf others := by
  cases h : token.number? <;> simp [numbersOf, h]

/-- The numbers among tokens are told by the tokens. -/
theorem mem_numbersOf_iff (tokens : Tokens) (literal : Literal) :
    literal ∈ numbersOf tokens ↔ ∃ token ∈ tokens, token.value.number? = some literal :=
  List.mem_filterMap

/-- A number is a default value of fields exactly if one of them has it. -/
theorem mem_numberDefaults_iff {literal : Literal} (hnumber : literal.number? = some literal)
    (fields : List Field) :
    literal ∈ numberDefaults fields ↔ ∃ field ∈ fields, field.default? = some literal := by
  have hsame : ∀ other : Literal, other.number? = some literal ↔ other = literal := by
    intro other
    constructor
    · intro h
      cases other <;> simp_all [Literal.number?]
    · rintro rfl
      exact hnumber
  rw [numberDefaults, List.mem_filterMap]
  simp only [Option.bind_eq_some_iff, hsame, exists_eq_right]

namespace Grammar

variable {file namespacePath : String} {tokens : Tokens}

/-- There are no numbers among doc comments. -/
theorem Docs.numbers_eq {lines : List String} (h : Docs tokens lines) : numbersOf tokens = [] := by
  induction h with
  | nil => rfl
  | cons place line _ ih => simpa [Token.number?] using ih

/-- There are no numbers in a path. -/
theorem Path.numbers_eq {segments : List String} (h : Path tokens segments) :
    numbersOf tokens = [] := by
  obtain ⟨place, first, hsegments⟩ := h
  have hrest : ∀ {tokens segments}, Segments tokens segments → numbersOf tokens = [] := by
    intro tokens segments h
    induction h with
    | nil => rfl
    | cons dot place segment _ ih => simpa [Token.number?] using ih
  simpa [Token.number?] using hrest hsegments

/-- There are no numbers in the reference to a type. -/
theorem Reference.numbers_eq {type : TypeRef} (h : Reference tokens type) :
    numbersOf tokens = [] := by
  induction h with
  | named hpath => exact hpath.numbers_eq
  | list opening closing _ ih => simp [Token.number?, ih]

/-- A question mark is no number. -/
theorem Optionality.numbers_eq {optional : Bool} (h : Optionality tokens optional) :
    numbersOf tokens = [] := by
  cases h with
  | absent => rfl
  | present place => rfl

/-- There are no numbers among validators. -/
theorem Validators.numbers_eq {validators : List Validator} (h : Validators tokens validators) :
    numbersOf tokens = [] := by
  induction h with
  | nil => rfl
  | cons mark place validator _ ih => simpa [Token.number?] using ih

/-- The only number of a default value is the value itself, if it is one. -/
theorem Default.numbers_eq {default? : Option Literal} (h : Default tokens default?) :
    numbersOf tokens = (default?.bind Literal.number?).toList := by
  cases h with
  | absent => rfl
  | present equals place hliteral => cases hliteral <;> rfl

/-- The numbers of a field are those of its default value. -/
theorem Field.numbers_eq {field : Schema.Field} (h : Field file tokens field) :
    numbersOf tokens = numberDefaults [field] := by
  obtain ⟨place, colon, name, hdocs, htype, hoptional, hdefault, hvalidators, -⟩ := h
  have hsingle : ∀ field : Schema.Field, numberDefaults [field] =
      (field.default?.bind Literal.number?).toList := by
    intro field
    cases h : field.default?.bind Literal.number? <;> simp [numberDefaults, h]
  simp [hdocs.numbers_eq, htype.numbers_eq, hoptional.numbers_eq, hdefault.numbers_eq,
    hvalidators.numbers_eq, hsingle, Token.number?]

/-- The numbers of fields are those of their default values, in their order. -/
theorem Fields.numbers_eq {fields : List Schema.Field} (h : Fields file tokens fields) :
    numbersOf tokens = numberDefaults fields := by
  induction h with
  | last hfield => exact hfield.numbers_eq
  | lastComma comma hfield hdocs => simp [hfield.numbers_eq, hdocs.numbers_eq, Token.number?]
  | @cons comma tokens others field fields hfield _ ih =>
    have hboth : numberDefaults (field :: fields) = numberDefaults [field] ++
        numberDefaults fields :=
      List.filterMap_append (l := [field])
    simp [hfield.numbers_eq, ih, hboth, Token.number?]

/-- The numbers of a body are the default values of its fields that are numbers. -/
theorem Body.numbers_eq {fields : List Schema.Field} (h : Body file tokens fields) :
    numbersOf tokens = numberDefaults fields := by
  cases h with
  | empty hdocs => exact hdocs.numbers_eq
  | fields hfields => exact hfields.numbers_eq

/-- The numbers of a declaration are those of its fields. -/
theorem Declaration.numbers_eq {declaration : TypeDecl}
    (h : Declaration file namespacePath tokens declaration) :
    numbersOf tokens = numberDefaults declaration.fields := by
  obtain ⟨position, place, opening, closing, name, hdocs, -, hbody⟩ := h
  simp [hdocs.numbers_eq, hbody.numbers_eq, Token.number?]

/-- The numbers of declarations are those of their fields, in their order. -/
theorem Declarations.numbers_eq {declarations : List TypeDecl}
    (h : Declarations file namespacePath tokens declarations) :
    numbersOf tokens =
      declarations.flatMap fun declaration => numberDefaults declaration.fields := by
  induction h with
  | nil => rfl
  | cons hdeclaration _ ih => rw [numbersOf_append, hdeclaration.numbers_eq, ih, List.flatMap_cons]

/-- There are no numbers in the namespace of a file. -/
theorem Header.numbers_eq {namespacePath? : Option String} (h : Header tokens namespacePath?) :
    numbersOf tokens = [] := by
  cases h with
  | absent => rfl
  | present place closing hdocs hpath => simp [hdocs.numbers_eq, hpath.numbers_eq, Token.number?]

/-- The numbers of a file are default values of its fields. -/
theorem File.numbers_eq {schema : SchemaFile} (h : File file tokens schema) :
    numbersOf tokens = schema.declarations.flatMap fun declaration => numberDefaults
      declaration.fields := by
  obtain ⟨hheader, hdeclarations, htrailing⟩ := h
  simp [hheader.numbers_eq, hdeclarations.numbers_eq, htrailing.numbers_eq]

end Grammar

/-- The numbers of an accepted source are default values of the fields that it declares. -/
theorem numbers_of_parse {path source : String} {schema : SchemaFile}
    (h : parse path source = .ok schema) :
    numbersOf (lex source.toList).tokens =
      schema.declarations.flatMap fun declaration => numberDefaults declaration.fields :=
  (derived_of_parse h).2.numbers_eq

end SchemaBindings.Schema
