import SchemaBindings.Schema.Lexer

/-!
# Texts that spell tokens

How tokens can be written is stated without the lexer: each token has its spellings, and between two
of them stands any amount of blanks and plain comments, as long as what follows a token does not
continue it. Comments end with their line, so only the last one of a text may lack its line feed. A
doc comment has its line to itself up to blanks.
-/

namespace SchemaBindings.Schema

open SchemaBindings.Number (Binary64 valueOfDigits)
open SchemaBindings.Text (isBlank trim)

/-! ## Spellings -/

/-- A name: a letter or underscore, then letters, digits and underscores. -/
def IsIdentifier (word : String) : Prop :=
  ∃ first rest, word.toList = first :: rest ∧ isNameStart first = true ∧
    ∀ c ∈ rest, isNamePart c = true

/-- Whether characters are decimal digits, at least one. -/
def IsDigits (digits : List Char) : Prop :=
  digits ≠ [] ∧ ∀ c ∈ digits, c.isDigit = true

/-- Identifiers are told by their first character and by the others. -/
theorem isIdentifier_iff (word : String) :
    IsIdentifier word ↔
      (word.toList.head?.any isNameStart && word.toList.tail.all isNamePart) = true := by
  unfold IsIdentifier
  cases word.toList with
  | nil => simp
  | cons first rest =>
    constructor
    · intro ⟨_, _, hword, hfirst, hrest⟩
      obtain ⟨rfl, rfl⟩ := List.cons.inj hword
      simpa using ⟨hfirst, hrest⟩
    · intro h
      obtain ⟨hfirst, hrest⟩ := by simpa using h
      exact ⟨first, rest, rfl, hfirst, hrest⟩

instance (word : String) : Decidable (IsIdentifier word) :=
  decidable_of_iff _ (isIdentifier_iff word).symm

instance (digits : List Char) : Decidable (IsDigits digits) :=
  decidable_of_iff (digits ≠ [] ∧ digits.all Char.isDigit = true) (by simp [IsDigits])

/-- The digits of a natural number are digits, and there is one. -/
theorem isDigits_toDigits (n : Nat) : IsDigits (Nat.toDigits 10 n) :=
  ⟨Nat.toDigits_ne_nil, fun _ hc => Nat.isDigit_of_mem_toDigits (by decide) (by decide) hc⟩

/-- The digits of a natural number are digits of it. -/
theorem valueOfDigits_toDigits (n : Nat) : Number.valueOfDigits (Nat.toDigits 10 n) = n := by
  have h := @Nat.ofDigitChars_ten_toDigits n
  rwa [Nat.ofDigitChars_eq_foldl] at h

/-- An integer is that of its digits and its sign. -/
theorem integerOf_toDigits (value : Int) :
    integerOf (value < 0) (Nat.toDigits 10 value.natAbs) = value := by
  rw [integerOf, valueOfDigits_toDigits]
  split
  · next hnegative =>
    have hneg : value < 0 := by simpa using hnegative
    omega
  · next hnegative =>
    have hpos : ¬ value < 0 := by simpa using hnegative
    omega

/-- A minus sign in front of a text, if there is to be one. -/
def signed (negative : Bool) (text : List Char) : List Char :=
  if negative then '-' :: text else text

/-- A minus sign stands in front of a whole text. -/
theorem signed_append (negative : Bool) (text more : List Char) :
    signed negative (text ++ more) = signed negative text ++ more := by
  cases negative <;> rfl

/-- A character between the quotes of a text literal. -/
def escape (c : Char) : List Char :=
  match c with
  | '"' => ['\\', '"']
  | '\\' => ['\\', '\\']
  | '\n' => ['\\', 'n']
  | '\t' => ['\\', 't']
  | c => [c]

/-- The number that digits on either side of a point stand for. -/
def decimalValue (negative : Bool) (whole fraction : List Char) : Binary64 :=
  .ofDecimal negative (valueOfDigits (whole ++ fraction)) (-(fraction.length : Int))

/-- The ways to write a token. A doc comment line has no blanks at its ends, and numbers may be
written with leading zeros. -/
inductive Spells : Token → List Char → Prop
  | name {word : String} (h : IsIdentifier word) : Spells (.name word) word.toList
  | integer (negative : Bool) {digits : List Char} (hdigits : IsDigits digits)
      (hfits : fitsInt64 (integerOf negative digits) = true) :
      Spells (.integer (integerOf negative digits)) (signed negative digits)
  | float (negative : Bool) {whole fraction : List Char} (hwhole : IsDigits whole)
      (hfraction : IsDigits fraction) :
      Spells (.float (decimalValue negative whole fraction))
        (signed negative (whole ++ '.' :: fraction))
  | text (content : String) : Spells (.text content)
      ('"' :: (content.toList.flatMap escape ++ ['"']))
  | doc {line : String} (hline : '\n' ∉ line.toList) (htrimmed : trim line.toList = line.toList) :
      Spells (.doc line) ('/' :: '/' :: '/' :: ' ' :: line.toList)
  | symbol (mark : Symbol) : Spells (.symbol mark) [mark.char]

/-! ## Layouts -/

/-- Blanks and plain comments. Exactly three slashes do not start a plain comment. -/
inductive Trivia : List Char → Prop
  | nil : Trivia []
  | blank {c : Char} {rest : List Char} (hblank : isBlank c = true) (hrest : Trivia rest) :
      Trivia (c :: rest)
  | comment {body rest : List Char} (hplain : startsPlainComment ('/' :: '/' :: body) = true)
      (hbody : '\n' ∉ body) (hrest : Trivia rest) : Trivia ('/' :: '/' :: (body ++ '\n' :: rest))

/-- Trivia at the end of a text, where a comment needs no line feed. -/
inductive TrailingTrivia : List Char → Prop
  | closed {trivia : List Char} (h : Trivia trivia) : TrailingTrivia trivia
  | comment {trivia body : List Char} (h : Trivia trivia)
      (hplain : startsPlainComment ('/' :: '/' :: body) = true) (hbody : '\n' ∉ body) :
      TrailingTrivia (trivia ++ '/' :: '/' :: body)

/-- Whether a text does not start with a character of a kind. -/
def Avoids (p : Char → Bool) (text : List Char) : Prop :=
  ∀ c ∈ text.head?, p c = false

/-- Whether a text behind a token does not continue it. -/
def Ends : Token → List Char → Prop
  | .name _, behind => Avoids isNamePart behind
  | .integer _, behind =>
    Avoids Char.isDigit behind ∧ ∀ c rest, behind = '.' :: c :: rest → c.isDigit = false
  | .float _, behind => Avoids Char.isDigit behind
  | .doc _, behind => ∀ c ∈ behind.takeWhile (· ≠ '\n'), isBlank c = true
  | .text _, _ => True
  | .symbol _, _ => True

/-- A text that spells tokens one behind the other, with trivia in front of each and at the end. -/
inductive Layout : List Token → List Char → Prop
  | nil {trivia : List Char} (h : TrailingTrivia trivia) : Layout [] trivia
  | cons {token : Token} {tokens : List Token} {trivia text behind : List Char}
      (htrivia : Trivia trivia)
      (hspells : Spells token text) (hends : Ends token behind) (hbehind : Layout tokens behind) :
      Layout (token :: tokens) (trivia ++ (text ++ behind))

end SchemaBindings.Schema
