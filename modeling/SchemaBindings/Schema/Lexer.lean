import SchemaBindings.Schema.Literal
import SchemaBindings.Schema.Token
import SchemaBindings.Text.Blank

/-!
# From characters to tokens

A source is cut into pieces: each piece is a stretch of blanks and plain comments followed by the
non-empty stretch of one token or of one error. After an error, cutting goes on behind the stretch
that was in error. The places of tokens are computed from the pieces afterwards, so that a place can
only be that of the first character of a stretch.

Plain comments start with two slashes, and also with four or more; exactly three start a doc
comment.
-/

namespace SchemaBindings.Schema

open SchemaBindings.Number (Binary64 valueOfDigits)
open SchemaBindings.Text (Position isBlank trim)

/-- Why a stretch of characters is not a token. -/
inductive LexicalFault where
  | unexpectedCharacter (c : Char)
  | unterminatedText
  | unknownEscape (c : Char)
  | integerTooLarge (digits : List Char)
deriving DecidableEq

/-- The message of a lexical fault. -/
def LexicalFault.message : LexicalFault → String
  | .unexpectedCharacter c => s!"unexpected character `{c}`"
  | .unterminatedText => "unterminated string literal"
  | .unknownEscape c => s!"unknown escape `\\{c}`"
  | .integerTooLarge digits => s!"integer literal `{String.ofList digits}` does not fit in 64 bits"

/-- The outcome of reading a stretch: the characters taken, what they mean, and the text behind
them. -/
structure Reading (α : Type) where
  taken : List Char
  value : α
  rest : List Char

/-- A reading with more characters taken in front. -/
def Reading.after {α : Type} (chars : List Char) (reading : Reading α) : Reading α :=
  { reading with taken := chars ++ reading.taken }

/-- Takes the longest run of characters with a property. -/
def readWhile (p : Char → Bool) (text : List Char) : Reading (List Char) :=
  ⟨text.takeWhile p, text.takeWhile p, text.dropWhile p⟩

/-- Whether a comment that is not a doc comment starts here. -/
def startsPlainComment : List Char → Bool
  | '/' :: '/' :: '/' :: '/' :: _ => true
  | '/' :: '/' :: '/' :: _ => false
  | '/' :: '/' :: _ => true
  | _ => false

/-- Splits off the blanks and plain comments at the start of a text. Inside a comment, everything up
to the line feed belongs to it. -/
def splitTrivia : (inComment : Bool) → List Char → List Char × List Char
  | _, [] => ([], [])
  | true, c :: rest =>
    let (trivia, tail) := splitTrivia (c ≠ '\n') rest
    (c :: trivia, tail)
  | false, c :: rest =>
    if isBlank c then
      let (trivia, tail) := splitTrivia false rest
      (c :: trivia, tail)
    else if startsPlainComment (c :: rest) then
      let (trivia, tail) := splitTrivia true rest
      (c :: trivia, tail)
    else ([], c :: rest)

/-- The character that an escape stands for. -/
def unescape : Char → Option Char
  | 'n' => some '\n'
  | 't' => some '\t'
  | '"' => some '"'
  | '\\' => some '\\'
  | _ => none

/-- Reads the content of a text literal and its closing quote. A line feed or the end of the source
stops it before the quote. -/
def readText : List Char → Reading (Except LexicalFault (List Char))
  | [] => ⟨[], .error .unterminatedText, []⟩
  | '"' :: rest => ⟨['"'], .ok [], rest⟩
  | '\n' :: rest => ⟨[], .error .unterminatedText, '\n' :: rest⟩
  | ['\\'] => ⟨['\\'], .error .unterminatedText, []⟩
  | '\\' :: c :: rest =>
    match unescape c with
    | none => ⟨['\\', c], .error (.unknownEscape c), rest⟩
    | some plain =>
      let tail := readText rest
      ⟨'\\' :: c :: tail.taken, tail.value.map (plain :: ·), tail.rest⟩
  | c :: rest =>
    let tail := readText rest
    ⟨c :: tail.taken, tail.value.map (c :: ·), tail.rest⟩

/-- The letters that names are made of. -/
def isNameStart (c : Char) : Bool :=
  c.isAlpha || c = '_'

/-- The characters of a name after its first. -/
def isNamePart (c : Char) : Bool :=
  c.isAlphanum || c = '_'

/-- The integer that a sign and digits stand for. -/
def integerOf (negative : Bool) (digits : List Char) : Int :=
  if negative then -(valueOfDigits digits : Int) else valueOfDigits digits

/-- The token of an integer literal, if it fits. -/
def integerToken (negative : Bool) (digits : List Char) : Except LexicalFault Token :=
  let value := integerOf negative digits
  if fitsInt64 value then .ok (.integer value)
  else .error (.integerTooLarge (if negative then '-' :: digits else digits))

/-- The token of a literal with a point. -/
def floatToken (negative : Bool) (whole fraction : List Char) : Token :=
  .float (.ofDecimal negative (valueOfDigits (whole ++ fraction)) (-(fraction.length : Int)))

/-- Reads a number whose sign, if any, was taken. A point belongs to the number only if a digit
follows it. -/
def readNumber (negative : Bool) (text : List Char) : Reading (Except LexicalFault Token) :=
  let whole := text.takeWhile Char.isDigit
  match text.dropWhile Char.isDigit with
  | '.' :: d :: rest =>
    if d.isDigit then
      let fraction := (d :: rest).takeWhile Char.isDigit
      ⟨whole ++ '.' :: fraction, .ok (floatToken negative whole fraction),
        (d :: rest).dropWhile Char.isDigit⟩
    else ⟨whole, integerToken negative whole, '.' :: d :: rest⟩
  | rest => ⟨whole, integerToken negative whole, rest⟩

/-- Whether a text starts with a digit. -/
def startsWithDigit : List Char → Bool
  | c :: _ => c.isDigit
  | [] => false

/-- Reads a doc comment behind its first slash. -/
def readDoc (text : List Char) : Reading (Except LexicalFault Token) :=
  let line := readWhile (· ≠ '\n') text
  { line with value := .ok (.doc (String.ofList (trim (line.value.drop 2)))) }

/-- Reads the token that starts with the character `first`, which is neither blank nor the start of
a plain comment. The stretch taken does not include `first`. -/
def readToken (first : Char) (rest : List Char) : Reading (Except LexicalFault Token) :=
  match Symbol.ofChar? first with
  | some symbol => ⟨[], .ok (.symbol symbol), rest⟩
  | none =>
    if first = '"' then
      let text := readText rest
      { text with value := text.value.map fun content => .text (String.ofList content) }
    else if first = '/' ∧ rest.head? = some '/' then readDoc rest
    else if first = '-' ∧ startsWithDigit rest then readNumber true rest
    else if first.isDigit then
      { readNumber false (first :: rest) with
        taken := (readNumber false (first :: rest)).taken.drop 1 }
    else if isNameStart first then
      let tail := readWhile isNamePart rest
      { tail with value := .ok (.name (String.ofList (first :: tail.value))) }
    else ⟨[], .error (.unexpectedCharacter first), rest⟩

/-- A stretch of trivia and the stretch of one token or error behind it. -/
structure Piece where
  trivia : List Char
  text : List Char
  content : Except LexicalFault Token

/-- Splitting off trivia loses nothing. -/
theorem splitTrivia_append (inComment : Bool) (text : List Char) :
    (splitTrivia inComment text).1 ++ (splitTrivia inComment text).2 = text := by
  induction text generalizing inComment with
  | nil => simp [splitTrivia]
  | cons c rest ih =>
    cases inComment with
    | true => simp [splitTrivia, ih]
    | false =>
      simp only [splitTrivia]
      split
      · simp [ih]
      · split
        · simp [ih]
        · simp

/-- Reading a text literal loses nothing. -/
theorem readText_append (text : List Char) :
    (readText text).taken ++ (readText text).rest = text := by
  fun_induction readText text with
  | case1 => rfl
  | case2 rest => rfl
  | case3 rest => rfl
  | case4 => rfl
  | case5 c rest => rfl
  | case6 c rest plain _ tail ih => simpa [tail] using ih
  | case7 c rest _ _ _ _ tail ih => simpa [tail] using ih

/-- Reading a number loses nothing. -/
theorem readNumber_append (negative : Bool) (text : List Char) :
    (readNumber negative text).taken ++ (readNumber negative text).rest = text := by
  have h : text.takeWhile Char.isDigit ++ text.dropWhile Char.isDigit = text :=
    List.takeWhile_append_dropWhile
  unfold readNumber
  split
  · next d rest hrest =>
    split
    · rw [hrest] at h
      simp only [List.append_assoc, List.cons_append, List.takeWhile_append_dropWhile]
      exact h
    · rw [hrest] at h
      exact h
  · exact h

/-- A number that starts with a digit takes that digit. -/
theorem readNumber_taken_cons (negative : Bool) (first : Char) (rest : List Char)
    (h : first.isDigit = true) :
    (readNumber negative (first :: rest)).taken =
      first :: (readNumber negative (first :: rest)).taken.drop 1 := by
  unfold readNumber
  split <;> simp_all
  split <;> simp

/-- Reading a token loses nothing behind its first character. -/
theorem readToken_append (first : Char) (rest : List Char) :
    (readToken first rest).taken ++ (readToken first rest).rest = rest := by
  unfold readToken
  split
  · rfl
  · split
    · exact readText_append rest
    · split
      · exact List.takeWhile_append_dropWhile
      · split
        · exact readNumber_append true rest
        · split
          · next hdigit =>
            have happend := readNumber_append false (first :: rest)
            rw [readNumber_taken_cons false first rest hdigit] at happend
            simpa using happend
          · split
            · exact List.takeWhile_append_dropWhile
            · rfl

/-- What is left behind a token is no longer than what stood behind its first character. -/
theorem readToken_rest_length (first : Char) (rest : List Char) :
    (readToken first rest).rest.length ≤ rest.length := by
  conv => rhs; rw [← readToken_append first rest]
  simp

/-- Cuts a source into pieces and the trivia behind the last of them. -/
def pieces (text : List Char) : List Piece × List Char :=
  match _hsplit : (splitTrivia false text).2 with
  | [] => ([], (splitTrivia false text).1)
  | first :: rest =>
    let reading := readToken first rest
    let (others, trailing) := pieces reading.rest
    (⟨(splitTrivia false text).1, first :: reading.taken, reading.value⟩ :: others, trailing)
termination_by text.length
decreasing_by
  have hrest := readToken_rest_length first rest
  have hlength := congrArg List.length (splitTrivia_append false text)
  simp only [_hsplit, List.length_append, List.length_cons] at hlength
  omega

/-- The contents of pieces, each with the place of its first character. -/
def locate (position : Position) : List Piece → List (Located (Except LexicalFault Token))
  | [] => []
  | piece :: others =>
    let first := position.afterText piece.trivia
    ⟨first, piece.content⟩ :: locate (first.afterText piece.text) others

/-- The tokens and errors of a source in order, and the place where it ends. -/
structure Lexing where
  items : List (Located (Except LexicalFault Token))
  finish : Position

/-- Reads a source into tokens and errors. -/
def lex (source : List Char) : Lexing where
  items := locate .start (pieces source).1
  finish := Position.start.afterText source

/-- The tokens of a lexing. -/
def Lexing.tokens (lexing : Lexing) : List (Located Token) :=
  lexing.items.filterMap fun item =>
    match item.value with
    | .ok token => some ⟨item.position, token⟩
    | .error _ => none

/-- The errors of a lexing. -/
def Lexing.faults (lexing : Lexing) : List (Located LexicalFault) :=
  lexing.items.filterMap fun item =>
    match item.value with
    | .ok _ => none
    | .error fault => some ⟨item.position, fault⟩

end SchemaBindings.Schema
