import SchemaBindings.Manifest.Document

/-!
# Bare scalar values of TOML

Truth values, integers, floating-point numbers and dates are written without quotes. Each reader
here gets the whole run of characters that a bare value may consist of, and accepts it or not.
-/

namespace SchemaBindings.Manifest

open SchemaBindings.Number (Binary64 valueOfDigits splitSign)
open SchemaBindings.Text (Position)

/-- The digits of a text in which single underscores may stand between digits. -/
def groupedDigits? (isDigit : Char → Bool) : List Char → Option (List Char)
  | [] => none
  | [c] => if isDigit c then some [c] else none
  | c :: '_' :: rest => if isDigit c then (groupedDigits? isDigit rest).map (c :: ·) else none
  | c :: rest => if isDigit c then (groupedDigits? isDigit rest).map (c :: ·) else none

/-- Decimal digits without a superfluous zero in front. -/
def wholeDigits? (text : List Char) : Option (List Char) :=
  match groupedDigits? Char.isDigit text with
  | some ('0' :: _ :: _) => none
  | digits? => digits?

/-- The value of a digit in a base up to sixteen. -/
def digitValue (c : Char) : Nat :=
  if c.isDigit then c.toNat - '0'.toNat else c.toLower.toNat - 'a'.toNat + 10

/-- Whether a character is a digit of a base. -/
def isDigitOf (base : Nat) (c : Char) : Bool :=
  (c.isDigit || ('a' ≤ c.toLower && c.toLower ≤ 'f')) && digitValue c < base

/-- The value of digits in a base. -/
def valueInBase (base : Nat) (digits : List Char) : Nat :=
  digits.foldl (fun value c => base * value + digitValue c) 0

/-- The base that a two-character mark announces, and the text behind it. -/
def baseMark? : List Char → Option (Nat × List Char)
  | '0' :: 'x' :: rest => some (16, rest)
  | '0' :: 'o' :: rest => some (8, rest)
  | '0' :: 'b' :: rest => some (2, rest)
  | _ => none

/-- Reads an integer of 64 bits. -/
def integer? (text : List Char) : Option Int :=
  let value? : Option Int :=
    match baseMark? text with
    | some (base, rest) => (groupedDigits? (isDigitOf base) rest).map
        fun digits => valueInBase base digits
    | none =>
      let (negative, rest) := splitSign text
      (wholeDigits? rest).map fun digits =>
        if negative then -(valueOfDigits digits : Int) else valueOfDigits digits
  value?.filter fun value => -Int.pow 2 63 ≤ value && value < Int.pow 2 63

/-- Reads the exponent of a number behind its mark. -/
def exponent? (text : List Char) : Option Int :=
  let (negative, rest) := splitSign text
  (groupedDigits? Char.isDigit rest).map fun digits =>
    if negative then -(valueOfDigits digits : Int) else valueOfDigits digits

/-- Reads a fraction and an exponent, of which one has to be there. -/
def fractionAndExponent? (text : List Char) : Option (List Char × Int) :=
  let isMark := fun c => c = 'e' || c = 'E'
  match text with
  | '.' :: rest =>
    match groupedDigits? Char.isDigit (rest.takeWhile fun c => !isMark c),
    rest.dropWhile fun c => !isMark c with
    | some digits, [] => some (digits, 0)
    | some digits, _ :: tail => (exponent? tail).map fun exponent => (digits, exponent)
    | none, _ => none
  | c :: rest => if isMark c then (exponent? rest).map fun exponent => ([], exponent) else none
  | [] => none

/-- Reads a floating-point number. A positive one must be finite. -/
def float? (text : List Char) : Option Binary64 :=
  let (negative, rest) := splitSign text
  if rest = ['i', 'n', 'f'] then some (.infinite negative)
  else if rest = ['n', 'a', 'n'] then some .nan
  else
    let isWhole := fun c => Char.isDigit c || c = '_'
    match wholeDigits? (rest.takeWhile isWhole), fractionAndExponent? (rest.dropWhile isWhole) with
    | some whole, some (fraction, exponent) =>
      let value := Binary64.ofDecimal negative (valueOfDigits (whole ++ fraction))
        (exponent - (fraction.length : Int))
      if value = .infinite false then none else some value
    | _, _ => none

/-! ## Dates and times -/

/-- Reads a number of exactly the given count of digits. -/
def fixedDigits? (count : Nat) (text : List Char) : Option (Nat × List Char) :=
  let digits := text.take count
  if digits.length = count ∧ digits.all Char.isDigit then
    some (valueOfDigits digits, text.drop count)
  else none

/-- Drops a character that has to be there. -/
def expectChar? (c : Char) : List Char → Option (List Char)
  | first :: rest => if first = c then some rest else none
  | [] => none

/-- The number of days in a month. -/
def daysInMonth (year month : Nat) : Nat :=
  if month = 2 then
    if year % 4 = 0 ∧ (year % 100 ≠ 0 ∨ year % 400 = 0) then 29 else 28
  else if month = 4 ∨ month = 6 ∨ month = 9 ∨ month = 11 then 30
  else 31

/-- Reads a date and returns what stands behind it. -/
def date? (text : List Char) : Option (List Char) := do
  let (year, rest) ← fixedDigits? 4 text
  let (month, rest) ← fixedDigits? 2 (← expectChar? '-' rest)
  let (day, rest) ← fixedDigits? 2 (← expectChar? '-' rest)
  if 1 ≤ month ∧ month ≤ 12 ∧ 1 ≤ day ∧ day ≤ daysInMonth year month then some rest else none

/-- Reads a time of day and returns what stands behind it. -/
def time? (text : List Char) : Option (List Char) := do
  let (hour, rest) ← fixedDigits? 2 text
  let (minute, rest) ← fixedDigits? 2 (← expectChar? ':' rest)
  let (second, rest) ← fixedDigits? 2 (← expectChar? ':' rest)
  if 23 < hour ∨ 59 < minute ∨ 60 < second then none
  else
    match rest with
    | '.' :: fraction =>
      if (fraction.head?.map Char.isDigit).getD false then some (fraction.dropWhile Char.isDigit)
      else none
    | rest => some rest

/-- Whether a text is empty or the distance of a local time from universal time. -/
def isOffset : List Char → Bool
  | [] => true
  | ['Z'] => true
  | ['z'] => true
  | sign :: rest =>
    let read := do
      let (hours, rest) ← fixedDigits? 2 rest
      let (minutes, rest) ← fixedDigits? 2 (← expectChar? ':' rest)
      if hours ≤ 23 ∧ minutes ≤ 59 ∧ rest.isEmpty then some () else none
    (sign = '+' || sign = '-') && read.isSome

/-- Whether a text is a date, a time, or both. -/
def isDatetime (text : List Char) : Bool :=
  match date? text with
  | some [] => true
  | some (mark :: rest) =>
    (mark = 'T' || mark = 't' || mark = ' ') && ((time? rest).map isOffset).getD false
  | none => time? text = some []

/-- The characters of bare values. -/
def isBareChar (c : Char) : Bool :=
  c.isAlphanum || c = '+' || c = '-' || c = '_' || c = '.' || c = ':'

/-- Takes the run of characters of a bare value. A space may stand between a date and a time. -/
def takeBare (text : List Char) : List Char × List Char :=
  let run := text.takeWhile isBareChar
  let rest := text.dropWhile isBareChar
  match date? run, rest with
  | some [], ' ' :: tail =>
    if (tail.head?.map Char.isDigit).getD false then
      (run ++ ' ' :: tail.takeWhile isBareChar, tail.dropWhile isBareChar)
    else (run, rest)
  | _, _ => (run, rest)

/-- The item that a bare value is. -/
def bareItem? (place : Position) (text : List Char) : Option Item :=
  if text = ['t', 'r', 'u', 'e'] then some (.boolean place true)
  else if text = ['f', 'a', 'l', 's', 'e'] then some (.boolean place false)
  else
    match integer? text, float? text with
    | some value, _ => some (.integer place value)
    | none, some value => some (.float place value)
    | none, none => if isDatetime text then some (.datetime place) else none

end SchemaBindings.Manifest
