/-!
# Binary floating-point numbers of 64 bits

A finite number is a sign, a mantissa and a power of two. The functions here make one from an exact
quotient of naturals by rounding to nearest, ties to even, and read one from decimal text. Only
naturals and integers are used, so that every value can be computed in a proof.
-/

namespace SchemaBindings.Number

/-- A binary64 number. A finite one is `mantissa * 2 ^ exponent` up to its sign. -/
inductive Binary64 where
  | finite (negative : Bool) (mantissa : Nat) (exponent : Int)
  | infinite (negative : Bool)
  | nan
deriving DecidableEq

namespace Binary64

/-- The least exponent, that of the subnormal numbers. -/
def leastExponent : Int := -1074

/-- The exponent of the largest finite numbers. -/
def greatestExponent : Int := 971

/-- The quotient of two naturals, rounded to nearest with ties to even. -/
def roundQuotient (num den : Nat) : Nat :=
  let floor := num / den
  let rest := num % den
  if 2 * rest < den then floor
  else if den < 2 * rest then floor + 1
  else if floor % 2 = 0 then floor
  else floor + 1

/-- The quotient `num / den` divided by `2 ^ exponent`, again as a quotient. -/
def scale (num den : Nat) (exponent : Int) : Nat × Nat :=
  (num * Nat.pow 2 (-exponent).toNat, den * Nat.pow 2 exponent.toNat)

/-- The exponent at which the mantissa of `num / den` has 53 bits, or the least one. -/
def exponentFor (num den : Nat) : Int :=
  let guess : Int := (num.log2 : Int) - den.log2 - 52
  let (n, d) := scale num den guess
  max leastExponent (if n < Nat.pow 2 52 * d then guess - 1 else guess)

/-- The number nearest to `num / den`. A quotient beyond the finite numbers becomes infinite. -/
def ofQuotient (negative : Bool) (num den : Nat) : Binary64 :=
  if num = 0 then .finite negative 0 leastExponent
  else
    let exponent := exponentFor num den
    let (n, d) := scale num den exponent
    let mantissa := roundQuotient n d
    let (mantissa, exponent) :=
      if mantissa = Nat.pow 2 53 then (Nat.pow 2 52, exponent + 1) else (mantissa, exponent)
    if greatestExponent < exponent then .infinite negative else .finite negative mantissa exponent

/-- The number nearest to `digits * 10 ^ exponent`. Exponents that decide the answer alone are not
expanded. -/
def ofDecimal (negative : Bool) (digits : Nat) (exponent : Int) : Binary64 :=
  if digits = 0 then .finite negative 0 leastExponent
  else if 310 < exponent then .infinite negative
  else if exponent + (digits.log2 : Int) < -400 then .finite negative 0 leastExponent
  else ofQuotient negative (digits * Nat.pow 10 exponent.toNat) (Nat.pow 10 (-exponent).toNat)

/-- The number nearest to an integer. -/
def ofInt (value : Int) : Binary64 :=
  ofQuotient (value < 0) value.natAbs 1

end Binary64

/-- The value of decimal digits, the most significant first. -/
def valueOfDigits (digits : List Char) : Nat :=
  digits.foldl (fun value c => 10 * value + (c.toNat - '0'.toNat)) 0

/-- Reads an optional sign in front of a text. -/
def splitSign : List Char → Bool × List Char
  | '-' :: rest => (true, rest)
  | '+' :: rest => (false, rest)
  | text => (false, text)

/-- Reads an integer: an optional sign and at least one digit. -/
def readInt? (text : List Char) : Option Int :=
  let (negative, digits) := splitSign text
  if digits.isEmpty || !digits.all Char.isDigit then none
  else
    let value : Int := valueOfDigits digits
    some (if negative then -value else value)

/-- Reads a number in decimal notation: a sign, digits with a point among them, and an exponent, of
which only the digits are required. The names of the infinities and of the undefined value are read
too. -/
def Binary64.read? (text : List Char) : Option Binary64 :=
  let (negative, body) := splitSign text
  let word := String.ofList (body.map Char.toLower)
  if word = "inf" || word = "infinity" then some (.infinite negative)
  else if word = "nan" then some .nan
  else
    let whole := body.takeWhile Char.isDigit
    let afterWhole := body.dropWhile Char.isDigit
    let (fraction, tail) :=
      match afterWhole with
      | '.' :: rest => (rest.takeWhile Char.isDigit, rest.dropWhile Char.isDigit)
      | rest => ([], rest)
    let exponent? : Option Int :=
      match tail with
      | [] => some 0
      | c :: rest => if c = 'e' || c = 'E' then readInt? rest else none
    if whole.isEmpty && fraction.isEmpty then none
    else exponent?.map fun exponent =>
      .ofDecimal negative (valueOfDigits (whole ++ fraction)) (exponent - (fraction.length : Int))

end SchemaBindings.Number
