import SchemaBindings.Number.Shortest

/-!
# The text of a floating-point number

A number is written with the fewest digits that read back. Numbers whose leading digit stands at one
of the places from `10 ^ -4` to `10 ^ 15`, and zero, are written with a point and at least one digit
after it; the others with one digit in front of the point and an exponent.
-/

namespace SchemaBindings.Number

/-- Positional notation of `digits * 10 ^ exponent`, with at least one digit on either side of the
point. -/
def positional (digits : List Char) (exponent : Int) : List Char :=
  if 0 ≤ exponent then digits ++ List.replicate exponent.toNat '0' ++ ['.', '0']
  else
    let places := exponent.natAbs
    if places < digits.length then
      digits.take (digits.length - places) ++ ['.'] ++ digits.drop (digits.length - places)
    else ['0', '.'] ++ List.replicate (places - digits.length) '0' ++ digits

/-- One digit, a point if more digits follow, and the exponent of the leading digit. -/
def scientific (digits : List Char) (leading : Int) : List Char :=
  let mantissa :=
    match digits with
    | first :: second :: rest => first :: '.' :: second :: rest
    | digits => digits
  mantissa ++ ['e'] ++ (toString leading).toList

/-- The text of a decimal. -/
def Decimal.text (decimal : Decimal) : List Char :=
  let stripped := decimal.strip
  let digits := Nat.toDigits 10 stripped.digits
  let leading : Int := stripped.exponent + digits.length - 1
  if -4 ≤ leading ∧ leading < 16 then positional digits stripped.exponent
  else scientific digits leading

/-- The text of a number. -/
def Binary64.text : Binary64 → String
  | .nan => "NaN"
  | .infinite negative => if negative then "-inf" else "inf"
  | .finite negative mantissa exponent =>
    let magnitude :=
      if mantissa = 0 then ['0', '.', '0'] else (shortest mantissa exponent).text
    String.ofList (if negative then '-' :: magnitude else magnitude)

end SchemaBindings.Number
