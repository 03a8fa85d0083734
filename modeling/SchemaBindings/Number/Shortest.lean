import SchemaBindings.Number.Binary64

/-!
# The shortest decimal that reads back

Each finite number stands for the interval of reals that round to it. Its shortest decimal has the
fewest digits of all decimals in the interval; of two with equally few digits the nearer one is
taken, and the larger one of an exact tie. The search is done in exact arithmetic.
-/

namespace SchemaBindings.Number

/-- The number `digits * 10 ^ exponent`. -/
structure Decimal where
  digits : Nat
  exponent : Int
deriving DecidableEq

/-- Compares `a * 10 ^ i` with `n * 2 ^ j`. -/
def compareScaled (a : Nat) (i : Int) (n : Nat) (j : Int) : Ordering :=
  compare (a * Nat.pow 10 i.toNat * Nat.pow 2 (-j).toNat)
    (n * Nat.pow 2 j.toNat * Nat.pow 10 (-i).toNat)

/-- Whether a decimal lies among the reals that round to `mantissa * 2 ^ exponent`. The gap to the
number below is half as wide under a power of two, and the ends belong to even mantissas. -/
def readsBack (mantissa : Nat) (exponent : Int) (decimal : Decimal) : Bool :=
  let narrowBelow := mantissa = Nat.pow 2 52 && Binary64.leastExponent < exponent
  let low := if narrowBelow then 4 * mantissa - 1 else 4 * mantissa - 2
  let high := 4 * mantissa + 2
  let endsCount := mantissa % 2 == 0
  let fromLow := compareScaled decimal.digits decimal.exponent low (exponent - 2)
  let fromHigh := compareScaled decimal.digits decimal.exponent high (exponent - 2)
  (fromLow == .gt || (endsCount && fromLow == .eq)) &&
    (fromHigh == .lt || (endsCount && fromHigh == .eq))

/-- The number of decimal digits of a natural. -/
def digitCount (n : Nat) : Nat :=
  (Nat.toDigits 10 n).length

/-- The exponent `e` with `10 ^ e ≤ num / den < 10 ^ (e + 1)`. -/
def decimalExponent (num den : Nat) : Int :=
  if den ≤ num then digitCount (num / den) - 1
  else
    let count := digitCount (den / num)
    if den ≤ num * Nat.pow 10 (count - 1) then -((count : Int) - 1) else -(count : Int)

/-- The better of the two neighbours of `num / den` among the multiples of `10 ^ exponent`, if one
of them reads back. -/
def neighbourAt (mantissa : Nat) (exponent2 : Int) (num den : Nat) (exponent : Int) :
    Option Decimal :=
  let n := num * Nat.pow 10 (-exponent).toNat
  let d := den * Nat.pow 10 exponent.toNat
  let below : Decimal := ⟨n / d, exponent⟩
  let above : Decimal := ⟨n / d + 1, exponent⟩
  match readsBack mantissa exponent2 below, readsBack mantissa exponent2 above with
  | true, true => some (if 2 * (n % d) < d then below else above)
  | true, false => some below
  | false, true => some above
  | false, false => none

/-- The shortest decimal of the positive number `mantissa * 2 ^ exponent`. Seventeen digits are
always enough; the exact value stands in where the search ends without a hit. -/
def shortest (mantissa : Nat) (exponent : Int) : Decimal :=
  let num := mantissa * Nat.pow 2 exponent.toNat
  let den := Nat.pow 2 (-exponent).toNat
  let top := decimalExponent num den
  let found := (List.range 17).findSome? fun (count : Nat) =>
    neighbourAt mantissa exponent num den (top - (count : Int))
  found.getD ⟨num * Nat.pow 5 (-exponent).toNat, -((-exponent).toNat : Int)⟩

/-- Moves trailing zeros of the digits into the exponent. -/
def stripZeros : Nat → Decimal → Decimal
  | 0, decimal => decimal
  | fuel + 1, decimal =>
    if decimal.digits ≠ 0 ∧ decimal.digits % 10 = 0 then
      stripZeros fuel ⟨decimal.digits / 10, decimal.exponent + 1⟩
    else decimal

/-- The decimal without trailing zeros. -/
def Decimal.strip (decimal : Decimal) : Decimal :=
  stripZeros (digitCount decimal.digits) decimal

end SchemaBindings.Number
