import Mathlib.Algebra.Order.Ring.Nat
import Mathlib.Tactic.Ring
import SchemaBindings.Number.Binary64

/-!
# When a decimal is infinite

The largest finite number is `(2 ^ 53 - 1) * 2 ^ 971`, and what is nearest to it or to a smaller
number is finite. From the point on that is half a step above it, where the tie goes to the even
mantissa, a quotient of naturals becomes infinite.
-/

namespace SchemaBindings.Number

open Binary64 (exponentFor greatestExponent leastExponent ofQuotient roundQuotient scale)

/-- The least number that becomes infinite: half a step above the largest finite number. -/
def overflowBound : Nat :=
  (2 ^ 54 - 1) * 2 ^ 970

/-! ## Bounds -/

/-- The bound lies between two powers of two. -/
theorem overflowBound_bounds : 2 ^ 1023 ≤ overflowBound ∧ overflowBound ≤ 2 ^ 1024 := by
  have hlow : 2 ^ 1023 = 2 ^ 53 * 2 ^ 970 := by rw [← pow_add]
  have hhigh : 2 ^ 1024 = 2 ^ 54 * 2 ^ 970 := by rw [← pow_add]
  rw [overflowBound, hlow, hhigh]
  exact ⟨Nat.mul_le_mul_right _ (by decide), Nat.mul_le_mul_right _ (by decide)⟩

/-- Twice the bound is an odd number of steps. -/
theorem two_mul_overflowBound (den : Nat) :
    2 * (overflowBound * den) = (2 * 2 ^ 53 - 1) * (den * 2 ^ 971) := by
  have hstep : 2 ^ 971 = 2 * 2 ^ 970 := by rw [← pow_succ']
  rw [overflowBound, hstep]
  generalize 2 ^ 970 = step
  ring

/-- A quotient is below a power of two by the sizes of its parts. -/
theorem lt_two_pow_mul_of_log2 {num den size : Nat} (h : num.log2 < size + den.log2)
    (hden : den ≠ 0) :
    num < 2 ^ size * den := by
  have hlow : 2 ^ den.log2 ≤ den := Nat.log2_self_le hden
  calc num < 2 ^ (num.log2 + 1) := Nat.lt_log2_self
    _ ≤ 2 ^ (size + den.log2) := Nat.pow_le_pow_right Nat.two_pos h
    _ = 2 ^ size * 2 ^ den.log2 := pow_add 2 size den.log2
    _ ≤ 2 ^ size * den := Nat.mul_le_mul_left _ hlow

/-- A quotient is above a power of two by the sizes of its parts. -/
theorem two_pow_mul_le_of_log2 {num den size : Nat} (h : size + den.log2 < num.log2)
    (hnum : num ≠ 0) :
    2 ^ size * den ≤ num := by
  have hhigh : den < 2 ^ (den.log2 + 1) := Nat.lt_log2_self
  calc 2 ^ size * den ≤ 2 ^ size * 2 ^ (den.log2 + 1) := Nat.mul_le_mul_left _ hhigh.le
    _ = 2 ^ (size + (den.log2 + 1)) := (pow_add 2 size (den.log2 + 1)).symm
    _ ≤ 2 ^ num.log2 := Nat.pow_le_pow_right Nat.two_pos (by omega)
    _ ≤ num := Nat.log2_self_le hnum

/-- Two powers of two around a number are one in front of it. -/
theorem two_pow_mul_shift (size more den : Nat) :
    2 ^ size * (den * 2 ^ more) = 2 ^ (size + more) * den := by
  rw [pow_add, Nat.mul_comm den, Nat.mul_assoc]

/-! ## Rounding -/

/-- A quotient below an even number is rounded to it exactly from half a step below it on. -/
theorem roundQuotient_eq_iff {num den top : Nat} (heven : top % 2 = 0) (hbelow : num < top * den) :
    roundQuotient num den = top ↔ (2 * top - 1) * den ≤ 2 * num := by
  have hden : 0 < den := Nat.pos_of_ne_zero fun hzero => by simp [hzero] at hbelow
  have hrest : num % den < den := Nat.mod_lt num hden
  have hfloor : num / den < top := Nat.div_lt_of_lt_mul (Nat.mul_comm top den ▸ hbelow)
  have hnum : den * (num / den) + num % den = num := Nat.div_add_mod num den
  unfold roundQuotient
  generalize num / den = floor at *
  generalize num % den = rest at *
  dsimp only
  by_cases hlast : floor + 1 = top
  · have htop : (2 * top - 1) * den = 2 * (den * floor) + den := by
      have hodd : 2 * top - 1 = 2 * floor + 1 := by omega
      rw [hodd]
      ring
    split_ifs <;> omega
  · have htop : 2 * (den * floor) + 3 * den ≤ (2 * top - 1) * den := by
      have hodd : 2 * floor + 3 ≤ 2 * top - 1 := by omega
      calc 2 * (den * floor) + 3 * den = (2 * floor + 3) * den := by ring
        _ ≤ (2 * top - 1) * den := Nat.mul_le_mul_right den hodd
    split_ifs <;> omega

/-! ## Quotients -/

/-- Scaling by a power of two that is whole is done below the line. -/
theorem scale_natCast (num den size : Nat) :
    scale num den (size : Int) = (num, den * 2 ^ size) := by
  have hnegative : (-(size : Int)).toNat = 0 := by omega
  have hpositive : ((size : Int)).toNat = size := Int.toNat_natCast size
  rw [scale, hnegative, hpositive]
  exact congrArg₂ Prod.mk (Nat.mul_one num) rfl

/-- A quotient becomes infinite exactly if its exponent is too large, also once its mantissa is
rounded up to the next power of two. -/
theorem ofQuotient_eq_infinite_iff_exponent {num den : Nat} (hnum : num ≠ 0) (negative : Bool) :
    ofQuotient negative num den = .infinite negative ↔
      greatestExponent < exponentFor num den ∨ exponentFor num den = greatestExponent ∧
        roundQuotient (scale num den (exponentFor num den)).1
          (scale num den (exponentFor num den)).2 = 2 ^ 53 := by
  have hpow : Nat.pow 2 53 = 2 ^ 53 := rfl
  unfold ofQuotient
  rw [if_neg hnum]
  dsimp only
  rw [hpow]
  by_cases hround : roundQuotient (scale num den (exponentFor num den)).1
    (scale num den (exponentFor num den)).2 = 2 ^ 53
  · rw [if_pos hround]
    dsimp only
    split
    · exact iff_of_true rfl (by omega)
    · exact iff_of_false nofun (by omega)
  · rw [if_neg hround]
    dsimp only
    split
    · exact iff_of_true rfl (by omega)
    · exact iff_of_false nofun (by omega)

/-- Where the sizes of the parts suggest a positive exponent, it is that or the one below, which
tells whether the quotient reaches the least mantissa of 53 bits. -/
theorem exponentFor_eq {num den size : Nat} (h : num.log2 = den.log2 + 53 + size) :
    exponentFor num den = if num < 2 ^ 52 * (den * 2 ^ (size + 1)) then (size : Int)
    else size + 1 := by
  have hguess : (num.log2 : Int) - den.log2 - 52 = ((size + 1 : Nat) : Int) := by omega
  have hpow : Nat.pow 2 52 = 2 ^ 52 := rfl
  unfold exponentFor leastExponent
  dsimp only
  rw [hguess, scale_natCast, hpow]
  dsimp only
  split <;> omega

/-- The exponent is at most what the sizes of the parts suggest. -/
theorem exponentFor_le {num den size : Nat} (h : num.log2 ≤ den.log2 + 52 + size) :
    exponentFor num den ≤ size := by
  unfold exponentFor leastExponent
  dsimp only
  split <;> omega

/-- At the greatest exponent, a mantissa is rounded up to the next power of two exactly from the
bound on. -/
theorem roundQuotient_greatest_iff {num den : Nat} (h : num < 2 ^ 1024 * den) :
    roundQuotient num (den * 2 ^ 971) = 2 ^ 53 ↔ overflowBound * den ≤ num := by
  have hbelow : num < 2 ^ 53 * (den * 2 ^ 971) := by
    simpa only [two_pow_mul_shift, Nat.reduceAdd] using h
  rw [roundQuotient_eq_iff (by decide) hbelow, ← two_mul_overflowBound]
  omega

/-- A quotient becomes infinite exactly from the bound on. Where the exponent is the greatest one,
the quotient is compared with a power of two, since its mantissa may be rounded up. -/
theorem ofQuotient_eq_infinite_iff {num den : Nat} (hnum : num ≠ 0) (hden : den ≠ 0)
    (negative : Bool) :
    ofQuotient negative num den = .infinite negative ↔ overflowBound * den ≤ num := by
  obtain ⟨hlow, hhigh⟩ := overflowBound_bounds
  have hlowDen := Nat.mul_le_mul_right den hlow
  have hhighDen := Nat.mul_le_mul_right den hhigh
  have hgreatest : greatestExponent = ((971 : Nat) : Int) := rfl
  rw [ofQuotient_eq_infinite_iff_exponent hnum, hgreatest]
  rcases Nat.lt_or_ge num.log2 (den.log2 + 1023) with hsmall | hlarge
  · have hexponent : exponentFor num den ≤ ((970 : Nat) : Int) := exponentFor_le (by omega)
    have hbelow : num < 2 ^ 1023 * den := lt_two_pow_mul_of_log2 (by omega) hden
    exact iff_of_false (by omega) (by omega)
  rcases Nat.lt_or_ge (den.log2 + 1024) num.log2 with hhuge | hmiddle
  · have habove : 2 ^ 1024 * den ≤ num := two_pow_mul_le_of_log2 (by omega) hnum
    obtain ⟨size, hsize⟩ : ∃ size, num.log2 = den.log2 + 53 + (size + 972) :=
      ⟨num.log2 - (den.log2 + 1025), by omega⟩
    have hexponent := exponentFor_eq hsize
    refine iff_of_true (.inl ?_) (by omega)
    rw [hexponent]
    split <;> omega
  have hrounds : exponentFor num den = ((971 : Nat) : Int) → num < 2 ^ 1024 * den →
      (((971 : Nat) : Int) < exponentFor num den ∨ exponentFor num den = ((971 : Nat) : Int) ∧
        roundQuotient (scale num den (exponentFor num den)).1
            (scale num den (exponentFor num den)).2 = 2 ^ 53 ↔
          overflowBound * den ≤ num) := by
    intro hexponent hbelow
    rw [hexponent, scale_natCast, roundQuotient_greatest_iff hbelow]
    simp
  obtain hsize | hsize : num.log2 = den.log2 + 53 + 970 ∨ num.log2 = den.log2 + 53 + 971 := by omega
  · have hexponent := exponentFor_eq hsize
    have hbelow : num < 2 ^ 1024 * den := lt_two_pow_mul_of_log2 (by omega) hden
    split at hexponent
    · next hmantissa =>
      simp only [two_pow_mul_shift, Nat.reduceAdd] at hmantissa
      exact iff_of_false (by omega) (by omega)
    · exact hrounds hexponent hbelow
  · have hexponent := exponentFor_eq hsize
    split at hexponent
    · next hmantissa =>
      simp only [two_pow_mul_shift, Nat.reduceAdd] at hmantissa
      exact hrounds hexponent hmantissa
    · next hmantissa =>
      simp only [two_pow_mul_shift, Nat.reduceAdd] at hmantissa
      exact iff_of_true (by omega) (by omega)

/-- An infinite number has the sign of the decimal that it is made of. -/
theorem sign_of_ofDecimal {negative other : Bool} {digits : Nat} {exponent : Int}
    (h : Binary64.ofDecimal negative digits exponent = .infinite other) : other = negative := by
  have hquotient : ∀ num den, ofQuotient negative num den = .infinite other → other = negative := by
    intro num den hvalue
    unfold ofQuotient at hvalue
    split at hvalue
    · contradiction
    dsimp only at hvalue
    split at hvalue <;> split at hvalue
    · exact (Binary64.infinite.inj hvalue).symm
    · contradiction
    · exact (Binary64.infinite.inj hvalue).symm
    · contradiction
  unfold Binary64.ofDecimal at h
  split at h
  · contradiction
  split at h
  · exact (Binary64.infinite.inj h).symm
  split at h
  · contradiction
  · exact hquotient _ _ h

/-- A decimal with digits behind its point becomes infinite exactly from the bound on. -/
theorem ofDecimal_eq_infinite_iff (negative : Bool) (digits places : Nat) :
    Binary64.ofDecimal negative digits (-(places : Int)) = .infinite negative ↔
    overflowBound * 10 ^ places ≤ digits := by
  have hplaces : 0 < 10 ^ places := Nat.pow_pos (by decide)
  have hpositive : 0 < overflowBound :=
    Nat.lt_of_lt_of_le (Nat.pow_pos Nat.two_pos) overflowBound_bounds.1
  have hbound : 10 ^ places ≤ overflowBound * 10 ^ places := Nat.le_mul_of_pos_left _ hpositive
  unfold Binary64.ofDecimal
  split
  · next hzero => exact iff_of_false nofun (by omega)
  next hzero =>
  rw [if_neg (by omega)]
  split
  · next htiny =>
    have hsmall : digits < 10 ^ places := by
      calc digits < 2 ^ (digits.log2 + 1) := Nat.lt_log2_self
        _ ≤ 2 ^ places := Nat.pow_le_pow_right Nat.two_pos (by omega)
        _ ≤ 10 ^ places := Nat.pow_le_pow_left (by decide) places
    exact iff_of_false nofun (by omega)
  · have hwhole : (-(places : Int)).toNat = 0 := by omega
    have hdenominator : (-(-(places : Int))).toNat = places := by omega
    have hone : digits * Nat.pow 10 0 = digits := Nat.mul_one digits
    rw [hwhole, hdenominator, hone]
    exact ofQuotient_eq_infinite_iff hzero hplaces.ne' negative

end SchemaBindings.Number
