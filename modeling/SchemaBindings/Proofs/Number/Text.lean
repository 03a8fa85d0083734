import SchemaBindings.Proofs.Schema.Layout

/-!
# The shape of the text of a number

An integer is written with digits alone. A finite floating-point number is written so that it cannot
be taken for an integer: with a point between digits, with an exponent, or with both. Integers of 64
bits are far from what would be infinite as a floating-point number.
-/

namespace SchemaBindings.Number

open SchemaBindings.Schema (IsDigits fitsInt64 isDigits_toDigits signed)

/-! ## Decimals -/

/-- A text in decimal notation with a point, an exponent or both. -/
inductive IsDecimal : List Char → Prop
  | point {whole fraction : List Char} (hwhole : IsDigits whole) (hfraction : IsDigits fraction) :
      IsDecimal (whole ++ '.' :: fraction)
  | exponent {whole exponent : List Char} (hwhole : IsDigits whole) (negative : Bool)
      (hexponent : IsDigits exponent) :
      IsDecimal (whole ++ 'e' :: signed negative exponent)
  | pointAndExponent {whole fraction exponent : List Char} (hwhole : IsDigits whole)
      (hfraction : IsDigits fraction) (negative : Bool) (hexponent : IsDigits exponent) :
      IsDecimal (whole ++ '.' :: fraction ++ 'e' :: signed negative exponent)

/-- A decimal starts with digits. -/
theorem IsDecimal.exists_digits {text : List Char} (h : IsDecimal text) :
    ∃ digits more, IsDigits digits ∧ text = digits ++ more := by
  cases h with
  | point hwhole _ => exact ⟨_, _, hwhole, rfl⟩
  | exponent hwhole _ _ => exact ⟨_, _, hwhole, rfl⟩
  | pointAndExponent hwhole _ _ _ => exact ⟨_, _, hwhole, List.append_assoc ..⟩

/-- Digits with zeros behind them are digits. -/
theorem isDigits_append_zeros {digits : List Char} (h : IsDigits digits) (count : Nat) :
    IsDigits (digits ++ List.replicate count '0') := by
  refine ⟨by simp [h.1], List.forall_mem_append.mpr ⟨h.2, fun c hc => ?_⟩⟩
  obtain rfl := List.eq_of_mem_replicate hc
  rfl

/-- Digits with zeros in front of them are digits. -/
theorem isDigits_zeros_append {digits : List Char} (h : IsDigits digits) (count : Nat) :
    IsDigits (List.replicate count '0' ++ digits) := by
  refine ⟨by simp [h.1], List.forall_mem_append.mpr ⟨fun c hc => ?_, h.2⟩⟩
  obtain rfl := List.eq_of_mem_replicate hc
  rfl

/-- Positional notation has digits on both sides of a point. -/
theorem isDecimal_positional {digits : List Char} (h : IsDigits digits) (exponent : Int) :
    IsDecimal (positional digits exponent) := by
  unfold positional
  split
  · exact .point (isDigits_append_zeros h _) (by decide)
  · next hnegative =>
    dsimp only
    split
    · next hplaces =>
      rw [List.append_assoc, List.singleton_append]
      refine .point ⟨?_, fun c hc => h.2 c (List.mem_of_mem_take hc)⟩
        ⟨?_, fun c hc => h.2 c (List.mem_of_mem_drop hc)⟩
      · rw [← List.length_pos_iff, List.length_take]
        omega
      · rw [← List.length_pos_iff, List.length_drop]
        omega
    · rw [List.append_assoc]
      exact .point (show IsDigits ['0'] by decide) (isDigits_zeros_append h _)

/-- An integer is written with digits, behind a minus sign if it is negative. -/
theorem toList_toString_int (value : Int) :
    (toString value).toList = signed (value < 0) (Nat.toDigits 10 value.natAbs) := by
  cases value with
  | ofNat n => exact Nat.toList_repr
  | negSucc n =>
    change ("-" ++ Nat.repr (n + 1)).toList = _
    rw [String.toList_append, Nat.toList_repr, decide_eq_true (Int.negSucc_lt_zero n)]
    rfl

/-- Scientific notation has an exponent. -/
theorem isDecimal_scientific {digits : List Char} (h : IsDigits digits) (leading : Int) :
    IsDecimal (scientific digits leading) := by
  have hexponent := isDigits_toDigits leading.natAbs
  unfold scientific
  rw [toList_toString_int, List.append_assoc, List.singleton_append]
  split
  · next first second rest =>
    obtain ⟨hfirst, hmore⟩ := List.forall_mem_cons.mp h.2
    have hwhole : IsDigits [first] := ⟨by simp, by simpa using hfirst⟩
    exact .pointAndExponent hwhole ⟨by simp, hmore⟩ _ hexponent
  · exact .exponent h _ hexponent

/-- The text of a decimal has a point or an exponent. -/
theorem isDecimal_text (decimal : Decimal) : IsDecimal decimal.text := by
  have hdigits := isDigits_toDigits decimal.strip.digits
  unfold Decimal.text
  dsimp only
  split
  · exact isDecimal_positional hdigits _
  · exact isDecimal_scientific hdigits _

/-! ## Floating-point numbers -/

/-- Whether a number is finite. -/
def Binary64.IsFinite : Binary64 → Prop
  | .finite .. => True
  | _ => False

/-- The text of a finite number is a decimal, possibly behind a minus sign. -/
theorem exists_text_eq_signed {value : Binary64} (h : value.IsFinite) :
    ∃ negative magnitude, IsDecimal magnitude ∧ value.text.toList = signed negative magnitude := by
  cases value with
  | infinite negative => exact h.elim
  | nan => exact h.elim
  | finite negative mantissa exponent =>
    refine ⟨negative, _, ?_, String.toList_ofList⟩
    split
    · have hzero : IsDigits ['0'] := by decide
      exact .point hzero hzero
    · exact isDecimal_text _

/-- A quotient whose exponent is not the greatest is rounded to a finite number. -/
theorem isFinite_ofQuotient {num den : Nat}
    (h : Binary64.exponentFor num den < Binary64.greatestExponent) (negative : Bool) :
    (Binary64.ofQuotient negative num den).IsFinite := by
  unfold Binary64.ofQuotient
  split
  · trivial
  · dsimp only
    split
    · rw [if_neg (Int.not_lt.mpr (Int.add_one_le_of_lt h))]
      trivial
    · rw [if_neg (Int.not_lt.mpr (Int.le_of_lt h))]
      trivial

/-- The number nearest to an integer of 64 bits is finite. -/
theorem isFinite_ofInt {value : Int} (h : fitsInt64 value = true) :
    (Binary64.ofInt value).IsFinite := by
  have hsize : value.natAbs.log2 ≤ 63 := by
    have hbound : value.natAbs < 2 ^ 64 := by
      simp only [fitsInt64, Bool.and_eq_true, decide_eq_true_eq] at h
      obtain ⟨hlow, hhigh⟩ := h
      have hpow : Int.pow 2 63 = 9223372036854775808 := by decide
      rw [hpow] at hlow hhigh
      omega
    by_cases hzero : value.natAbs = 0
    · simp [hzero]
    · exact Nat.lt_succ_iff.mp ((Nat.log2_lt hzero).mpr hbound)
  refine isFinite_ofQuotient ?_ _
  have hone : Nat.log2 1 = 0 := by decide
  unfold Binary64.exponentFor Binary64.leastExponent Binary64.greatestExponent
  dsimp only
  rw [hone]
  split <;> omega

end SchemaBindings.Number
