import Mathlib.Data.List.Basic
import SchemaBindings.Number.Plain
import SchemaBindings.Text.Quoted

/-!
# Texts of a single line

A text that is put together from texts of a single line is one. Numbers are written in a single
line, and so is any text between quotes, since a line feed in it is escaped.
-/

namespace SchemaBindings.Text

/-- Whether a text has no line feed. -/
def SingleLine (text : String) : Prop :=
  '\n' ∉ text.toList

/-- Whether a text is a single line can be decided from its characters. -/
instance (text : String) : Decidable (SingleLine text) :=
  inferInstanceAs (Decidable ('\n' ∉ text.toList))

/-- Two parts make up a single line exactly if each of them is one. -/
theorem singleLine_append_iff (text other : String) :
    SingleLine (text ++ other) ↔ SingleLine text ∧ SingleLine other := by
  simp [SingleLine]

/-- A text of listed characters. -/
theorem singleLine_ofList_iff (text : List Char) :
    SingleLine (String.ofList text) ↔ '\n' ∉ text := by
  rw [SingleLine, String.toList_ofList]

/-- A text that is given by its characters is a single line if no line feed is among them. -/
theorem singleLine_literal {text : List Char} (h : '\n' ∉ text) : SingleLine (String.ofList text) :=
  (singleLine_ofList_iff text).mpr h

/-- Two single lines make up one. -/
theorem SingleLine.append {text other : String} (h : SingleLine text) (hother : SingleLine other) :
    SingleLine (text ++ other) :=
  (singleLine_append_iff text other).mpr ⟨h, hother⟩

/-- A single line between two texts that are given by their characters. -/
theorem SingleLine.between {before after : List Char} {text : String} (hbefore : '\n' ∉ before)
    (h : SingleLine text) (hafter : '\n' ∉ after) :
    SingleLine (String.ofList before ++ text ++ String.ofList after) :=
  ((singleLine_literal hbefore).append h).append (singleLine_literal hafter)

/-- Texts joined by a separator make up a single line if they and the separator do. -/
theorem singleLine_intercalate {separator : String} {texts : List String}
    (hseparator : SingleLine separator) (htexts : ∀ text ∈ texts, SingleLine text) :
    SingleLine (String.intercalate separator texts) := by
  induction texts with
  | nil => simp [SingleLine]
  | cons text others ih =>
    rw [List.forall_mem_cons] at htexts
    cases others with
    | nil => simpa using htexts.1
    | cons other others =>
      rw [String.intercalate_cons_cons, singleLine_append_iff, singleLine_append_iff]
      exact ⟨⟨htexts.1, hseparator⟩, ih htexts.2⟩

/-! ## Numbers -/

/-- No digit of the bases that numbers are written in is a line feed. -/
theorem digitChar_ne_lineFeed : ∀ d < 16, Nat.digitChar d ≠ '\n' := by
  decide

/-- Numbers are written with digits of their base. -/
theorem lineFeed_notMem_toDigits {base : Nat} (hbase : 1 < base) (hmost : base ≤ 16) (n : Nat) :
    '\n' ∉ Nat.toDigits base n := by
  induction n using Nat.strongRecOn with
  | _ n ih =>
    by_cases hn : n < base
    · rw [Nat.toDigits_of_lt_base hn, List.mem_singleton]
      exact (digitChar_ne_lineFeed n (by omega)).symm
    · have hlast := Nat.mod_lt n (Nat.lt_trans Nat.zero_lt_one hbase)
      rw [Nat.toDigits_of_base_le hbase (Nat.le_of_not_lt hn), List.mem_append,
        List.mem_singleton, not_or]
      exact ⟨ih (n / base) (Nat.div_lt_self (by omega) hbase),
        (digitChar_ne_lineFeed _ (by omega)).symm⟩

/-- A natural number is written in a single line. -/
theorem singleLine_nat (n : Nat) : SingleLine (toString n) := by
  rw [SingleLine, Nat.toString_eq_repr, Nat.toList_repr]
  exact lineFeed_notMem_toDigits (by decide) (by decide) n

/-- An integer is written in a single line. -/
theorem singleLine_int (n : Int) : SingleLine (toString n) := by
  cases n with
  | ofNat n => exact singleLine_nat n
  | negSucc n =>
    exact (singleLine_append_iff "-" (toString (n + 1))).mpr ⟨by decide, singleLine_nat (n + 1)⟩

open SchemaBindings.Number

/-- Digits with a point somewhere among or beside them. -/
theorem lineFeed_notMem_positional {digits : List Char} (h : '\n' ∉ digits) (exponent : Int) :
    '\n' ∉ positional digits exponent := by
  have htake : ∀ n, '\n' ∉ digits.take n := fun n hmem => h (List.mem_of_mem_take hmem)
  have hdrop : ∀ n, '\n' ∉ digits.drop n := fun n hmem => h (List.mem_of_mem_drop hmem)
  unfold positional
  dsimp only
  split
  · simp [h]
  · split
    · simp [htake, hdrop]
    · simp [h]

/-- Digits with a point behind the first and an exponent. -/
theorem lineFeed_notMem_scientific {digits : List Char} (h : '\n' ∉ digits) (leading : Int) :
    '\n' ∉ scientific digits leading := by
  have hleading : '\n' ∉ (toString leading).toList := singleLine_int leading
  unfold scientific
  split
  · next first second rest =>
    simp only [List.mem_cons, not_or] at h
    simpa [h] using hleading
  · simpa [h] using hleading

/-- A floating-point number is written in a single line. -/
theorem singleLine_binary64 (value : Binary64) : SingleLine value.text := by
  have hdecimal : ∀ decimal : Decimal, '\n' ∉ decimal.text := by
    intro decimal
    have hdigits := lineFeed_notMem_toDigits (by decide : 1 < 10) (by decide) decimal.strip.digits
    unfold Decimal.text
    dsimp only
    split
    · exact lineFeed_notMem_positional hdigits _
    · exact lineFeed_notMem_scientific hdigits _
  cases value with
  | nan => decide
  | infinite negative => cases negative <;> decide
  | finite negative mantissa exponent =>
    rw [Binary64.text, singleLine_ofList_iff]
    have hmagnitude : '\n' ∉
        (if mantissa = 0 then ['0', '.', '0'] else (shortest mantissa exponent).text) := by
      split
      · decide
      · exact hdecimal _
    split
    · simpa using hmagnitude
    · exact hmagnitude

/-! ## Quoted texts -/

/-- A line feed in a text is escaped between quotes. -/
theorem singleLine_quoted (text : String) : SingleLine (quoted text) := by
  have hescape : ∀ c, '\n' ∉ escapeVisible c := by
    intro c
    have hhex : '\n' ∉ hexDigits c.toNat := lineFeed_notMem_toDigits (by decide) (by decide) _
    unfold escapeVisible
    split
    · decide
    · decide
    · decide
    · decide
    · decide
    · decide
    · next hlineFeed _ _ _ =>
      split
      · simpa using fun h : '\n' = c => hlineFeed h.symm
      · simpa using hhex
  rw [quoted, singleLine_ofList_iff, quoteVisible]
  simp [hescape]

end SchemaBindings.Text
