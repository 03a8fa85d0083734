import Mathlib.Data.List.Forall2
import SchemaBindings.Proofs.Bindings.PythonLiterals
import SchemaBindings.Text.Quoted

/-!
# String literals of Rust

How Rust reads a string literal: a carriage return stands in front of a line feed only, where it
goes, and a backslash starts an escape, which has to be a valid one. Escapes name characters of
seven bits by two hexadecimal digits, and all characters by up to six in braces. A literal stands
for the code points of characters, and what is behind its closing quote is left for the rest of the
program.

Digits that a number is written with read back as that number, in the escapes of Rust and in those
of Python.
-/

namespace SchemaBindings.Bindings.RustLiteral

open SchemaBindings.Bindings.PythonLiteral (after digitValue? takeDigits valueOf)
open SchemaBindings.Text (hexDigits)

/-! ## Digits -/

/-- Whether digits are written in a base with given characters. -/
abbrev WrittenWith (base : Nat) : List Char → List Nat → Prop :=
  List.Forall₂ fun c digit => digitValue? base c = some digit

/-- One more digit makes a number that many times as large as the base says, and adds itself. -/
theorem valueOf_concat (base : Nat) (digits : List Nat) (digit : Nat) :
    valueOf base (digits ++ [digit]) = valueOf base digits * base + digit := by
  rw [valueOf, List.foldl_append]
  rfl

/-- The characters for digits stand for them. -/
theorem digitValue?_digitChar :
    ∀ digit < 16, digitValue? 16 (Nat.digitChar digit) = some digit := by
  decide

/-- A number is written with digits that stand for it. -/
theorem exists_writtenWith_hexDigits (n : Nat) :
    ∃ digits, WrittenWith 16 (hexDigits n) digits ∧ valueOf 16 digits = n := by
  induction n using Nat.strongRecOn with
  | _ n ih =>
    by_cases hn : n < 16
    · refine ⟨[n], ?_, by simp [valueOf]⟩
      rw [hexDigits, Nat.toDigits_of_lt_base hn]
      exact .cons (digitValue?_digitChar n hn) .nil
    · obtain ⟨digits, hwritten, hvalue⟩ := ih (n / 16) (by omega)
      refine ⟨digits ++ [n % 16], ?_, ?_⟩
      · rw [hexDigits, Nat.toDigits_of_base_le (by decide) (Nat.le_of_not_lt hn)]
        exact List.rel_append hwritten
          (.cons (digitValue?_digitChar _ (Nat.mod_lt n (by decide))) .nil)
      · rw [valueOf_concat, hvalue]
        omega

/-- A digit that stands in front of others counts for nothing if it is zero. -/
theorem valueOf_zero_cons (base : Nat) (digits : List Nat) :
    valueOf base (0 :: digits) = valueOf base digits := by
  simp [valueOf]

/-- Digits are taken whole if as many are asked for. -/
theorem takeDigits_of_writtenWith {base : Nat} {run : List Char} {digits : List Nat}
    (h : WrittenWith base run digits) (rest : List Char) :
    takeDigits base run.length (run ++ rest) = (digits, rest) := by
  induction h with
  | nil => rfl
  | cons hdigit _ ih => rw [List.length_cons, List.cons_append, takeDigits, hdigit, ih]

/-- Digits are read one by one. -/
theorem mapM_of_writtenWith {base : Nat} {run : List Char} {digits : List Nat}
    (h : WrittenWith base run digits) :
    run.mapM (digitValue? base) = some digits := by
  induction h with
  | nil => rfl
  | cons hdigit _ ih => rw [List.mapM_cons, hdigit, ih]; rfl

/-- A character that stands for no digit is none of those that digits are written with. -/
theorem notMem_of_writtenWith {base : Nat} {run : List Char} {digits : List Nat}
    (h : WrittenWith base run digits) {c : Char} (hc : digitValue? base c = none) : c ∉ run := by
  induction h with
  | nil => exact List.not_mem_nil
  | cons hdigit _ ih =>
    rw [List.mem_cons, not_or]
    refine ⟨?_, ih⟩
    rintro rfl
    rw [hc] at hdigit
    contradiction

/-! ## Escapes -/

/-- The characters that are an escape behind a backslash, and the code points that they stand
for. -/
def simpleEscapes : List (Char × Nat) :=
  [('\\', 92), ('\x27', 39), ('"', 34), ('n', 10), ('r', 13), ('t', 9), ('0', 0)]

/-- Reads a code of seven bits: two hexadecimal digits, the first of which is an octal one. -/
def readByte : List Char → Option (List Nat × List Char)
  | high :: low :: rest =>
    match digitValue? 8 high, digitValue? 16 low with
    | some high, some low => some ([16 * high + low], rest)
    | _, _ => none
  | _ => none

/-- Reads a code in braces: one to six hexadecimal digits of a character, with underscores anywhere
behind the first. -/
def readCode : List Char → Option (List Nat × List Char)
  | '\x7b' :: rest =>
    let body := rest.takeWhile (· ≠ '\x7d')
    match rest.dropWhile (· ≠ '\x7d'), (body.filter (· ≠ '_')).mapM (digitValue? 16) with
    | _ :: behind, some digits =>
      if body.head? ≠ some '_' ∧ digits ≠ [] ∧ digits.length ≤ 6 ∧
      (valueOf 16 digits).isValidChar then
        some ([valueOf 16 digits], behind)
      else none
    | _, _ => none
  | _ => none

/-- Reads an escape behind its backslash: the code points that it stands for, and the text behind
it. At the end of a line it stands for none and takes the blanks at the start of the lines that
follow. -/
def readEscape : List Char → Option (List Nat × List Char)
  | [] => none
  | c :: rest =>
    if c = '\n' then some ([], rest.dropWhile fun blank => blank ∈ [' ', '\n', '\r', '\t'])
    else if c = 'x' then readByte rest
    else if c = 'u' then readCode rest
    else (simpleEscapes.lookup c).map fun code => ([code], rest)

/-- What is left behind a code is the end of the text. -/
theorem readByte_suffix {text behind : List Char} {codes : List Nat}
    (h : readByte text = some (codes, behind)) :
    behind <:+ text := by
  unfold readByte at h
  split at h
  · next high low rest =>
    split at h
    · simp only [Option.some.injEq, Prod.mk.injEq] at h
      exact h.2 ▸ (List.suffix_cons low rest).trans (List.suffix_cons high _)
    · contradiction
  · contradiction

/-- What is left behind a code in braces is the end of the text. -/
theorem readCode_suffix {text behind : List Char} {codes : List Nat}
    (h : readCode text = some (codes, behind)) :
    behind <:+ text := by
  unfold readCode at h
  split at h
  · next rest =>
    dsimp only at h
    split at h
    · next closing left digits hclosing _ =>
      split at h
      · simp only [Option.some.injEq, Prod.mk.injEq] at h
        have hleft : closing :: left <:+ rest := hclosing ▸ List.dropWhile_suffix _
        exact h.2 ▸ ((List.suffix_cons closing left).trans hleft).trans (List.suffix_cons _ rest)
      · contradiction
    · contradiction
  · contradiction

/-- An escape is not empty. -/
theorem length_lt_of_readEscape {text behind : List Char} {codes : List Nat}
    (h : readEscape text = some (codes, behind)) : behind.length < text.length := by
  cases text with
  | nil => contradiction
  | cons c rest =>
    refine Nat.lt_succ_of_le (List.IsSuffix.length_le ?_)
    rw [readEscape] at h
    split at h
    · simp only [Option.some.injEq, Prod.mk.injEq] at h
      exact h.2 ▸ List.dropWhile_suffix _
    split at h
    · exact readByte_suffix h
    split at h
    · exact readCode_suffix h
    · obtain ⟨code, -, hcode⟩ := Option.map_eq_some_iff.mp h
      simp only [Prod.mk.injEq] at hcode
      exact hcode.2 ▸ List.suffix_refl rest

/-- A code in braces that has no more digits than a character takes is read. -/
theorem readCode_hexDigits (c : Char) (rest : List Char) :
    readCode ('\x7b' :: hexDigits c.toNat ++ '\x7d' :: rest) = some ([c.toNat], rest) := by
  obtain ⟨digits, hwritten, hvalue⟩ := exists_writtenWith_hexDigits c.toNat
  have hclosing : '\x7d' ∉ hexDigits c.toNat := notMem_of_writtenWith hwritten (by decide)
  have hunderscore : '_' ∉ hexDigits c.toNat := notMem_of_writtenWith hwritten (by decide)
  have hplain : ∀ other ∈ hexDigits c.toNat, (decide (other ≠ '\x7d')) = true := by
    intro other hother
    exact decide_eq_true fun h => hclosing (h ▸ hother)
  have htaken : (hexDigits c.toNat ++ '\x7d' :: rest).takeWhile (· ≠ '\x7d') =
      hexDigits c.toNat := by
    rw [List.takeWhile_append_of_pos hplain]
    simp
  have hleft : (hexDigits c.toNat ++ '\x7d' :: rest).dropWhile (· ≠ '\x7d') = '\x7d' :: rest := by
    rw [List.dropWhile_append_of_pos hplain]
    simp
  have hkept : (hexDigits c.toNat).filter (· ≠ '_') = hexDigits c.toNat := by
    refine List.filter_eq_self.mpr fun other hother => ?_
    exact decide_eq_true fun h => hunderscore (h ▸ hother)
  have hhead : (hexDigits c.toNat).head? ≠ some '_' :=
    fun h => hunderscore (List.mem_of_mem_head? h)
  have hlength : (hexDigits c.toNat).length = digits.length := hwritten.length_eq
  have hvalid : c.toNat.isValidChar := c.valid
  have hsome : digits ≠ [] := by
    rintro rfl
    have hpos : 0 < (hexDigits c.toNat).length := Nat.length_toDigits_pos
    simp [hlength] at hpos
  have hmost : digits.length ≤ 6 := by
    rw [← hlength, hexDigits, Nat.length_toDigits_le_iff (by decide) (by decide)]
    unfold Nat.isValidChar at hvalid
    omega
  rw [List.cons_append, readCode]
  simp only [htaken, hleft, hkept, mapM_of_writtenWith hwritten, hvalue]
  exact if_pos ⟨hhead, hsome, hmost, hvalid⟩

/-! ## Literals -/

/-- Reads a literal behind its opening quote: the code points that it stands for, and the text
behind its closing quote. -/
def readBody (text : List Char) : Option (List Nat × List Char) :=
  match text with
  | [] => none
  | '"' :: rest => some ([], rest)
  | '\r' :: '\n' :: rest => after [10] (readBody rest)
  | '\r' :: _ => none
  | '\\' :: rest =>
    match _hescape : readEscape rest with
    | none => none
    | some (codes, behind) => after codes (readBody behind)
  | c :: rest => after [c.toNat] (readBody rest)
termination_by text.length
decreasing_by
  · exact Nat.lt_succ_of_lt (Nat.lt_succ_self _)
  · exact Nat.lt_succ_of_lt (length_lt_of_readEscape _hescape)
  · exact Nat.lt_succ_self _

/-- Reads the source that a literal is at the start of. -/
def readString : List Char → Option (List Nat × List Char)
  | '"' :: rest => readBody rest
  | _ => none

/-- A quote closes a literal. -/
theorem readBody_quote (rest : List Char) : readBody ('"' :: rest) = some ([], rest) := by
  rw [readBody]

/-- Any other character stands for itself if it is neither a carriage return nor a backslash. -/
theorem readBody_plain {c : Char} (hc : c ∉ ['"', '\\', '\n', '\r']) (rest : List Char) :
    readBody (c :: rest) = after [c.toNat] (readBody rest) := by
  simp only [List.mem_cons, List.not_mem_nil, or_false, not_or] at hc
  obtain ⟨hquote, hbackslash, -, hreturn⟩ := hc
  rw [readBody]
  · exact hquote
  · rintro other rfl -
    exact hreturn rfl
  · exact hreturn
  · exact hbackslash

/-- An escape stands for what it is read as. -/
theorem readBody_escape {text behind : List Char} {codes : List Nat}
    (h : readEscape text = some (codes, behind)) :
    readBody ('\\' :: text) = after codes (readBody behind) := by
  rw [readBody]
  split
  · next hnone => rw [h] at hnone; contradiction
  · next others left hsome =>
    rw [h, Option.some.injEq, Prod.mk.injEq] at hsome
    rw [hsome.1, hsome.2]

end SchemaBindings.Bindings.RustLiteral
