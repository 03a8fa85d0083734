/-!
# Patterns

A pattern is made of characters and wildcards. A question mark stands for one character, a star for
any run of characters, and brackets for one character within, or outside of, some ranges. Two stars
stand for any number of directories; they have to be a whole piece of a path.
-/

namespace SchemaBindings.Glob

/-- Why a text is no pattern. -/
inductive PatternFault where
  | tooManyStars
  | starsInPiece
  | openRange
deriving DecidableEq

/-- How a fault is described. -/
def PatternFault.message : PatternFault → String
  | .tooManyStars => "wildcards are either regular `*` or recursive `**`"
  | .starsInPiece => "recursive wildcards must form a single path component"
  | .openRange => "invalid range pattern"

/-- The characters from one to another. -/
structure Range where
  low : Char
  high : Char
deriving DecidableEq

/-- Whether a character is in a range. -/
def Range.contains (range : Range) (c : Char) : Bool :=
  range.low ≤ c && c ≤ range.high

/-- What a pattern asks for in one place. -/
inductive Token where
  | char (c : Char)
  | anyChar
  | anyRun
  | anyDepth
  | within (ranges : List Range)
  | outside (ranges : List Range)
deriving DecidableEq

/-- The ranges between brackets. A hyphen between two characters makes a range. -/
def ranges : List Char → List Range
  | low :: '-' :: high :: rest => ⟨low, high⟩ :: ranges rest
  | c :: rest => ⟨c, c⟩ :: ranges rest
  | [] => []

/-- Reads ranges up to the bracket that ends them. The first character is part of them, whatever it
is. -/
def readRanges : List Char → Option (List Range × List Char)
  | [] => none
  | first :: more =>
    match more.dropWhile (· ≠ ']') with
    | [] => none
    | _ :: rest => some (ranges (first :: more.takeWhile (· ≠ ']')), rest)

/-- Reads what follows an opening bracket. -/
def readClass : List Char → Option (Token × List Char)
  | '!' :: rest => (readRanges rest).map fun read => (.outside read.1, read.2)
  | rest => (readRanges rest).map fun read => (.within read.1, read.2)

/-- What is left behind the ranges of a class is shorter than the text in front of them. -/
theorem readRanges_length {chars rest : List Char} {ranges : List Range}
    (h : readRanges chars = some (ranges, rest)) : rest.length < chars.length := by
  cases chars with
  | nil => simp [readRanges] at h
  | cons first more =>
    have hshorter := (@List.dropWhile_suffix _ more (· ≠ ']')).length_le
    simp only [readRanges] at h
    split at h
    · contradiction
    · next hfound =>
      obtain ⟨-, rfl⟩ := Prod.mk.inj (Option.some.inj h)
      rw [hfound, List.length_cons] at hshorter
      rw [List.length_cons]
      omega

/-- What is left behind a class is shorter than the text in front of it. -/
theorem readClass_length {chars rest : List Char} {token : Token}
    (h : readClass chars = some (token, rest)) : rest.length < chars.length := by
  unfold readClass at h
  split at h
  · obtain ⟨⟨ranges, left⟩, hread, hsame⟩ := Option.map_eq_some_iff.mp h
    obtain ⟨-, rfl⟩ := Prod.mk.inj hsame
    exact Nat.lt_succ_of_lt (readRanges_length hread)
  · obtain ⟨⟨ranges, left⟩, hread, hsame⟩ := Option.map_eq_some_iff.mp h
    obtain ⟨-, rfl⟩ := Prod.mk.inj hsame
    exact readRanges_length hread

/-- Reads a pattern; the flag says whether a piece of a path starts here. -/
def readTokens (pieceStarts : Bool) (chars : List Char) : Except PatternFault (List Token) :=
  match chars with
  | [] => .ok []
  | '?' :: rest => (readTokens false rest).map (.anyChar :: ·)
  | '*' :: '*' :: '*' :: _ => .error .tooManyStars
  | '*' :: '*' :: rest =>
    if pieceStarts then
      match rest with
      | [] => .ok [.anyDepth]
      | '/' :: rest => (readTokens true rest).map (.anyDepth :: ·)
      | _ :: _ => .error .starsInPiece
    else .error .starsInPiece
  | '*' :: rest => (readTokens false rest).map (.anyRun :: ·)
  | '[' :: rest =>
    match h : readClass rest with
    | none => .error .openRange
    | some (token, left) =>
      have := readClass_length h
      (readTokens false left).map (token :: ·)
  | c :: rest => (readTokens (c = '/') rest).map (.char c :: ·)
termination_by chars.length

/-- Whether a token stands for a character. -/
def Token.accepts : Token → Char → Bool
  | .char c, d => c = d
  | .anyChar, _ => true
  | .anyRun, _ => true
  | .anyDepth, _ => true
  | .within ranges, c => ranges.any fun range => range.contains c
  | .outside ranges, c => !ranges.any fun range => range.contains c

/-- Whether a name fits a pattern. -/
def fits : List Token → List Char → Bool
  | [], text => text.isEmpty
  | .anyRun :: tokens, [] => fits tokens []
  | .anyRun :: tokens, c :: text => fits tokens (c :: text) || fits (.anyRun :: tokens) text
  | _ :: _, [] => false
  | token :: tokens, c :: text => token.accepts c && fits tokens text
termination_by tokens text => tokens.length + text.length

/-- A text as a pattern that only this text fits. -/
def escape (text : List Char) : List Char :=
  text.flatMap fun c => if c ∈ ['?', '*', '[', ']'] then ['[', c, ']'] else [c]

end SchemaBindings.Glob
