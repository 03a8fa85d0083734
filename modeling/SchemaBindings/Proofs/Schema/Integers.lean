import Mathlib.Data.Nat.Digits.Defs
import SchemaBindings.Proofs.Schema.Covering

/-!
# Integer literals of any length

Where the lexer starts a token, it takes a sign and all digits behind it as one literal. The number
is exact, however many digits there are: it is a token if it fits 64 bits, and otherwise one error
at the first character. In both cases lexing goes on behind the last digit, so no part of a literal
that is too large is read again.
-/

namespace SchemaBindings.Schema

open SchemaBindings.Number (valueOfDigits)
open SchemaBindings.Text (Position isBlank)

/-! ## Exact values -/

/-- The number that a decimal digit stands for. -/
def digitValue (c : Char) : Nat :=
  c.toNat - '0'.toNat

/-- The integer that a sign and decimal digits stand for: the sum of the digits times the powers of
ten. -/
def exactInteger (negative : Bool) (digits : List Char) : Int :=
  let size : Nat := Nat.ofDigits 10 (digits.reverse.map digitValue)
  if negative then -(size : Int) else size

/-- Digits read from the left have the value that their places give them. -/
theorem valueOfDigits_eq_ofDigits (digits : List Char) :
    valueOfDigits digits = Nat.ofDigits 10 (digits.reverse.map digitValue) := by
  induction digits using List.reverseRecOn with
  | nil => rfl
  | append_singleton digits c ih =>
    have hlast : valueOfDigits (digits ++ [c]) = 10 * valueOfDigits digits + digitValue c :=
      List.foldl_append
    rw [hlast, ih, List.reverse_append, List.reverse_singleton, List.singleton_append,
      List.map_cons, Nat.ofDigits_cons, Nat.add_comm]

/-- The integer that is read from digits is the exact one, if it is in range. -/
theorem integerOf_eq_exactInteger (negative : Bool) (digits : List Char) :
    integerOf negative digits = exactInteger negative digits := by
  rw [integerOf, exactInteger, valueOfDigits_eq_ofDigits]

/-- The range of 64 bits has one more number below zero than above. -/
theorem fitsInt64_iff (value : Int) :
    fitsInt64 value = true ↔ -2 ^ 63 ≤ value ∧ value < 2 ^ 63 := by
  simp only [fitsInt64, Bool.and_eq_true, decide_eq_true_eq]
  rfl

/-- A literal with or without a sign is read up to its last digit, whether its number fits or
not. -/
theorem readToken_integer {digits behind : List Char} (hdigits : IsDigits digits)
    (hends : Avoids Char.isDigit behind)
    (hpoint : ∀ c rest, behind = '.' :: c :: rest → c.isDigit = false) (negative : Bool) :
    ∃ first taken, signed negative digits = first :: taken ∧
      readToken first (taken ++ behind) = ⟨taken, integerToken negative digits, behind⟩ := by
  have hread := readNumber_integer hdigits hends hpoint negative
  obtain ⟨digit, text, rfl⟩ := List.exists_cons_of_ne_nil hdigits.1
  obtain ⟨first, taken, hsigned, -, -, htoken⟩ :=
    readToken_signed negative (hdigits.2 digit List.mem_cons_self) hread
  exact ⟨first, taken, hsigned, htoken⟩

/-! ## Where a token starts -/

/-- Whether the lexer starts a token or an error behind the front of a source. -/
def StartsAt (source front : List Char) : Prop :=
  Position.ofOffset front ∈ (lex source).items.map Located.position

/-- The lexer starts behind the trivia at the start of a source, unless the source ends there. -/
theorem startsAt_of_splitTrivia {source rest : List Char} {first : Char}
    (h : (splitTrivia false source).2 = first :: rest) :
    StartsAt source (splitTrivia false source).1 := by
  have hitems : (lex source).items = itemsFrom .start source := rfl
  rw [StartsAt, hitems, itemsFrom_of_cons h, Position.afterText_start]
  exact List.mem_cons_self

/-- The items of a text fall apart at each of them: it is read behind a front of the text, and those
behind it are read from what it leaves. -/
theorem itemsFrom_split {position : Position} {text : List Char}
    {item : Located (Except LexicalFault Token)} (h : item ∈ itemsFrom position text) :
    ∃ earlier front first rest, text = front ++ first :: rest ∧
      item = ⟨position.afterText front, (readToken first rest).value⟩ ∧
      itemsFrom position text = earlier ++ item ::
        itemsFrom (position.afterText (front ++ first :: (readToken first rest).taken))
          (readToken first rest).rest := by
  induction text using pieces.induct generalizing position with
  | case1 text hvisible =>
    rw [itemsFrom_of_trivia hvisible] at h
    contradiction
  | case2 text first rest hvisible =>
    rename_i ih
    have hsplit := splitTrivia_append false text
    rw [hvisible] at hsplit
    rw [itemsFrom_of_cons hvisible] at h ⊢
    rcases List.mem_cons.mp h with rfl | hlater
    · exact ⟨[], _, first, rest, hsplit.symm, rfl, rfl⟩
    · have hread := readToken_append first rest
      obtain ⟨earlier, front, start, others, hleft, heq, hitems⟩ := ih hlater
      rw [hitems, heq, ← List.cons_append, ← Position.afterText_append,
        ← Position.afterText_append, ← List.append_assoc]
      refine ⟨_, (splitTrivia false text).1 ++ first :: (readToken first rest).taken ++ front,
        start, others, ?_, rfl, rfl⟩
      rw [List.append_assoc, ← hleft, List.append_assoc, List.cons_append, hread, hsplit]

/-- Where the lexer starts, one item is read, and the others stand in front of it or are read from
what it leaves. -/
theorem items_of_startsAt {front rest : List Char} {first : Char}
    (h : StartsAt (front ++ first :: rest) front) :
    ∃ earlier, (lex (front ++ first :: rest)).items =
      earlier ++ ⟨.ofOffset front, (readToken first rest).value⟩ ::
        itemsFrom (.ofOffset (front ++ first :: (readToken first rest).taken))
          (readToken first rest).rest ∧
      ∀ item ∈ earlier, item.position.before (.ofOffset front) = true := by
  have hordered := (covers_itemsFrom [] (front ++ first :: rest)).increasing.1
  obtain ⟨item, hitem, hplace⟩ := List.mem_map.mp h
  obtain ⟨earlier, before, start, others, htext, rfl, hitems⟩ := itemsFrom_split hitem
  rw [← Position.afterText_start front] at hplace
  obtain ⟨rfl, hbehind⟩ := Position.append_inj_of_afterText htext hplace.symm
  obtain ⟨rfl, rfl⟩ := List.cons.inj hbehind
  rw [Position.afterText_start, Position.afterText_start] at hitems
  refine ⟨earlier, hitems, fun item hitem => ?_⟩
  have hparts : itemsFrom (.ofOffset []) (front ++ first :: rest) = _ := hitems
  rw [hparts, List.map_append, List.append_assoc] at hordered
  exact (List.pairwise_append.mp hordered).2.2 item.position (List.mem_map_of_mem hitem)
    _ List.mem_cons_self

/-! ## The items of a literal -/

/-- For all sources and every place where the lexer starts a token, if a sign and digits stand
there, followed by the end or by no digit and no point, they are one item at their first character.
It is the token of their exact value if that fits 64 bits, and otherwise one error that shows them.
The items in front are placed in front, and all others are read from behind the last digit. -/
theorem items_of_integer_literal (front back : List Char) (negative : Bool) {digits : List Char}
    (hdigits : IsDigits digits) (hback : Avoids (fun c => c.isDigit || c == '.') back)
    (hstart : StartsAt (front ++ (signed negative digits ++ back)) front) :
    ∃ earlier content,
      (lex (front ++ (signed negative digits ++ back))).items =
        earlier ++ ⟨.ofOffset front, content⟩ ::
          itemsFrom (.ofOffset (front ++ signed negative digits)) back ∧
      (∀ item ∈ earlier, item.position.before (.ofOffset front) = true) ∧
      (-2 ^ 63 ≤ exactInteger negative digits ∧ exactInteger negative digits < 2 ^ 63 →
        content = .ok (.integer (exactInteger negative digits))) ∧
      (¬ (-2 ^ 63 ≤ exactInteger negative digits ∧ exactInteger negative digits < 2 ^ 63) →
        content = .error (.integerTooLarge (signed negative digits))) := by
  have hends : Avoids Char.isDigit back := fun c hc => (Bool.or_eq_false_iff.mp (hback c hc)).1
  have hpoint : ∀ c rest, back = '.' :: c :: rest → c.isDigit = false := by
    rintro c rest rfl
    have hdot := (Bool.or_eq_false_iff.mp (hback '.' rfl)).2
    contradiction
  obtain ⟨first, taken, hsigned, hread⟩ := readToken_integer hdigits hends hpoint negative
  rw [hsigned, List.cons_append] at hstart ⊢
  obtain ⟨earlier, hitems, hbefore⟩ := items_of_startsAt hstart
  rw [hread] at hitems
  refine ⟨earlier, integerToken negative digits, hitems, hbefore, ?_, ?_⟩
  · intro hfits
    rw [← integerOf_eq_exactInteger] at hfits ⊢
    rw [integerToken, if_pos ((fitsInt64_iff _).mpr hfits)]
  · intro hlarge
    rw [← integerOf_eq_exactInteger] at hlarge
    rw [integerToken, if_neg (mt (fitsInt64_iff _).mp hlarge), ← hsigned]
    rfl

/-- An integer below the least one is an error behind the blanks in front of it, and the semicolon
behind it is read. -/
theorem items_of_integer_below_least :
    StartsAt "  -09223372036854775809;".toList [' ', ' '] ∧
      ∃ earlier, (lex "  -09223372036854775809;".toList).items =
        earlier ++ [⟨⟨1, 3⟩, .error (.integerTooLarge "-09223372036854775809".toList)⟩,
          ⟨⟨1, 24⟩, .ok (.symbol .semicolon)⟩] := by
  have hstart : StartsAt "  -09223372036854775809;".toList [' ', ' '] :=
    @startsAt_of_splitTrivia _ "09223372036854775809;".toList '-' (by rfl)
  have hback : Avoids (fun c => c.isDigit || c == '.') [';'] := by
    rintro c ⟨⟩
    rfl
  obtain ⟨earlier, content, hitems, -, -, hlarge⟩ :=
    @items_of_integer_literal [' ', ' '] [';'] true "09223372036854775809".toList
    (by decide) hback hstart
  have hnext : itemsFrom ⟨1, 24⟩ [';'] = [⟨⟨1, 24⟩, .ok (.symbol .semicolon)⟩] := by
    have hvisible : (splitTrivia false [';']).2 = [';'] := rfl
    rw [itemsFrom_of_cons hvisible]
    exact congrArg _ (itemsFrom_of_trivia rfl)
  refine ⟨hstart, earlier, ?_⟩
  rw [hlarge (by decide)] at hitems
  exact hitems.trans (congrArg (fun others => earlier ++ _ :: others) hnext)

end SchemaBindings.Schema
