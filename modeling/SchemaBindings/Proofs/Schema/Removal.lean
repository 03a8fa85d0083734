import SchemaBindings.Proofs.Schema.Delimiters
import SchemaBindings.Proofs.Schema.FaultOrder
import SchemaBindings.Proofs.Schema.Identifiers

/-!
# A closing brace taken out of a text

A token is read in the same way in front of every text that does not continue it, and two slashes
start a comment or not whatever follows a token. So if a closing brace is taken out of a text, and
what was behind it does not continue the token in front of it, the other tokens stay as they were,
and those behind it on its line move up by one column.
-/

namespace SchemaBindings

namespace Text

/-- Behind two texts is behind the second one, from behind the first one. -/
theorem Position.afterText_append (position : Position) (text behind : List Char) :
    position.afterText (text ++ behind) = (position.afterText text).afterText behind :=
  List.foldl_append

/-- A character leads to a later place. -/
theorem Position.before_afterText_cons (position : Position) (c : Char) (text : List Char) :
    position.before (position.afterText (c :: text)) = true := by
  have hnext : position.before (position.after c) = true := by
    rw [before_iff, after]
    split
    · exact .inl (Nat.lt_succ_self _)
    · exact .inr ⟨rfl, Nat.lt_succ_self _⟩
  exact before_of_before_of_upTo hnext ((position.after c).upTo_afterText text)

/-- Of two ways to cut a text, the places behind the fronts tell which is which. -/
theorem Position.append_inj_of_afterText {position : Position} {front other behind rest : List Char}
    (h : front ++ behind = other ++ rest)
    (hplace : position.afterText front = position.afterText other) :
    front = other ∧ behind = rest := by
  have hsame : ∀ (text mid : List Char), position.afterText text =
      position.afterText (text ++ mid) → mid = [] := by
    intro text mid hmid
    cases mid with
    | nil => rfl
    | cons c mid =>
      have hlater := (position.afterText text).before_afterText_cons c mid
      rw [← afterText_append, ← hmid] at hlater
      have hself := (position.afterText text).upTo_refl
      rw [upTo, hlater] at hself
      contradiction
  rcases List.append_eq_append_iff.mp h with ⟨mid, rfl, rfl⟩ | ⟨mid, rfl, rfl⟩
  · obtain rfl := hsame _ _ hplace
    simp
  · obtain rfl := hsame _ _ hplace.symm
    simp

/-- Where a place is once the character at a gap is taken out: what is behind it on its line moves
up. -/
def Position.closeUp (gap place : Position) : Position :=
  if place.line = gap.line ∧ gap.column < place.column then ⟨place.line, place.column - 1⟩
    else place

/-- Behind a gap, places move up alike. -/
theorem Position.closeUp_after {gap place : Position} (h : gap.before place = true) (c : Char) :
    gap.closeUp (place.after c) = (gap.closeUp place).after c := by
  rw [before_iff] at h
  unfold closeUp after
  obtain ⟨line, column⟩ := place
  dsimp only at h ⊢
  by_cases hfeed : c = '\n'
  · rw [if_pos hfeed, if_pos hfeed]
    dsimp only
    rw [if_neg (by omega)]
    split <;> rfl
  · rw [if_neg hfeed, if_neg hfeed]
    by_cases hline : line = gap.line
    · have hcolumn : gap.column < column := by omega
      rw [if_pos ⟨hline, Nat.lt_succ_of_lt hcolumn⟩, if_pos ⟨hline, hcolumn⟩]
      simp only [Position.mk.injEq, true_and]
      omega
    · rw [if_neg fun h => hline h.1, if_neg fun h => hline h.1]

/-- What is behind a gap stays so with a text in between. -/
theorem Position.before_afterText {gap place : Position} (h : gap.before place = true)
    (text : List Char) :
    gap.before (place.afterText text) = true :=
  before_of_before_of_upTo h (place.upTo_afterText text)

/-- Behind a gap, closing it up and moving behind a text can be done in either order. -/
theorem Position.closeUp_afterText {gap place : Position} (h : gap.before place = true)
    (text : List Char) :
    gap.closeUp (place.afterText text) = (gap.closeUp place).afterText text := by
  induction text generalizing place with
  | nil => rfl
  | cons c text ih =>
    have hnext : gap.before (place.after c) = true := before_afterText h [c]
    exact (ih hnext).trans
      (congrArg (fun next : Position => next.afterText text) (closeUp_after h c))

/-- The place behind a gap on its line becomes that of the gap. -/
theorem Position.closeUp_gap (gap : Position) {c : Char} (h : c ≠ '\n') :
    gap.closeUp (gap.after c) = gap := by
  rw [after, if_neg h, closeUp, if_pos ⟨rfl, Nat.lt_succ_self _⟩]
  rfl

end Text

namespace Schema

open SchemaBindings.Text (Position isBlank)

/-! ## Tokens and what follows them -/

/-- Whether a text does not continue the token in front of it. A doc comment goes on to the end of
its line. -/
def Stops : Token → List Char → Prop
  | .doc _, behind => Avoids (· ≠ '\n') behind
  | token, behind => Ends token behind

/-- What is dropped ends at a character of another kind. -/
theorem avoids_dropWhile (p : Char → Bool) (text : List Char) : Avoids p (text.dropWhile p) := by
  intro c hc
  have hhead := List.head?_dropWhile_not p text
  rw [Option.mem_def.mp hc] at hhead
  simpa using hhead

/-- A text literal is read up to its closing quote, whatever follows. -/
theorem readText_append_taken {text content : List Char} (h : (readText text).value = .ok content)
    (behind : List Char) :
    readText ((readText text).taken ++ behind) = ⟨(readText text).taken, .ok content, behind⟩ := by
  fun_induction readText text generalizing content with
  | case1 => contradiction
  | case2 rest =>
    obtain rfl : [] = content := Except.ok.inj h
    rfl
  | case3 => contradiction
  | case4 => contradiction
  | case5 => contradiction
  | case6 c rest plain hescape tail =>
    rename_i ih
    cases hvalue : tail.value with
    | error fault => simp [hvalue, Except.map] at h
    | ok others =>
      obtain rfl : plain :: others = content := by simpa [hvalue, Except.map] using h
      simp [readText, hescape, ih hvalue, Except.map, tail]
  | case7 c rest hquote hfeed hlast hescape tail =>
    rename_i ih
    cases hvalue : tail.value with
    | error fault => simp [hvalue, Except.map] at h
    | ok others =>
      obtain rfl : c :: others = content := by simpa [hvalue, Except.map] using h
      have hplain : c ≠ '\\' := by
        intro hslash
        cases rest with
        | nil => exact hlast hslash rfl
        | cons next rest => exact hescape next rest hslash rfl
      rw [List.cons_append, readText]
      · simp [ih hvalue, Except.map, tail]
      · exact hquote
      · exact hfeed
      · exact fun h _ => hplain h
      · exact fun _ _ h _ => hplain h

/-- A number is read up to a text that does not continue it, and in the same way in front of every
such text. -/
theorem readNumber_append_taken {text : List Char} {negative : Bool} {token : Token}
    (hstart : startsWithDigit text = true) (h : (readNumber negative text).value = .ok token) :
    Stops token (readNumber negative text).rest ∧ ∀ behind, Stops token behind →
      readNumber negative ((readNumber negative text).taken ++ behind) =
        ⟨(readNumber negative text).taken, .ok token, behind⟩ := by
  have hwhole : IsDigits (text.takeWhile Char.isDigit) := by
    refine ⟨?_, fun c hc => List.mem_takeWhile_imp hc⟩
    cases text with
    | nil => contradiction
    | cons c rest =>
      have hdigit : c.isDigit = true := hstart
      simp [hdigit]
  by_cases hpoint : ∃ d rest, text.dropWhile Char.isDigit = '.' :: d :: rest ∧ d.isDigit = true
  · obtain ⟨d, rest, hdrop, hdigit⟩ := hpoint
    have hfraction : IsDigits ((d :: rest).takeWhile Char.isDigit) :=
      ⟨by simp [hdigit], fun c hc => List.mem_takeWhile_imp hc⟩
    have hread : readNumber negative text =
        ⟨text.takeWhile Char.isDigit ++ '.' :: (d :: rest).takeWhile Char.isDigit,
          .ok (floatToken negative (text.takeWhile Char.isDigit)
            ((d :: rest).takeWhile Char.isDigit)),
          (d :: rest).dropWhile Char.isDigit⟩ := by
      unfold readNumber
      rw [hdrop]
      exact if_pos hdigit
    rw [hread] at h ⊢
    obtain rfl := Except.ok.inj h
    refine ⟨avoids_dropWhile Char.isDigit (d :: rest), fun behind hends => ?_⟩
    have hagain := readNumber_float hwhole hfraction hends negative
    rwa [← List.cons_append, ← List.append_assoc] at hagain
  · have hread : readNumber negative text =
        ⟨text.takeWhile Char.isDigit, integerToken negative (text.takeWhile Char.isDigit),
          text.dropWhile Char.isDigit⟩ := by
      unfold readNumber
      split
      · next d rest hdrop =>
        rw [hdrop]
        exact if_neg fun hdigit => hpoint ⟨d, rest, hdrop, hdigit⟩
      · rfl
    rw [hread] at h ⊢
    have htoken : .integer (integerOf negative (text.takeWhile Char.isDigit)) = token := by
      simp only [integerToken] at h
      split at h
      · exact Except.ok.inj h
      · contradiction
    subst htoken
    refine ⟨⟨avoids_dropWhile Char.isDigit text, fun c rest hdrop => ?_⟩, fun behind hends => ?_⟩
    · exact Bool.eq_false_iff.mpr fun hdigit => hpoint ⟨c, rest, hdrop, hdigit⟩
    · rw [readNumber_integer hwhole hends.1 hends.2 negative]
      exact congrArg (Reading.mk _ · _) h

/-- A run of characters of a kind ends where it did in front of every text that avoids them. -/
theorem readWhile_append_taken {p : Char → Bool} {text behind : List Char} (h : Avoids p behind) :
    readWhile p ((readWhile p text).taken ++ behind) =
      { readWhile p text with rest := behind } := by
  have hrun : ∀ c ∈ text.takeWhile p, p c = true := fun c hc => List.mem_takeWhile_imp hc
  simp only [readWhile, takeWhile_append_of_avoids hrun h, dropWhile_append_of_avoids hrun h]

/-- A token is read up to a text that does not continue it, and in the same way in front of every
such text. -/
theorem readToken_append_taken {first : Char} {rest : List Char} {token : Token}
    (h : (readToken first rest).value = .ok token) :
    Stops token (readToken first rest).rest ∧ ∀ behind, Stops token behind →
      readToken first ((readToken first rest).taken ++ behind) =
        ⟨(readToken first rest).taken, .ok token, behind⟩ := by
  unfold readToken at h ⊢
  cases hmark : Symbol.ofChar? first with
  | some mark =>
    simp only [hmark] at h ⊢
    obtain rfl := Except.ok.inj h
    exact ⟨trivial, fun behind _ => rfl⟩
  | none =>
    simp only [hmark] at h ⊢
    by_cases hquote : first = '"'
    · simp only [if_pos hquote] at h ⊢
      cases hvalue : (readText rest).value with
      | error fault => simp [hvalue, Except.map] at h
      | ok content =>
        obtain rfl : Token.text (String.ofList content) = token := by
          simpa [hvalue, Except.map] using h
        refine ⟨trivial, fun behind _ => ?_⟩
        rw [readText_append_taken hvalue]
        rfl
    simp only [if_neg hquote] at h ⊢
    by_cases hdoc : first = '/' ∧ rest.head? = some '/'
    · simp only [if_pos hdoc] at h ⊢
      obtain rfl := Except.ok.inj h
      refine ⟨avoids_dropWhile _ rest, fun behind hends => ?_⟩
      obtain ⟨rest, rfl⟩ := List.head?_eq_some_iff.mp hdoc.2
      have hread := @readWhile_append_taken _ ('/' :: rest) _ hends
      rw [if_pos ⟨hdoc.1, rfl⟩, readDoc, readDoc]
      simp only [hread]
    simp only [if_neg hdoc] at h ⊢
    by_cases hminus : first = '-' ∧ startsWithDigit rest = true
    · simp only [if_pos hminus] at h ⊢
      obtain ⟨hends, hread⟩ := readNumber_append_taken hminus.2 h
      refine ⟨hends, fun behind hbehind => ?_⟩
      obtain ⟨digit, others, rfl, hdigit⟩ : ∃ digit others, rest = digit :: others ∧
        digit.isDigit = true := by
        cases rest with
        | nil => exact absurd hminus.2 Bool.false_ne_true
        | cons digit others => exact ⟨digit, others, rfl, hminus.2⟩
      have htaken := readNumber_taken_cons true digit others hdigit
      rw [if_neg (by simp [hminus.1]), if_pos ⟨hminus.1, by rw [htaken]; exact hdigit⟩]
      exact hread behind hbehind
    simp only [if_neg hminus] at h ⊢
    by_cases hdigit : first.isDigit = true
    · simp only [if_pos hdigit] at h ⊢
      obtain ⟨hends, hread⟩ := @readNumber_append_taken (first :: rest) _ _ hdigit h
      refine ⟨hends, fun behind hbehind => ?_⟩
      have hagain := hread behind hbehind
      have htaken := readNumber_taken_cons false first rest hdigit
      rw [htaken, List.cons_append] at hagain
      rw [if_neg (by rintro ⟨rfl, -⟩; simp at hdigit), if_neg (by rintro ⟨rfl, -⟩; simp at hdigit),
        hagain]
      rfl
    simp only [if_neg hdigit] at h ⊢
    by_cases hname : isNameStart first = true
    · simp only [if_pos hname] at h ⊢
      obtain rfl := Except.ok.inj h
      refine ⟨avoids_dropWhile _ rest, fun behind hends => ?_⟩
      have hslash : first ≠ '/' := ne_of_apply_ne isNameStart (by rw [hname]; decide)
      have hsign : first ≠ '-' := ne_of_apply_ne isNameStart (by rw [hname]; decide)
      have hread := @readWhile_append_taken _ rest _ hends
      rw [if_neg fun h => hslash h.1, if_neg fun h => hsign h.1]
      simp only [hread]
    · simp only [if_neg hname] at h
      contradiction

/-! ## Trivia in front of tokens -/

/-- A plain comment starts with two slashes. -/
theorem slashes_of_startsPlainComment {c : Char} {text : List Char}
    (h : startsPlainComment (c :: text) = true) :
    ∃ body, c = '/' ∧ text = '/' :: body := by
  unfold startsPlainComment at h
  split at h
  · next heq => exact ⟨_, (List.cons.inj heq).1, (List.cons.inj heq).2⟩
  · contradiction
  · next heq => exact ⟨_, (List.cons.inj heq).1, (List.cons.inj heq).2⟩
  · contradiction

/-- A plain comment is one without what is behind its line. -/
theorem startsPlainComment_of_append {body text : List Char}
    (h : startsPlainComment ('/' :: '/' :: (body ++ '\n' :: text)) = true) :
    startsPlainComment ('/' :: '/' :: body) = true := by
  rw [startsPlainComment_slashes_iff] at h ⊢
  rintro rest rfl
  have hhead := h (rest ++ '\n' :: text) rfl
  cases rest with
  | nil => simp at hhead
  | cons c rest => exact hhead

/-- What is skipped in front of a token is trivia, and inside a comment the rest of its line and
trivia. -/
theorem trivia_of_splitTrivia {inComment : Bool} {text rest : List Char} {first : Char}
    (h : (splitTrivia inComment text).2 = first :: rest) :
    if inComment then
      ∃ body trivia, (splitTrivia inComment text).1 = body ++ '\n' :: trivia ∧
        '\n' ∉ body ∧ Trivia trivia
    else Trivia (splitTrivia inComment text).1 := by
  induction text generalizing inComment with
  | nil => simp [splitTrivia] at h
  | cons c text ih =>
    cases inComment with
    | true =>
      rw [if_pos rfl]
      simp only [splitTrivia] at h ⊢
      by_cases hfeed : c = '\n'
      · have htrivia := ih h
        simp only [hfeed, ne_eq, not_true_eq_false, decide_false, Bool.false_eq_true,
          if_false] at htrivia ⊢
        exact ⟨[], _, rfl, List.not_mem_nil, htrivia⟩
      · have hcomment := ih h
        simp only [hfeed, ne_eq, not_false_eq_true, decide_true, if_true] at hcomment ⊢
        obtain ⟨body, trivia, heq, hbody, htrivia⟩ := hcomment
        refine ⟨c :: body, trivia, congrArg _ heq, ?_, htrivia⟩
        rw [List.mem_cons, not_or]
        exact ⟨Ne.symm hfeed, hbody⟩
    | false =>
      rw [if_neg Bool.false_ne_true]
      simp only [splitTrivia] at h ⊢
      split at h
      · next hblank =>
        rw [if_pos hblank]
        exact .blank hblank (ih h)
      · next hblank =>
        rw [if_neg hblank]
        split at h
        · next hplain =>
          rw [if_pos hplain]
          obtain ⟨body, trivia, heq, hbody, htrivia⟩ := ih h
          obtain ⟨text, rfl, rfl⟩ := slashes_of_startsPlainComment hplain
          have hsplit := splitTrivia_append true ('/' :: text)
          rw [heq, List.append_assoc, List.cons_append] at hsplit
          cases body with
          | nil => simp at hsplit
          | cons second body =>
            obtain ⟨rfl, htext⟩ := List.cons.inj hsplit
            rw [← htext] at hplain
            rw [heq]
            rw [List.mem_cons, not_or] at hbody
            exact .comment (startsPlainComment_of_append hplain) hbody.2 htrivia
        · next hplain =>
          rw [if_neg hplain]
          exact .nil

/-- No comment starts at a token. -/
theorem startsPlainComment_of_splitTrivia {inComment : Bool} {text rest : List Char} {first : Char}
    (h : (splitTrivia inComment text).2 = first :: rest) :
    startsPlainComment (first :: rest) = false := by
  induction text generalizing inComment with
  | nil => simp [splitTrivia] at h
  | cons c text ih =>
    cases inComment with
    | true => exact ih h
    | false =>
      simp only [splitTrivia] at h
      split at h
      · exact ih h
      · split at h
        · exact ih h
        · next hplain =>
          obtain ⟨rfl, rfl⟩ := List.cons.inj h
          exact Bool.eq_false_iff.mpr hplain

/-- No comment starts at a token, whatever follows it. -/
theorem startsPlainComment_append_taken {first : Char} {rest behind : List Char} {token : Token}
    (hplain : startsPlainComment (first :: rest) = false)
    (h : (readToken first rest).value = .ok token) (hstops : Stops token behind) :
    startsPlainComment (first :: ((readToken first rest).taken ++ behind)) = false := by
  by_cases hslash : first = '/'
  · subst hslash
    have hmark : Symbol.ofChar? '/' = none := rfl
    have hhead : rest.head? = some '/' := by
      by_contra hhead
      simp [readToken, hmark, hhead, isNameStart] at h
    obtain ⟨rest, rfl⟩ := List.head?_eq_some_iff.mp hhead
    have hread : readToken '/' ('/' :: rest) = readDoc ('/' :: rest) := by simp [readToken, hmark]
    rw [hread] at h ⊢
    obtain rfl := Except.ok.inj h
    rw [Bool.eq_false_iff, ne_eq, startsPlainComment_slashes_iff] at hplain
    push Not at hplain
    obtain ⟨rest, rfl, hfourth⟩ := hplain
    have htaken : (readDoc ('/' :: '/' :: rest)).taken = '/' :: '/' :: rest.takeWhile (· ≠ '\n') :=
      rfl
    rw [htaken, List.cons_append, List.cons_append, Bool.eq_false_iff, ne_eq,
      startsPlainComment_slashes_iff]
    intro hall
    have hhead := hall _ rfl
    have hbehind : behind.head? ≠ some '/' := by
      intro hslash
      simpa using hstops '/' hslash
    cases rest with
    | nil => exact hbehind hhead
    | cons c rest =>
      by_cases hfeed : c = '\n'
      · simp [hfeed, hbehind] at hhead
      · simp [hfeed] at hhead hfourth
        exact hfourth hhead
  · exact startsPlainComment_cons hslash _

/-! ## Tokens at their places -/

/-- What a text holds, when it starts at a given place. -/
def itemsFrom (position : Position) (text : List Char) :
    List (Located (Except LexicalFault Token)) :=
  locate position (pieces text).1

/-- There are no items in a text of blanks and comments. -/
theorem itemsFrom_of_trivia {position : Position} {text : List Char}
    (h : (splitTrivia false text).2 = []) :
    itemsFrom position text = [] := by
  rw [itemsFrom, pieces]
  split
  · rfl
  · next hcons => simp [h] at hcons

/-- Behind trivia one item is read, and the others from the text that it leaves. -/
theorem itemsFrom_of_cons {position : Position} {text rest : List Char} {first : Char}
    (h : (splitTrivia false text).2 = first :: rest) :
    itemsFrom position text =
      ⟨position.afterText (splitTrivia false text).1, (readToken first rest).value⟩ ::
        itemsFrom (position.afterText
          ((splitTrivia false text).1 ++ first :: (readToken first rest).taken))
          (readToken first rest).rest := by
  rw [itemsFrom, pieces]
  split
  · next hnil => simp [h] at hnil
  · next c others hcons =>
    obtain ⟨rfl, rfl⟩ : first = c ∧ rest = others := by simpa [h] using hcons
    rw [Position.afterText_append]
    rfl

/-- Trivia in front of a text only moves what it holds. -/
theorem Trivia.itemsFrom_append {trivia : List Char} (h : Trivia trivia) (position : Position)
    (text : List Char) :
    itemsFrom position (trivia ++ text) = itemsFrom (position.afterText trivia) text := by
  have hskip := h.splitTrivia_append text
  have htrivia : (splitTrivia false (trivia ++ text)).1 = trivia ++ (splitTrivia false text).1 := by
    have hwhole := Schema.splitTrivia_append false (trivia ++ text)
    rw [hskip] at hwhole
    conv at hwhole => rhs; rw [← Schema.splitTrivia_append false text, ← List.append_assoc]
    exact List.append_cancel_right hwhole
  cases htext : (splitTrivia false text).2 with
  | nil => rw [itemsFrom_of_trivia htext, itemsFrom_of_trivia (hskip.trans htext)]
  | cons first rest =>
    rw [itemsFrom_of_cons htext, itemsFrom_of_cons (hskip.trans htext), htrivia, List.append_assoc,
      Position.afterText_append, Position.afterText_append]

/-- An item stands behind a front of its text. -/
theorem exists_front_of_mem_itemsFrom {position : Position} {text : List Char}
    {item : Located (Except LexicalFault Token)} (h : item ∈ itemsFrom position text) :
    ∃ front behind, text = front ++ behind ∧ item.position = position.afterText front := by
  induction text using pieces.induct generalizing position with
  | case1 text htext =>
    rw [itemsFrom_of_trivia htext] at h
    contradiction
  | case2 text first rest htext =>
    rename_i ih
    have hsplit := splitTrivia_append false text
    rw [htext] at hsplit
    rw [itemsFrom_of_cons htext] at h
    rcases List.mem_cons.mp h with rfl | h
    · exact ⟨_, _, hsplit.symm, rfl⟩
    · have hread := readToken_append first rest
      obtain ⟨front, behind, heq, hposition⟩ := ih h
      refine ⟨(splitTrivia false text).1 ++ first :: (readToken first rest).taken ++ front,
        behind, ?_, ?_⟩
      · rw [List.append_assoc, ← heq, List.append_assoc, List.cons_append, hread, hsplit]
      · rw [hposition, ← Position.afterText_append]

/-- Behind a gap, the items of a text move up with its start. -/
theorem itemsFrom_closeUp {gap position : Position} (h : gap.before position = true)
    (text : List Char) :
    itemsFrom (gap.closeUp position) text =
      (itemsFrom position text).map (Located.move gap.closeUp) := by
  unfold itemsFrom
  generalize (pieces text).1 = all
  induction all generalizing position with
  | nil => rfl
  | cons piece others ih =>
    have hfirst := Position.before_afterText h piece.trivia
    have hnext := Position.before_afterText hfirst piece.text
    rw [locate, locate, List.map_cons, Located.move_mk, ← ih hnext,
      Position.closeUp_afterText hfirst, Position.closeUp_afterText h]

/-- What does not continue a token in front of some text does not do so in front of another one that
starts neither with a digit. -/
theorem Stops.change {token : Token} {text behind other : List Char}
    (h : Stops token (text ++ behind)) (hne : text ≠ [])
    (hdigit : ∀ c ∈ other.head?, c.isDigit = false) : Stops token (text ++ other) := by
  cases text with
  | nil => contradiction
  | cons c text =>
    cases token with
    | integer value =>
      refine ⟨h.1, fun d rest heq => ?_⟩
      obtain ⟨rfl, htail⟩ := List.cons.inj heq
      cases text with
      | nil => exact hdigit d (by rw [show other = d :: rest from htail]; rfl)
      | cons next text =>
        obtain ⟨rfl, -⟩ := List.cons.inj htail
        exact h.2 _ (text ++ behind) rfl
    | _ => exact h

/-- What is behind a closing brace does not continue the token in front of it, if it does not
continue a name. -/
theorem Stops.of_brace {token : Token} {after : List Char} (h : Stops token ('\x7d' :: after))
    (hdigit : ∀ c ∈ after.head?, c.isDigit = false ∧ c ≠ '.')
    (hname : ∀ word, token = .name word → Avoids isNamePart after) : Stops token after := by
  cases token with
  | name word => exact hname word rfl
  | integer value =>
    refine ⟨fun c hc => (hdigit c hc).1, ?_⟩
    rintro c rest rfl
    exact absurd rfl (hdigit '.' rfl).2
  | float value => exact fun c hc => (hdigit c hc).1
  | text content => trivial
  | doc line => exact absurd (h _ rfl) (by decide)
  | symbol mark => trivial

/-- Behind a token that is kept in front of another text, reading goes on in that text. -/
theorem itemsFrom_change {position : Position} {text rest other : List Char} {first : Char}
    {token : Token} (hsplit : (splitTrivia false text).2 = first :: rest)
    (htoken : (readToken first rest).value = .ok token) (hstops : Stops token other) :
    itemsFrom position ((splitTrivia false text).1 ++ first ::
      ((readToken first rest).taken ++ other)) =
      ⟨position.afterText (splitTrivia false text).1, .ok token⟩ ::
        itemsFrom (position.afterText
          ((splitTrivia false text).1 ++ first :: (readToken first rest).taken)) other := by
  have htrivia := trivia_of_splitTrivia hsplit
  rw [if_neg Bool.false_ne_true] at htrivia
  have hplain :=
    startsPlainComment_append_taken (startsPlainComment_of_splitTrivia hsplit) htoken hstops
  have hread := (readToken_append_taken htoken).2 other hstops
  have hagain : splitTrivia false (first :: ((readToken first rest).taken ++ other)) =
      ([], first :: ((readToken first rest).taken ++ other)) := by
    simp [splitTrivia, isBlank_of_splitTrivia hsplit, hplain]
  rw [htrivia.itemsFrom_append, itemsFrom_of_cons (congrArg Prod.snd hagain), hread, hagain]
  simp only [List.nil_append, Position.afterText_append]
  rfl

/-- A text that holds a closing brace first has trivia in front of it, and the other items behind
it. -/
theorem itemsFrom_brace {position : Position} {before after : List Char}
    {back : List (Located (Except LexicalFault Token))}
    (h : itemsFrom position (before ++ '\x7d' :: after) =
      ⟨position.afterText before, .ok (.symbol .rightBrace)⟩ :: back) :
    Trivia before ∧ itemsFrom ((position.afterText before).after '\x7d') after = back := by
  cases htext : (splitTrivia false (before ++ '\x7d' :: after)).2 with
  | nil => simp [itemsFrom_of_trivia htext] at h
  | cons first rest =>
    have hsplit := splitTrivia_append false (before ++ '\x7d' :: after)
    have htrivia := trivia_of_splitTrivia htext
    rw [htext] at hsplit
    rw [itemsFrom_of_cons htext] at h
    obtain ⟨hitem, hback⟩ := List.cons.inj h
    obtain ⟨hbefore, hcons⟩ := Position.append_inj_of_afterText hsplit (Located.mk.inj hitem).1
    obtain ⟨hfirst, hrest⟩ := List.cons.inj hcons
    rw [if_neg Bool.false_ne_true, hbefore] at htrivia
    rw [hfirst, hrest, hbefore, Position.afterText_append] at hback
    exact ⟨htrivia, hback⟩

/-- In front of a closing brace, the first item leaves a text up to that brace, and the other items
to it. -/
theorem exists_mid_of_itemsFrom {position : Position} {before after : List Char}
    {item : Located (Except LexicalFault Token)}
    {front back : List (Located (Except LexicalFault Token))}
    (h : itemsFrom position (before ++ '\x7d' :: after) =
      item :: (front ++ ⟨position.afterText before, .ok (.symbol .rightBrace)⟩ :: back)) :
    ∃ trivia first rest mid, splitTrivia false (before ++ '\x7d' :: after) =
        (trivia, first :: rest) ∧
      item = ⟨position.afterText trivia, (readToken first rest).value⟩ ∧
      (readToken first rest).rest = mid ++ '\x7d' :: after ∧
      before = trivia ++ first :: (readToken first rest).taken ++ mid ∧
      itemsFrom (position.afterText (trivia ++ first :: (readToken first rest).taken))
        (mid ++ '\x7d' :: after) =
        front ++ ⟨(position.afterText (trivia ++ first :: (readToken first rest).taken)).afterText
          mid, .ok (.symbol .rightBrace)⟩ :: back := by
  cases htext : (splitTrivia false (before ++ '\x7d' :: after)).2 with
  | nil => simp [itemsFrom_of_trivia htext] at h
  | cons first rest =>
    have hsplit := splitTrivia_append false (before ++ '\x7d' :: after)
    rw [itemsFrom_of_cons htext] at h
    obtain ⟨hitem, hrest⟩ := List.cons.inj h
    obtain ⟨mid, behind, hmid, hplace⟩ :=
      exists_front_of_mem_itemsFrom (hrest ▸ List.mem_append_right front List.mem_cons_self)
    have hpair : splitTrivia false (before ++ '\x7d' :: after) =
        ((splitTrivia false (before ++ '\x7d' :: after)).1, first :: rest) := Prod.ext rfl htext
    generalize (splitTrivia false (before ++ '\x7d' :: after)).1 = trivia at *
    rw [htext, ← readToken_append first rest, hmid] at hsplit
    have hwhole :
        (trivia ++ first :: (readToken first rest).taken ++ mid) ++ behind =
          before ++ '\x7d' :: after := by
      rw [← hsplit]
      simp
    rw [← Position.afterText_append] at hplace
    obtain ⟨hbefore, rfl⟩ := Position.append_inj_of_afterText hwhole hplace.symm
    rw [hmid, ← hbefore, Position.afterText_append _ _ mid] at hrest
    exact ⟨trivia, first, rest, mid, hpair, hitem.symm, hmid, hbefore.symm, hrest⟩

/-- Behind a closing brace, the items are those of the text behind it. -/
theorem itemsFrom_behind {position : Position} {before after : List Char}
    {front back : List (Located (Except LexicalFault Token))}
    (h : itemsFrom position (before ++ '\x7d' :: after) =
      front ++ ⟨position.afterText before, .ok (.symbol .rightBrace)⟩ :: back) :
    itemsFrom ((position.afterText before).after '\x7d') after = back := by
  induction front generalizing position before with
  | nil => exact (itemsFrom_brace h).2
  | cons item front ih =>
    obtain ⟨trivia, first, rest, mid, -, -, -, rfl, hrest⟩ := exists_mid_of_itemsFrom h
    rw [Position.afterText_append _ _ mid]
    exact ih hrest

/-- A token as an item without a fault. -/
def Located.accepted (token : Located Token) : Located (Except LexicalFault Token) :=
  ⟨token.position, .ok token.value⟩

/-- Whether a name stands directly in front of a place, and the text behind goes on with a character
of names. -/
def NamesMeet (front : Tokens) (before after : List Char) : Prop :=
  ∃ word c d, front.getLast?.map Located.value = some (.name word) ∧ before.getLast? = some c ∧
    after.head? = some d ∧
    isNamePart c = true ∧ isNamePart d = true

/-- A name ends with a character of names. -/
theorem exists_last_of_readToken {first : Char} {rest : List Char} {word : String}
    (h : (readToken first rest).value = .ok (.name word)) :
    ∃ c, (first :: (readToken first rest).taken).getLast? = some c ∧ isNamePart c = true := by
  obtain ⟨-, hfirst, htaken⟩ := taken_of_readToken h
  have hne := List.cons_ne_nil first (readToken first rest).taken
  refine ⟨_, List.getLast?_eq_some_getLast hne, ?_⟩
  rcases List.mem_cons.mp (List.getLast_mem hne) with heq | hmem
  · rw [heq]
    exact (isNamePart_iff first).mpr (.inl hfirst)
  · exact htaken _ hmem

/-- Nothing is in front of a closing brace at the start of a text. -/
theorem eq_nil_of_itemsFrom_brace {position : Position} {after : List Char}
    {front back : List (Located (Except LexicalFault Token))}
    (h : itemsFrom position ('\x7d' :: after) =
      front ++ ⟨position, .ok (.symbol .rightBrace)⟩ :: back) : front = [] := by
  cases front with
  | nil => rfl
  | cons item front =>
    obtain ⟨trivia, first, rest, mid, -, -, -, hempty, -⟩ :=
      @exists_mid_of_itemsFrom position [] _ _ _ _ h
    simp at hempty

/-- If a closing brace is taken out of a text without faults in front of it, and what is behind
it does not continue what is in front, then the items in front of it stay and those behind it
move up. -/
theorem itemsFrom_remove {position : Position} {before after : List Char} {front : Tokens}
    {back : List (Located (Except LexicalFault Token))}
    (hitems : itemsFrom position (before ++ '\x7d' :: after) = front.map Located.accepted ++
      ⟨position.afterText before, .ok (.symbol .rightBrace)⟩ :: back)
    (hdigit : ∀ c ∈ after.head?, c.isDigit = false ∧ c ≠ '.')
    (hapart : ¬ NamesMeet front before after) :
    itemsFrom position (before ++ after) =
      front.map Located.accepted ++
        back.map (Located.move (position.afterText before).closeUp) := by
  induction front generalizing position before with
  | nil =>
    obtain ⟨htrivia, hback⟩ := itemsFrom_brace hitems
    have hlater : (position.afterText before).before ((position.afterText before).after '\x7d') =
        true :=
      (position.afterText before).before_afterText_cons '\x7d' []
    have hmoved := itemsFrom_closeUp hlater after
    rw [Position.closeUp_gap _ (by decide), hback] at hmoved
    rw [htrivia.itemsFrom_append, List.map_nil, List.nil_append, hmoved]
  | cons item front ih =>
    obtain ⟨place, token⟩ := item
    obtain ⟨trivia, first, rest, mid, hsplit, hitem, hmid, rfl, hrest⟩ :=
      exists_mid_of_itemsFrom hitems
    obtain ⟨rfl, htoken⟩ := Located.mk.inj hitem
    have hstops := (readToken_append_taken htoken.symm).1
    rw [hmid] at hstops
    have hends : Stops token (mid ++ after) := by
      by_cases hnil : mid = []
      · subst hnil
        obtain rfl : front = [] := List.map_eq_nil_iff.mp (eq_nil_of_itemsFrom_brace hrest)
        refine hstops.of_brace hdigit ?_
        rintro word rfl d hd
        obtain ⟨c, hc, hlast⟩ := exists_last_of_readToken htoken.symm
        rw [Bool.eq_false_iff]
        refine fun hpart => hapart ⟨word, c, d, rfl, ?_, hd, hlast, hpart⟩
        rw [List.append_nil, List.getLast?_append, hc]
        rfl
      · exact hstops.change hnil fun c hc => (hdigit c hc).1
    have hothers := ih hrest fun ⟨word, c, d, hword, hc, hd⟩ => hapart ⟨word, c, d, by
      cases front with
      | nil => simp at hword
      | cons next front => simpa using hword, by rw [List.getLast?_append, hc]; rfl, hd⟩
    have hkept :=
      @itemsFrom_change position _ _ (mid ++ after) _ _ (congrArg Prod.snd hsplit) htoken.symm hends
    rw [hsplit] at hkept
    have htext : trivia ++ first :: (readToken first rest).taken ++ mid ++ after =
        trivia ++ first :: ((readToken first rest).taken ++ (mid ++ after)) := by simp
    rw [htext, hkept, hothers, List.map_cons, List.cons_append, ← Position.afterText_append _ _ mid]
    rfl

/-- A text that starts with a digit or a dot does not hold a name or a doc comment first. -/
theorem isDigit_of_itemsFrom {position place : Position} {text : List Char} {token : Token}
    {rest : List (Located (Except LexicalFault Token))}
    (h : itemsFrom position text = ⟨place, .ok token⟩ :: rest)
    (htoken : (∃ word, token = .name word) ∨ ∃ line, token = .doc line) :
    ∀ c ∈ text.head?, c.isDigit = false ∧ c ≠ '.' := by
  rintro c hc
  obtain ⟨text, rfl⟩ := List.head?_eq_some_iff.mp hc
  have hfirst : ∀ {value}, isBlank c = false → c ≠ '/' → (readToken c text).value = value →
      value = .ok token := by
    intro value hblank hslash hvalue
    have hsplit : (splitTrivia false (c :: text)).2 = c :: text := by
      simp [splitTrivia, hblank, startsPlainComment_cons hslash]
    rw [itemsFrom_of_cons hsplit] at h
    exact hvalue.symm.trans (congrArg Located.value (List.cons.inj h).1)
  constructor
  · rw [Bool.eq_false_iff]
    intro hdigit
    have hpart := (isNamePart_iff c).mpr (.inr hdigit)
    have hslash : c ≠ '/' := ne_of_apply_ne Char.isDigit (by rw [hdigit]; decide)
    have hquote : c ≠ '"' := ne_of_apply_ne Char.isDigit (by rw [hdigit]; decide)
    have hminus : c ≠ '-' := ne_of_apply_ne Char.isDigit (by rw [hdigit]; decide)
    have hread : (readToken c text).value = (readNumber false (c :: text)).value := by
      simp [readToken, ofChar?_of_isNamePart hpart, hslash, hquote, hminus, hdigit]
    have hnumber := number_of_readNumber (hfirst (isBlank_of_isNamePart hpart) hslash hread)
    rcases htoken with ⟨word, rfl⟩ | ⟨line, rfl⟩ <;> simp at hnumber
  · rintro rfl
    have hdot : Except.ok (.symbol .dot) = Except.ok token := hfirst rfl (by decide) rfl
    rcases htoken with ⟨word, rfl⟩ | ⟨line, rfl⟩ <;> simp at hdot

/-- Without a fault, the items are the tokens. -/
theorem Lexing.faults_eq_nil_iff (lexing : Lexing) (tokens : Tokens) :
    lexing.faults = [] ∧ lexing.tokens = tokens ↔ lexing.items = tokens.map Located.accepted := by
  obtain ⟨items, finish⟩ := lexing
  unfold Lexing.faults Lexing.tokens
  dsimp only
  induction items generalizing tokens with
  | nil => cases tokens <;> simp
  | cons item items ih =>
    obtain ⟨position, value⟩ := item
    cases value with
    | error fault => cases tokens <;> simp [Located.accepted]
    | ok token =>
      cases tokens with
      | nil => simp
      | cons first tokens =>
        obtain ⟨place, value⟩ := first
        have hrest := ih tokens
        simp only [List.filterMap_cons, List.cons.injEq, List.map_cons, Located.accepted,
          Located.mk.injEq, Except.ok.injEq] at hrest ⊢
        rw [← hrest]
        tauto

/-- If a closing brace is taken out of a text without lexical faults in front of a name or a doc
comment, and no names meet, the other tokens stay, and those behind the brace move up. -/
theorem lex_remove {before after : List Char} {front back : Tokens}
    (hclean : (lex (before ++ '\x7d' :: after)).faults = [])
    (htokens : (lex (before ++ '\x7d' :: after)).tokens =
      front ++ ⟨Position.start.afterText before, .symbol .rightBrace⟩ :: back)
    (hback : (∃ word, peek back = some (.name word)) ∨ ∃ line, peek back = some (.doc line))
    (hapart : ¬ NamesMeet front before after) :
    (lex (before ++ after)).faults = [] ∧
      (lex (before ++ after)).tokens =
        front ++ back.map (Located.move (Position.start.afterText before).closeUp) := by
  have hitems := (Lexing.faults_eq_nil_iff _ _).mp ⟨hclean, htokens⟩
  rw [List.map_append, List.map_cons] at hitems
  have hdigit : ∀ c ∈ after.head?, c.isDigit = false ∧ c ≠ '.' := by
    have hbehind := itemsFrom_behind hitems
    cases back with
    | nil => simp at hback
    | cons token back => exact isDigit_of_itemsFrom hbehind (by simpa using hback)
  rw [Lexing.faults_eq_nil_iff]
  have hremoved := itemsFrom_remove hitems hdigit hapart
  rw [List.map_append, List.map_map]
  rw [List.map_map] at hremoved
  exact hremoved

end Schema

end SchemaBindings
