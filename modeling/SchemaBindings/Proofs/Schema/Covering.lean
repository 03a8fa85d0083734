import Mathlib.Data.List.Induction
import SchemaBindings.Proofs.Schema.Removal

/-!
# Tokens and errors cover a source

A source is cut into stretches one behind the other, without a gap: in turn blanks and plain
comments, and the characters of one token or error, at least one. Behind the last of them is trivia
up to the end. Each token and each error is placed at the first character of its stretch, so all
places are different and in reading order, and the end is behind all of them.

A place counts the line feeds in front of a character and the characters since the last of them.
That is also the place of the byte that the character starts with.
-/

namespace SchemaBindings

namespace Text

/-- The place behind one more character. -/
theorem Position.ofOffset_append_singleton (text : List Char) (c : Char) :
    ofOffset (text ++ [c]) = (ofOffset text).after c := by
  unfold ofOffset after
  rw [List.count_append, List.reverse_append, List.reverse_singleton, List.singleton_append]
  by_cases hfeed : c = '\n'
  · simp [hfeed]
  · simp [hfeed]

/-- Counting from the start of a text leads to the place behind it. -/
theorem Position.afterText_start (text : List Char) : start.afterText text = ofOffset text := by
  induction text using List.reverseRecOn with
  | nil => rfl
  | append_singleton text c ih =>
    rw [afterText_append, ih, ofOffset_append_singleton]
    rfl

/-- The front of a text is found by its bytes. -/
theorem front?_byteLength (front behind : List Char) :
    front? (byteLength front) (front ++ behind) = some front := by
  induction front with
  | nil => cases behind <;> rfl
  | cons c front ih =>
    have hsize : byteLength (c :: front) = c.utf8Size + byteLength front := rfl
    have hpos := c.utf8Size_pos
    rw [hsize, List.cons_append, front?, if_neg (by omega), if_neg (by omega),
      Nat.add_sub_cancel_left, ih]
    rfl

/-- The byte behind a front has the place behind it. -/
theorem Position.ofByte_byteLength (front behind : List Char) :
    ofByte (front ++ behind) (byteLength front) = ofOffset front := by
  rw [ofByte, front?_byteLength, Option.getD_some]

end Text

namespace Schema

open SchemaBindings.Text (Position byteLength isBlank)

/-- What covers a text that has `front` in front of it: trivia and the stretch of an item in turn,
and trivia at the end. A stretch is what is read from its first character, where no trivia starts,
and its item is placed there. -/
inductive Covers : (front text : List Char) → List (Located (Except LexicalFault Token)) → Prop
  | done {front trailing : List Char} (htrivia : TrailingTrivia trailing) : Covers front trailing []
  | item {front trivia taken behind : List Char} {first : Char}
      {content : Except LexicalFault Token}
      {items : List (Located (Except LexicalFault Token))} (htrivia : Trivia trivia)
      (hvisible : isBlank first = false)
      (hplain : startsPlainComment (first :: (taken ++ behind)) = false)
      (hread : readToken first (taken ++ behind) = ⟨taken, content, behind⟩)
      (hbehind : Covers (front ++ (trivia ++ first :: taken)) behind items) :
      Covers front (trivia ++ first :: (taken ++ behind))
        (⟨.ofOffset (front ++ trivia), content⟩ :: items)

/-! ## Trivia at the end -/

/-- A blank in front of trivia. -/
theorem TrailingTrivia.blank {c : Char} {trivia : List Char} (hblank : isBlank c = true)
    (h : TrailingTrivia trivia) :
    TrailingTrivia (c :: trivia) := by
  cases h with
  | closed h => exact .closed (.blank hblank h)
  | comment h hplain hbody => exact .comment (.blank hblank h) hplain hbody

/-- A comment in front of trivia. -/
theorem TrailingTrivia.line {body trivia : List Char}
    (hplain : startsPlainComment ('/' :: '/' :: body) = true) (hbody : '\n' ∉ body)
    (h : TrailingTrivia trivia) : TrailingTrivia ('/' :: '/' :: (body ++ '\n' :: trivia)) := by
  cases h with
  | closed h => exact .closed (.comment hplain hbody h)
  | @comment trivia last h hplain' hlast =>
    have hfirst := TrailingTrivia.comment (.comment hplain hbody h) hplain' hlast
    simpa only [List.cons_append, List.append_assoc] using hfirst

/-- A text that is skipped as a whole is trivia, and inside a comment the rest of its line and
trivia. -/
theorem trailingTrivia_of_splitTrivia {inComment : Bool} {text : List Char}
    (h : (splitTrivia inComment text).2 = []) :
    if inComment then
      '\n' ∉ text ∨
      ∃ body trivia, text = body ++ '\n' :: trivia ∧ '\n' ∉ body ∧ TrailingTrivia trivia
    else TrailingTrivia text := by
  induction text generalizing inComment with
  | nil =>
    cases inComment with
    | true => exact .inl List.not_mem_nil
    | false => exact .closed .nil
  | cons c text ih =>
    cases inComment with
    | true =>
      rw [if_pos rfl]
      simp only [splitTrivia] at h
      have hrest := ih h
      by_cases hfeed : c = '\n'
      · simp only [hfeed, ne_eq, not_true_eq_false, decide_false, Bool.false_eq_true,
          if_false] at hrest
        exact .inr ⟨[], text, by rw [hfeed]; rfl, List.not_mem_nil, hrest⟩
      · simp only [hfeed, ne_eq, not_false_eq_true, decide_true, if_true] at hrest
        rw [List.mem_cons, not_or]
        rcases hrest with hopen | ⟨body, trivia, rfl, hbody, htrivia⟩
        · exact .inl ⟨Ne.symm hfeed, hopen⟩
        · refine .inr ⟨c :: body, trivia, rfl, ?_, htrivia⟩
          rw [List.mem_cons, not_or]
          exact ⟨Ne.symm hfeed, hbody⟩
    | false =>
      rw [if_neg Bool.false_ne_true]
      simp only [splitTrivia] at h
      split at h
      · next hblank => exact .blank hblank (ih h)
      · split at h
        · next hplain =>
          have hrest := ih h
          rw [if_pos rfl] at hrest
          obtain ⟨text, rfl, rfl⟩ := slashes_of_startsPlainComment hplain
          rcases hrest with hopen | ⟨body, trivia, heq, hbody, htrivia⟩
          · rw [List.mem_cons, not_or] at hopen
            exact .comment .nil hplain hopen.2
          · cases body with
            | nil => simp at heq
            | cons second body =>
              obtain ⟨rfl, rfl⟩ := List.cons.inj heq
              rw [List.mem_cons, not_or] at hbody
              exact .line (startsPlainComment_of_append hplain) hbody.2 htrivia
        · simp at h

/-! ## Items -/

/-- The items of a text behind a front cover it. -/
theorem covers_itemsFrom (front text : List Char) :
    Covers front text (itemsFrom (.ofOffset front) text) := by
  induction text using pieces.induct generalizing front with
  | case1 text htext =>
    rw [itemsFrom_of_trivia htext]
    exact .done (trailingTrivia_of_splitTrivia htext)
  | case2 text first rest htext reading _ _ _ ih =>
    have hsplit := splitTrivia_append false text
    rw [htext] at hsplit
    have hread : reading.taken ++ reading.rest = rest := readToken_append first rest
    have hbehind := ih (front ++ ((splitTrivia false text).1 ++ first :: reading.taken))
    have hplain := startsPlainComment_of_splitTrivia htext
    rw [← hread] at hplain
    rw [itemsFrom_of_cons
      htext, ← Position.afterText_start, ← Position.afterText_append, ← Position.afterText_append,
      Position.afterText_start, Position.afterText_start]
    have hcovers := Covers.item (trivia_of_splitTrivia htext) (isBlank_of_splitTrivia htext) hplain
      (congrArg (readToken first) hread) hbehind
    rwa [hread, hsplit] at hcovers

/-- What covers a text is placed in it, one item behind the other and in front of the end. -/
theorem Covers.increasing {front text : List Char}
    {items : List (Located (Except LexicalFault Token))} (h : Covers front text items) :
    (items.map Located.position ++ [Position.ofOffset (front ++ text)]).Pairwise
      (fun a b => a.before b = true) ∧
      ∀ place ∈ items.map Located.position ++ [Position.ofOffset (front ++ text)],
        (Position.ofOffset front).upTo place := by
  have hupTo : ∀ front text : List Char, (Position.ofOffset front).upTo
      (.ofOffset (front ++ text)) := by
    intro front text
    rw [← Position.afterText_start, ← Position.afterText_start, Position.afterText_append]
    exact Position.upTo_afterText _ text
  induction h with
  | @done front trailing _ => simpa using hupTo front trailing
  | @item front trivia taken behind first content items _ _ _ _ _ ih =>
    have hbefore : (Position.ofOffset (front ++ trivia)).before
        (.ofOffset (front ++ (trivia ++ first :: taken))) = true := by
      rw [← List.append_assoc, ← Position.afterText_start, ← Position.afterText_start,
        Position.afterText_append _ _ (first :: taken)]
      exact Position.before_afterText_cons _ first taken
    have hend : front ++ (trivia ++ first :: taken) ++ behind =
        front ++ (trivia ++ first :: (taken ++ behind)) := by simp
    rw [hend] at ih
    obtain ⟨hpairwise, hall⟩ := ih
    refine ⟨List.pairwise_cons.mpr ⟨fun place hplace => ?_, hpairwise⟩,
      List.forall_mem_cons.mpr ⟨hupTo front trivia, fun place hplace => ?_⟩⟩
    · exact Position.before_of_before_of_upTo hbefore (hall place hplace)
    · exact Position.upTo_trans (hupTo front _) (hall place hplace)

/-- For all sources, the tokens and errors cover the source: trivia and the stretch of one token or
error in turn, and trivia up to the end. Each is placed at the first character of its stretch and
the end behind the last character, all of them one behind the other. A place is that of the byte
there. -/
theorem lex_covers (source : List Char) :
    Covers [] source (lex source).items ∧ (lex source).finish = .ofOffset source ∧
      ((lex source).items.map Located.position ++ [(lex source).finish]).Pairwise
        (fun a b => a.before b = true) ∧
      ∀ front behind, source = front ++ behind →
        Position.ofByte source (byteLength front) = .ofOffset front := by
  have hcovers := covers_itemsFrom [] source
  have hfinish : (lex source).finish = .ofOffset source := Position.afterText_start source
  refine ⟨hcovers, hfinish, ?_, ?_⟩
  · rw [hfinish]
    exact hcovers.increasing.1
  · rintro front behind rfl
    exact Position.ofByte_byteLength front behind

end Schema

end SchemaBindings
