import Mathlib.Data.List.Chain
import SchemaBindings.Bindings.Doc
import SchemaBindings.Proofs.Project.Diagnostics
import SchemaBindings.Proofs.Text.Lines

/-!
# Block comments

Whatever the lines of a doc comment hold, they come out as one block comment: its end stands at the
end of the text and nowhere before. A text without an end of a comment is one in which no star
stands right in front of a slash, and two such texts make up a third where anything else stands
between them. Read back line by line, the body of the comment shows the doc lines, with blanks added
only inside of what would end the comment.
-/

namespace SchemaBindings.Bindings

open SchemaBindings.Schema (Literal)
open SchemaBindings.Text (SingleLine lines trimEnd unlines)

/-! ## Ends of comments -/

/-- Whether no star stands right in front of a slash. -/
def EndFree (text : List Char) : Prop :=
  text.IsChain fun first second => ¬ (first = '*' ∧ second = '/')

/-- Beside a character that is neither a star nor a slash, texts do not make an end of a comment
together. -/
theorem endFree_append_cons_iff {c : Char} (hstar : c ≠ '*') (hslash : c ≠ '/')
    (front behind : List Char) :
    EndFree (front ++ c :: behind) ↔ EndFree front ∧ EndFree behind := by
  have hfront : EndFree (front ++ [c]) ↔ EndFree front := by
    simp [EndFree, List.isChain_append, hslash]
  have hbehind : EndFree (c :: behind) ↔ EndFree behind := by
    simp [EndFree, List.isChain_cons, hstar]
  rw [← hfront, ← hbehind]
  exact List.isChain_split

/-- An indent does not make an end of a comment. -/
theorem endFree_replicate_append_iff (width : Nat) (text : List Char) :
    EndFree (List.replicate width ' ' ++ text) ↔ EndFree text := by
  induction width with
  | zero => simp
  | succ width ih =>
    rw [List.replicate_succ, List.cons_append, ← ih]
    exact (endFree_append_cons_iff (by decide) (by decide) [] _).trans
      (and_iff_right List.isChain_nil)

/-- An indent behind a text does not make an end of a comment. -/
theorem endFree_append_replicate (width : Nat) {text : List Char} (h : EndFree text) :
    EndFree (text ++ List.replicate width ' ') := by
  have hindent : ∀ width, EndFree (List.replicate width ' ') := fun width => by
    simpa using (endFree_replicate_append_iff width []).mpr List.isChain_nil
  cases width with
  | zero => simpa using h
  | succ width =>
    exact (endFree_append_cons_iff (by decide) (by decide) text _).mpr ⟨h, hindent width⟩

/-- No end of a comment is left in a text where each is taken apart. -/
theorem endFree_splitCommentEnds (text : List Char) : EndFree (splitCommentEnds text) := by
  fun_induction splitCommentEnds text with
  | case1 => exact List.isChain_nil
  | case2 rest ih =>
    refine (endFree_append_cons_iff (by decide) (by decide) ['*'] _).mpr
      ⟨List.isChain_singleton _, ?_⟩
    exact List.isChain_cons.mpr ⟨fun _ _ h => absurd h.1 (by decide), ih⟩
  | case3 c rest hends ih =>
    refine List.isChain_cons.mpr ⟨fun second hsecond h => ?_, ih⟩
    obtain ⟨rfl, rfl⟩ := h
    cases rest with
    | nil => simp [splitCommentEnds] at hsecond
    | cons next others =>
      by_cases hslash : next = '/'
      · exact hends others rfl (by rw [hslash])
      · unfold splitCommentEnds at hsecond
        split at hsecond <;> simp_all

/-- Where the only star and slash that meet are the ones at the end, no end of a comment stands
before. -/
theorem eq_lineFeed_of_end {core front behind : List Char} (hcore : EndFree (core ++ ['*']))
    (h : core ++ ['*', '/', '\n'] = front ++ '*' :: '/' :: behind) : behind = ['\n'] := by
  rcases List.append_eq_append_iff.mp h with ⟨between, rfl, hbetween⟩ | ⟨between, rfl, hbetween⟩
  · have hlength := congrArg List.length hbetween
    rcases between with _ | ⟨first, _ | ⟨second, between⟩⟩
    · simpa using hbetween.symm
    · simp at hbetween
    · simp only [List.length_append, List.length_cons, List.length_nil] at hlength
      omega
  · rcases between with _ | ⟨first, _ | ⟨second, between⟩⟩
    · simpa using hbetween
    · simp at hbetween
    · simp only [List.cons_append, List.cons.injEq] at hbetween
      obtain ⟨rfl, rfl, -⟩ := hbetween
      rw [EndFree, List.append_assoc, List.cons_append, List.cons_append,
        List.isChain_append_cons_cons] at hcore
      exact absurd ⟨rfl, rfl⟩ hcore.2.1

/-! ## What a reader sees -/

/-- Whether a text is shown as another one, in which ends of comments may be taken apart by a
space. -/
inductive Parted : List Char → List Char → Prop
  | nil : Parted [] []
  | keep (c : Char) {text shown : List Char} (rest : Parted text shown) : Parted
      (c :: text) (c :: shown)
  | part {text shown : List Char} (rest : Parted text shown) :
      Parted ('*' :: '/' :: text) ('*' :: ' ' :: '/' :: shown)

/-- A line of the body of a comment without the star that it starts with and the space behind
that. -/
def withoutStar (line : List Char) : List Char :=
  (line.dropWhile (· = ' ')).drop 2

/-- What stands between the start and the end of a block comment. -/
def insideComment (text : List Char) : List Char :=
  ((text.dropWhile (· = ' ')).drop 3).rdrop 3

/-- The lines of the body of a comment: what stands on the line of its start and its end if these
are on one line, and the lines between them otherwise. -/
def bodyLines (inside : List Char) : List (List Char) :=
  match inside.splitOn '\n' with
  | [] => []
  | [line] => [line.drop 1]
  | _ :: others => others.dropLast.map withoutStar

/-- The lines between the first and the last one are shown without what they start with. -/
theorem bodyLines_of_splitOn {inside first last : List Char} {middle : List (List Char)}
    (h : inside.splitOn '\n' = first :: (middle ++ [last])) :
    bodyLines inside = middle.map withoutStar := by
  have hdropped : (middle ++ [last]).dropLast = middle := List.dropLast_concat
  unfold bodyLines
  rw [h]
  cases middle with
  | nil => rfl
  | cons line others =>
    rw [List.cons_append] at hdropped ⊢
    exact congrArg (List.map withoutStar) hdropped

/-- Whether `text` is one block comment behind an indent, with a body that shows `docs`. -/
structure IsBlockComment (width : Nat) (docs : List (List Char)) (text : List Char) : Prop where
  /-- It opens behind the indent. -/
  opens : List.replicate width ' ' ++ ['/', '*', '*'] <+: text
  /-- It ends in the last line. -/
  closes : ['*', '/', '\n'] <:+ text
  /-- It ends nowhere else. -/
  once : ∀ front behind, text = front ++ '*' :: '/' :: behind → behind = ['\n']
  /-- Its lines are the ones to show, in order. -/
  body : List.Forall₂ (fun line shown => Parted (trimEnd line) (trimEnd shown)) docs
    (bodyLines (insideComment text))

/-- A text is shown as itself with the ends of comments taken apart. -/
theorem parted_splitCommentEnds (text : List Char) : Parted text (splitCommentEnds text) := by
  fun_induction splitCommentEnds text with
  | case1 => exact .nil
  | case2 rest ih => exact .part ih
  | case3 c rest hends ih => exact .keep c ih

/-- Nothing shown means that there is nothing to show. -/
theorem Parted.eq_nil_iff {text shown : List Char} (h : Parted text shown) :
    text = [] ↔ shown = [] := by
  cases h <;> simp

/-- The blanks at the end are shown as they are. -/
theorem Parted.trimEnd {text shown : List Char} (h : Parted text shown) :
    Parted (Text.trimEnd text) (Text.trimEnd shown) := by
  induction h with
  | nil => exact .nil
  | keep c rest ih =>
    rw [Text.trimEnd_cons, Text.trimEnd_cons]
    simp only [ih.eq_nil_iff]
    split
    · exact .nil
    · exact .keep c ih
  | part rest ih =>
    have hstar : Text.isBlank '*' = false := by decide
    have hslash : Text.isBlank '/' = false := by decide
    simp only [Text.trimEnd_cons, hstar, hslash, Bool.false_eq_true, and_false, if_false,
      false_and, List.cons_ne_nil]
    exact .part ih

/-! ## One comment -/

/-- Between its start and its end, a comment in which no other end stands is one block comment. -/
theorem isBlockComment_of_inside {width : Nat} {docs : List (List Char)} {first : Char}
    {inner : List Char} (hstar : first ≠ '*') (hslash : first ≠ '/') (hinner : EndFree inner)
    (hbody : List.Forall₂ (fun line shown => Parted (trimEnd line) (trimEnd shown)) docs
      (bodyLines (first :: (inner ++ [' '])))) :
    IsBlockComment width docs
      (List.replicate width ' ' ++ '/' :: '*' :: '*' :: first :: (inner ++ [' ', '*', '/', '\n']))
      where
  opens := ⟨first :: (inner ++ [' ', '*', '/', '\n']), by simp⟩
  closes := ⟨List.replicate width ' ' ++ '/' :: '*' :: '*' :: first :: (inner ++ [' ']), by simp⟩
  once front behind h := by
    have hfree : EndFree (List.replicate width ' ' ++ '/' :: '*' :: '*' :: first ::
          (inner ++ [' ']) ++ ['*']) := by
      rw [List.append_assoc, endFree_replicate_append_iff]
      refine (endFree_append_cons_iff hstar hslash ['/', '*', '*'] (inner ++ [' '] ++ ['*'])).mpr
        ⟨by simp [EndFree], ?_⟩
      rw [List.append_assoc]
      exact (endFree_append_cons_iff (by decide) (by decide) inner ['*']).mpr
        ⟨hinner, List.isChain_singleton _⟩
    exact eq_lineFeed_of_end hfree (by simpa using h)
  body := by
    have hinside : insideComment
        (List.replicate width ' ' ++ '/' :: '*' :: '*' :: first ::
          (inner ++ [' ', '*', '/', '\n'])) =
          first :: (inner ++ [' ']) := by
      have hindent : ∀ c ∈ List.replicate width ' ', decide (c = ' ') = true := by
        simp
      have hend : inner ++ [' ', '*', '/', '\n'] = inner ++ [' '] ++ ['*', '/', '\n'] := by simp
      rw [insideComment, List.dropWhile_append_of_pos hindent,
        List.dropWhile_cons_of_neg (by decide), hend]
      exact @List.rdrop_append_length _ (first :: (inner ++ [' '])) ['*', '/', '\n']
    rw [hinside]
    exact hbody

/-! ## The lines of a comment -/

/-- A line of the body of a comment. -/
def starred (indent line : String) : String :=
  if commentLine line = "" then indent ++ " *" else indent ++ " * " ++ commentLine line

/-- Two lines and more stand between the lines of the start and of the end. -/
theorem blockComment_of_two_le (indent : String) {docs : List String} (h : 2 ≤ docs.length) :
    blockComment indent docs = (indent ++ "/**") :: docs.map (starred indent) ++
      [indent ++ " */"] := by
  match docs with
  | [] => simp at h
  | [_] => simp at h
  | _ :: _ :: _ => rfl

section Lines

variable {width : Nat} {line : String} {docs : List String}

/-- The characters of a line of the body. -/
theorem toList_starred (width : Nat) (line : String) :
    (starred (String.ofList (List.replicate width ' ')) line).toList =
      List.replicate width ' ' ++ ' ' :: '*' ::
        if splitCommentEnds line.toList = [] then [] else ' ' :: splitCommentEnds line.toList := by
  by_cases hempty : splitCommentEnds line.toList = []
  · simp [starred, commentLine, hempty]
  · simp [starred, hempty, commentLine]

/-- A line of the body is read as the line that it shows. -/
theorem withoutStar_starred (width : Nat) (line : String) :
    withoutStar (starred (String.ofList (List.replicate width ' ')) line).toList =
      splitCommentEnds line.toList := by
  have hindent : ∀ c ∈ List.replicate width ' ', decide (c = ' ') = true := by
    simp
  rw [toList_starred, withoutStar, List.dropWhile_append_of_pos hindent,
    List.dropWhile_cons_of_pos (by decide), List.dropWhile_cons_of_neg (by decide)]
  split
  · next hempty => simp [hempty]
  · rfl

/-- A line of the body holds no end of a comment. -/
theorem endFree_starred (width : Nat) (line : String) :
    EndFree (starred (String.ofList (List.replicate width ' ')) line).toList := by
  rw [toList_starred, endFree_replicate_append_iff]
  refine (endFree_append_cons_iff (by decide) (by decide) [] _).mpr ⟨List.isChain_nil, ?_⟩
  split
  · exact List.isChain_singleton _
  · exact (endFree_append_cons_iff (by decide) (by decide) ['*'] _).mpr
      ⟨List.isChain_singleton _, endFree_splitCommentEnds _⟩

/-- Taking apart the ends of comments makes no line out of a single one. -/
theorem lineFeed_notMem_splitCommentEnds {text : List Char} (h : '\n' ∉ text) :
    '\n' ∉ splitCommentEnds text := by
  fun_induction splitCommentEnds text with
  | case1 => exact h
  | case2 rest ih => simp_all
  | case3 c rest hends ih => simp_all

/-- The line that a single line is shown on is single. -/
theorem singleLine_starred (h : SingleLine line) :
    SingleLine (starred (String.ofList (List.replicate width ' ')) line) := by
  have hline := lineFeed_notMem_splitCommentEnds h
  rw [SingleLine, toList_starred]
  split <;> simp [hline]

/-- Lines without an end of a comment make up a text without one. -/
theorem endFree_unlines (h : ∀ line ∈ docs, EndFree line.toList) :
    EndFree (unlines docs).toList := by
  induction docs with
  | nil => exact List.isChain_nil
  | cons line others ih =>
    rw [List.forall_mem_cons] at h
    rw [Text.toList_unlines_cons]
    exact (endFree_append_cons_iff (by decide) (by decide) _ _).mpr ⟨h.1, ih h.2⟩

/-- A single line comes out as a block comment that shows it. -/
theorem isBlockComment_single (width : Nat) (hsingle : SingleLine line) :
    IsBlockComment width [line.toList]
      (unlines (blockComment (String.ofList (List.replicate width ' ')) [line])).toList := by
  have hshown := lineFeed_notMem_splitCommentEnds hsingle
  have htext : (unlines (blockComment (String.ofList (List.replicate width ' ')) [line])).toList =
      List.replicate width ' ' ++ '/' :: '*' :: '*' :: ' ' ::
        (splitCommentEnds line.toList ++ [' ', '*', '/', '\n']) := by
    simp [blockComment, commentLine, unlines, String.join_cons]
  have hinside : bodyLines (' ' :: (splitCommentEnds line.toList ++ [' '])) =
      [splitCommentEnds line.toList ++ [' ']] := by
    rw [bodyLines, List.splitOn_eq_singleton (by simpa using hshown)]
    rfl
  rw [htext]
  refine isBlockComment_of_inside (by decide) (by decide) (endFree_splitCommentEnds _) ?_
  rw [hinside]
  refine .cons ?_ .nil
  rw [Text.trimEnd_concat_of_blank _ (by decide)]
  exact (parted_splitCommentEnds _).trimEnd

/-- Two single lines or more come out as a block comment that shows them. -/
theorem isBlockComment_several (width : Nat) (htwo : 2 ≤ docs.length)
    (hsingle : ∀ line ∈ docs, SingleLine line) :
    IsBlockComment width (docs.map String.toList)
      (unlines (blockComment (String.ofList (List.replicate width ' ')) docs)).toList := by
  generalize hindent : String.ofList (List.replicate width ' ') = indent
  have hspaces : indent.toList = List.replicate width ' ' := by rw [← hindent, String.toList_ofList]
  have hmiddle : ∀ line ∈ docs.map (starred indent), SingleLine line ∧ EndFree line.toList := by
    rw [← hindent]
    simpa using fun line hline => ⟨singleLine_starred (hsingle line hline),
      endFree_starred width line⟩
  have hread : ∀ line, withoutStar (starred indent line).toList = splitCommentEnds line.toList :=
    hindent ▸ withoutStar_starred width
  have htext : (unlines (blockComment indent docs)).toList =
      List.replicate width ' ' ++ '/' :: '*' :: '*' :: '\n' ::
        ((unlines (docs.map (starred indent))).toList ++ List.replicate width ' ' ++
          [' ', '*', '/', '\n']) := by
    rw [blockComment_of_two_le _ htwo, List.cons_append, Text.toList_unlines_cons,
      Text.toList_unlines_append, Text.toList_unlines_cons]
    simp [unlines, hspaces]
  have hinner : EndFree ((unlines (docs.map (starred indent))).toList ++
        List.replicate width ' ') :=
    endFree_append_replicate width (endFree_unlines fun line hline => (hmiddle line hline).2)
  have hbody : bodyLines ('\n' ::
      ((unlines (docs.map (starred indent))).toList ++ List.replicate width ' ' ++ [' '])) =
        docs.map fun line => splitCommentEnds line.toList := by
    have hlast : '\n' ∉ List.replicate width ' ' ++ [' '] := by simp
    have hsplit :
        ('\n' :: ((unlines (docs.map (starred indent))).toList ++ List.replicate width ' ' ++
            [' '])).splitOn '\n' =
          [] :: ((docs.map (starred indent)).map String.toList ++
            [List.replicate width ' ' ++ [' ']]) := by
      rw [List.append_assoc, ← List.splitOn_eq_singleton hlast,
        ← Text.splitOn_unlines_append (fun line hline => (hmiddle line hline).1)]
      exact List.splitOn_append_cons_self_of_not_mem List.not_mem_nil _
    rw [bodyLines_of_splitOn hsplit]
    simp only [List.map_map, Function.comp_def, hread]
  rw [htext]
  refine isBlockComment_of_inside (by decide) (by decide) hinner ?_
  rw [hbody, List.forall₂_map_left_iff, List.forall₂_map_right_iff]
  exact List.forall₂_same.mpr fun line _ => (parted_splitCommentEnds line.toList).trimEnd

end Lines

/-- Single lines come out as one block comment that shows them. -/
theorem isBlockComment_blockComment (width : Nat) {docs : List String} (hdocs : docs ≠ [])
    (hsingle : ∀ line ∈ docs, SingleLine line) :
    IsBlockComment width (docs.map String.toList)
      (unlines (blockComment (String.ofList (List.replicate width ' ')) docs)).toList := by
  match docs with
  | [] => exact absurd rfl hdocs
  | [line] => exact isBlockComment_single width (hsingle line List.mem_cons_self)
  | first :: second :: others => exact isBlockComment_several width (by simp) hsingle

/-! ## Doc lines -/

/-- What a doc comment is to show: the lines of its text, and a line for the default value. -/
def shownLines (doc? : Option String) (default? : Option Literal) : List (List Char) :=
  doc?.elim [] (fun doc => lines doc.toList) ++
    default?.elim [] fun value => ["Default: ".toList ++ value.shown.toList]

/-- The doc lines are these lines up to the blanks at their ends. -/
theorem map_trimEnd_docLines (doc? : Option String) (default? : Option Literal) :
    (docLines doc? default?).map (fun line => trimEnd line.toList) =
      (shownLines doc? default?).map trimEnd := by
  unfold docLines shownLines
  rw [List.map_append, List.map_append]
  congr 1
  · cases doc? with
    | none => rfl
    | some doc => simp [Text.trimEnd_trimEnd]
  · cases default? with
    | none => rfl
    | some value => simp

/-- Doc lines are single lines. -/
theorem singleLine_docLines {doc? : Option String} {default? : Option Literal} {line : String}
    (h : line ∈ docLines doc? default?) : SingleLine line := by
  rcases List.mem_append.mp h with h | h
  · cases doc? with
    | none => exact absurd h List.not_mem_nil
    | some doc =>
      obtain ⟨source, hsource, rfl⟩ := List.mem_map.mp h
      rw [Text.singleLine_ofList_iff]
      exact fun hfeed => (Text.mem_of_mem_lines hsource (Text.mem_of_mem_trimEnd hfeed)).2 rfl
  · cases default? with
    | none => exact absurd h List.not_mem_nil
    | some value =>
      obtain rfl := List.mem_singleton.mp h
      exact (by decide : SingleLine "Default: ").append value.singleLine_shown

/-- Doc lines come out as nothing if there is nothing to show, and as one block comment that shows
it otherwise. -/
theorem blockComment_docLines (doc? : Option String) (default? : Option Literal) (width : Nat) :
    let text := (unlines (blockComment (String.ofList (List.replicate width ' '))
      (docLines doc? default?))).toList
    (shownLines doc? default? = [] ∧ text = []) ∨
    IsBlockComment width (shownLines doc? default?) text := by
  intro text
  have hshown := map_trimEnd_docLines doc? default?
  by_cases hdocs : docLines doc? default? = []
  · rw [hdocs, List.map_nil, eq_comm, List.map_eq_nil_iff] at hshown
    exact .inl ⟨hshown, by simp only [text, hdocs]; rfl⟩
  · have hcomment :=
      isBlockComment_blockComment width hdocs fun line hline => singleLine_docLines hline
    have hbody : List.Forall₂ (fun line shown => Parted line (trimEnd shown))
        ((shownLines doc? default?).map trimEnd) (bodyLines (insideComment text)) :=
      hshown ▸ List.forall₂_map_left_iff.mpr (List.forall₂_map_left_iff.mp hcomment.body)
    exact .inr ⟨hcomment.opens, hcomment.closes, hcomment.once, List.forall₂_map_left_iff.mp hbody⟩

end SchemaBindings.Bindings
