import SchemaBindings.Proofs.Glob.Escaping
import SchemaBindings.Proofs.Glob.Level

/-!
# Globs below an escaped path

The steps of a pattern below an escaped path are those along the pieces of the path, and behind them
the steps of the pattern on its own. The first ones lead to one path only, whatever is in the tree.
-/

namespace SchemaBindings.Glob

open SchemaBindings.Path (split)

/-! ## Pieces -/

/-- Characters in front of a text, none of them a slash, are part of its first piece. -/
theorem split_append_of_no_slash {front : List Char} (h : '/' ∉ front) (text : List Char) :
    split (front ++ text) = (split text).modifyHead (front ++ ·) := by
  obtain ⟨first, others, hsplit⟩ :=
    List.exists_cons_of_ne_nil (Path.split_eq_splitOn text ▸ List.splitOn_ne_nil '/' text)
  induction front with
  | nil => simp [hsplit]
  | cons c front ih =>
    rw [List.mem_cons, not_or] at h
    rw [List.cons_append, split, if_neg (Ne.symm h.1), ih h.2, hsplit]
    rfl

/-- A slash is no wildcard. -/
theorem isWildcard_slash : isWildcard '/' = false := by decide

/-- An escaped text has the escaped pieces of the text. -/
theorem split_escape (text : List Char) : split (escape text) = (split text).map escape := by
  induction text with
  | nil => rfl
  | cons c text ih =>
    by_cases hslash : c = '/'
    · rw [hslash, escape_cons, isWildcard_slash]
      simp only [Bool.false_eq_true, if_false, List.cons_append, List.nil_append, split,
        if_true, List.map_cons, ih]
      rfl
    · obtain ⟨first, others, hsplit⟩ :=
        List.exists_cons_of_ne_nil (Path.split_eq_splitOn text ▸ List.splitOn_ne_nil '/' text)
      have hfront : '/' ∉ (if isWildcard c then ['[', c, ']'] else [c]) := by
        split <;> simp [Ne.symm hslash]
      rw [escape_cons, split_append_of_no_slash hfront, ih, hsplit, split, if_neg hslash, hsplit]
      simp only [List.map_cons, List.modifyHead_cons, escape_cons]

/-- No piece has a slash. -/
theorem no_slash_of_mem_split {text piece : List Char} (h : piece ∈ split text) : '/' ∉ piece :=
  Text.not_mem_of_mem_splitOn (Path.split_eq_splitOn text ▸ h)

/-- Trimming an escaped text at its end trims the text. -/
theorem rdropWhile_escape (text : List Char) :
    (escape text).rdropWhile (fun c => decide (c = '/')) =
      escape (text.rdropWhile fun c => decide (c = '/')) := by
  induction text using List.reverseRecOn with
  | nil => rfl
  | append_singleton text c ih =>
    have happend : escape (text ++ [c]) = escape text ++ escape [c] := List.flatMap_append ..
    by_cases hslash : c = '/'
    · have hlast : escape [c] = ['/'] := by rw [hslash]; rfl
      rw [happend, hlast, List.rdropWhile_concat_pos _ _ _ (by simp), ih, List.rdropWhile_concat_pos
        _ _ _ (by simp [hslash])]
    · obtain ⟨front, last, hescape, hne⟩ : ∃ front last, escape [c] = front ++ [last] ∧
        last ≠ '/' := by
        rw [escape_cons]
        cases isWildcard c with
        | true => exact ⟨['[', c], ']', rfl, by decide⟩
        | false => exact ⟨[], c, rfl, hslash⟩
      rw [List.rdropWhile_concat_neg _ _ _ (by simp [hslash]), happend,
        hescape, ← List.append_assoc, List.rdropWhile_concat_neg _ _ _ (by simp [hne])]

/-! ## Steps -/

/-- Dropping repeats of any depth keeps every step. -/
theorem mem_collapse_iff (step : Step) (steps : List Step) :
    step ∈ Step.collapse steps ↔ step ∈ steps := by
  fun_induction Step.collapse steps with
  | case1 rest ih => simp [ih]
  | case2 first rest _ ih => simp [ih]
  | case3 => rfl

/-- Steps other than any depth stay as they are. -/
theorem collapse_append {front : List Step} (h : Step.anyDepth ∉ front) (rest : List Step) :
    Step.collapse (front ++ rest) = front ++ Step.collapse rest := by
  induction front with
  | nil => rfl
  | cons step front ih =>
    rw [List.mem_cons, not_or] at h
    cases step with
    | anyDepth => exact absurd rfl h.1
    | literal name => rw [List.cons_append, Step.collapse, ih h.2, List.cons_append]; simp
    | pattern tokens => rw [List.cons_append, Step.collapse, ih h.2, List.cons_append]; simp

/-- The pieces without an empty one at the end. -/
def countedPieces (pieces : List (List Char)) : List (List Char) :=
  if pieces.getLast? = some [] then pieces.dropLast else pieces

/-- The steps of a text are read from those of its pieces that count. -/
theorem steps?_eq (text : List Char) : steps? text =
    ((countedPieces (split text)).mapM (readTokens true)).map
      fun tokens => Step.collapse (tokens.map .ofTokens) := rfl

/-- Whether a piece counts does not depend on the pieces in front of it. -/
theorem countedPieces_append (front : List (List Char)) {pieces : List (List Char)}
    (h : pieces ≠ []) :
    countedPieces (front ++ pieces) = front ++ countedPieces pieces := by
  unfold countedPieces
  rw [List.getLast?_append_of_ne_nil _ h, List.dropLast_append_of_ne_nil h]
  split <;> rfl

/-- A piece that counts is one of the pieces. -/
theorem mem_of_mem_countedPieces {pieces : List (List Char)} {piece : List Char}
    (h : piece ∈ countedPieces pieces) :
    piece ∈ pieces := by
  unfold countedPieces at h
  split at h
  · exact List.mem_of_mem_dropLast h
  · exact h

/-- What a list of pieces is read as comes from reading one of them. -/
theorem exists_of_mem_mapM {pieces : List (List Char)} {read : List (List Token)}
    (h : pieces.mapM (readTokens true) = .ok read) {tokens : List Token} (hmem : tokens ∈ read) :
    ∃ piece ∈ pieces, readTokens true piece = .ok tokens := by
  induction pieces generalizing read with
  | nil =>
    cases h
    simp at hmem
  | cons piece pieces ih =>
    rw [List.mapM_cons] at h
    cases hpiece : readTokens true piece with
    | error fault => simp [hpiece, bind, Except.bind] at h
    | ok first =>
      cases hrest : pieces.mapM (readTokens true) with
      | error fault => simp [hpiece, hrest, bind, Except.bind] at h
      | ok others =>
        simp only [hpiece, hrest, bind, Except.bind, pure, Except.pure, Except.ok.injEq] at h
        subst h
        rcases List.mem_cons.mp hmem with rfl | hmem
        · exact ⟨piece, List.mem_cons_self, hpiece⟩
        · obtain ⟨other, hother, hread⟩ := ih hrest hmem
          exact ⟨other, List.mem_cons_of_mem piece hother, hread⟩

/-- The steps of a text are single pieces. -/
theorem isPiece_of_steps? {text : List Char} {steps : List Step} (h : steps? text = .ok steps) :
    ∀ step ∈ steps, step.IsPiece := by
  intro step hstep
  rw [steps?_eq] at h
  cases hread : (countedPieces (split text)).mapM (readTokens true) with
  | error fault => simp [hread, Except.map] at h
  | ok read =>
    rw [hread] at h
    rw [← Except.ok.inj h, mem_collapse_iff] at hstep
    obtain ⟨tokens, htokens, rfl⟩ := List.mem_map.mp hstep
    obtain ⟨piece, hpiece, hpieceRead⟩ := exists_of_mem_mapM hread htokens
    unfold Step.ofTokens
    split
    · trivial
    · split
      · next name hname =>
        rw [Step.IsPiece, String.toList_ofList, ← eq_of_mapM_char? hpieceRead hname]
        exact no_slash_of_mem_split (mem_of_mem_countedPieces hpiece)
      · trivial

/-- The steps along escaped pieces. -/
def escapedSteps (pieces : List (List Char)) : List Step :=
  pieces.map fun piece => .ofTokens (piece.map escapedToken)

/-- No step of an escaped text leads to any depth. -/
theorem anyDepth_not_mem_escapedSteps (pieces : List (List Char)) :
    Step.anyDepth ∉ escapedSteps pieces := by
  intro h
  obtain ⟨piece, -, hpiece⟩ := List.mem_map.mp h
  rw [ofTokens_escaped] at hpiece
  split at hpiece <;> contradiction

/-- Escaped pieces are read as one token for each character. -/
theorem mapM_readTokens_escape {pieces : List (List Char)} (h : ∀ piece ∈ pieces, '/' ∉ piece) :
    (pieces.map escape).mapM (readTokens true) =
      .ok (pieces.map fun piece => piece.map escapedToken) := by
  induction pieces with
  | nil => rfl
  | cons piece pieces ih =>
    rw [List.forall_mem_cons] at h
    rw [List.map_cons, List.mapM_cons, readTokens_escape h.1, ih h.2]
    rfl

/-- Behind an escaped text, the steps of a pattern are those along the text, and then its own. -/
theorem steps?_escape_append {text pattern : List Char} {steps : List Step}
    (h : steps? (escape text ++ '/' :: pattern) = .ok steps) :
    ∃ rest, steps? pattern = .ok rest ∧ steps = escapedSteps (split text) ++ rest := by
  have hne : split pattern ≠ [] := Path.split_eq_splitOn pattern ▸ List.splitOn_ne_nil '/' pattern
  rw [steps?_eq, Path.split_append_slash, split_escape, countedPieces_append _ hne,
    List.mapM_append, mapM_readTokens_escape fun piece => no_slash_of_mem_split] at h
  cases hpattern : (countedPieces (split pattern)).mapM (readTokens true) with
  | error fault => simp [hpattern, bind, Except.bind, Except.map] at h
  | ok read =>
    simp only [hpattern, bind, Except.bind, pure, Except.pure, Except.map, Except.ok.injEq] at h
    refine ⟨_, by rw [steps?_eq, hpattern]; rfl, ?_⟩
    rw [← h, List.map_append, List.map_map]
    exact collapse_append (anyDepth_not_mem_escapedSteps _) _

/-- How a text is read as a glob. -/
theorem ofText_eq_ok {text : List Char} {glob : Glob} (h : ofText text = .ok glob) :
    (text = ['/'] ∧ glob.absolute = true ∧ glob.steps = [.literal ""]) ∨
      (∃ rest, text = '/' :: rest ∧ rest ≠ [] ∧ glob.absolute = true ∧
        steps? rest = .ok glob.steps) ∨
        (text.head? ≠ some '/' ∧ glob.absolute = false ∧ steps? text = .ok glob.steps) := by
  have hsteps {absolute only : Bool} {text : List Char}
      (h : (steps? text >>= fun steps => pure (Glob.mk absolute steps only)) = .ok glob) :
      glob.absolute = absolute ∧ steps? text = .ok glob.steps := by
    cases hread : steps? text with
    | error fault => simp [hread, bind, Except.bind] at h
    | ok steps =>
      rw [hread] at h
      cases h
      exact ⟨rfl, rfl⟩
  unfold ofText at h
  cases hread : readTokens true text with
  | error fault => simp [hread, bind, Except.bind] at h
  | ok tokens =>
    rw [hread] at h
    dsimp only [bind, Except.bind] at h
    split at h
    · cases h
      exact .inl ⟨rfl, rfl, rfl⟩
    · next rest hne => exact .inr (.inl ⟨rest, rfl, by rintro rfl; exact hne rfl, hsteps h⟩)
    · next hroot hslash =>
      refine .inr (.inr ⟨fun hhead => ?_, hsteps h⟩)
      obtain ⟨rest, hrest⟩ := List.head?_eq_some_iff.mp hhead
      exact hslash rest hrest

/-- A glob that starts with a slash starts at the root. -/
theorem steps_of_slash {rest : List Char} {glob : Glob} (h : ofText ('/' :: rest) = .ok glob) :
    glob.absolute = true ∧
    (steps? rest = .ok glob.steps ∨ rest = [] ∧ glob.steps = [.literal ""]) := by
  rcases ofText_eq_ok h with ⟨htext, habsolute, hsteps⟩ | ⟨other, htext, -, habsolute, hsteps⟩ |
    ⟨hhead, -⟩
  · exact ⟨habsolute, .inr ⟨(List.cons.inj htext).2, hsteps⟩⟩
  · exact ⟨habsolute, .inl ((List.cons.inj htext).2 ▸ hsteps)⟩
  · exact absurd rfl hhead

/-- A glob that does not start with a slash does not start at the root. -/
theorem steps_of_relative {text : List Char} {glob : Glob} (hhead : text.head? ≠ some '/')
    (h : ofText text = .ok glob) :
    glob.absolute = false ∧ steps? text = .ok glob.steps := by
  rcases ofText_eq_ok h with ⟨rfl, -⟩ | ⟨rest, rfl, -⟩ | ⟨-, hsteps⟩
  · exact absurd rfl hhead
  · exact absurd rfl hhead
  · exact hsteps

/-! ## Along escaped pieces -/

/-- The path that pieces lead to. -/
def along (start : Path) (pieces : List (List Char)) : Path :=
  pieces.foldl (fun path piece => stepTo path (String.ofList piece)) start

/-- Steps along escaped pieces lead to the path of the pieces. -/
theorem Leads.of_escapedSteps {tree : FileTree} {cwd : Place} {pieces : List (List Char)}
    {rest : List Step} {path found : Path}
    (h : Leads tree cwd (escapedSteps pieces ++ rest) path found) :
    Leads tree cwd rest (along path pieces) found := by
  induction pieces generalizing path with
  | nil => exact h
  | cons piece pieces ih =>
    rw [escapedSteps, List.map_cons, List.cons_append] at h
    exact ih h.of_escaped

/-- The path along pieces is undotted if it starts so. -/
theorem undotted_along {start : Path} (hstart : start.Undotted) {pieces : List (List Char)}
    (h : ∀ piece ∈ pieces, '/' ∉ piece) : (along start pieces).Undotted := by
  induction pieces generalizing start with
  | nil => exact hstart
  | cons piece pieces ih =>
    rw [List.forall_mem_cons] at h
    refine ih (undotted_stepTo hstart ?_) h.2
    rw [String.toList_ofList]
    exact h.1

end SchemaBindings.Glob
