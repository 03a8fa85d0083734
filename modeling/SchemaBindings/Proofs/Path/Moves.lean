import Mathlib.Data.List.DropRight
import SchemaBindings.Proofs.Path.Around

/-!
# The moves of a path

The pieces of a path that are neither empty nor a dot are its moves: a name leads into what it
names, two dots lead out again. The path around a path makes all of its moves but the last one, and
so does the directory that a hidden directory is made in.
-/

namespace SchemaBindings.Path

/-! ## Moves -/

/-- Whether a piece leads nowhere else. -/
def blank (piece : String) : Bool :=
  piece = "" ∨ piece = "."

/-- The moves among some pieces. -/
def movesOf (pieces : List String) : List String :=
  pieces.filter fun piece => !blank piece

/-- The moves of a path. -/
def moves (path : Path) : List String :=
  movesOf path.pieces

/-- What a move means. -/
def meaning (move : String) : Component :=
  if move = ".." then .up else .name move

/-- A piece is blank exactly if it is empty or means the directory that it stands in. -/
theorem blank_iff (piece : String) : blank piece = true ↔ piece = "" ∨ piece = "." :=
  decide_eq_true_iff

/-- The moves of pieces are those of the first ones and those of the others. -/
@[simp] theorem movesOf_append (front behind : List String) :
    movesOf (front ++ behind) = movesOf front ++ movesOf behind :=
  List.filter_append ..

/-- No pieces make no moves. -/
@[simp] theorem movesOf_nil : movesOf [] = [] := rfl

/-- A blank piece makes no move. -/
theorem movesOf_cons_blank {piece : String} (h : blank piece = true) (rest : List String) :
    movesOf (piece :: rest) = movesOf rest :=
  List.filter_cons_of_neg (by simp [h])

/-- A piece that is not blank is a move. -/
theorem movesOf_cons_move {piece : String} (h : blank piece = false) (rest : List String) :
    movesOf (piece :: rest) = piece :: movesOf rest :=
  List.filter_cons_of_pos (by simp [h])

/-- Pieces that all lead nowhere else make no moves. -/
theorem movesOf_eq_nil {pieces : List String} (h : ∀ piece ∈ pieces, blank piece = true) :
    movesOf pieces = [] :=
  List.filter_eq_nil_iff.mpr fun piece hpiece => by simp [h piece hpiece]

/-- Moves are no blank pieces. -/
theorem not_blank_of_mem_movesOf {pieces : List String} {move : String}
    (h : move ∈ movesOf pieces) :
    blank move = false := by
  simpa using (List.mem_filter.mp h).2

/-- Only blank pieces follow the last move. -/
theorem exists_pieces_of_movesOf {pieces before : List String} {last : String}
    (h : movesOf pieces = before ++ [last]) :
    ∃ front tail, pieces = front ++ last :: tail ∧ movesOf front = before ∧
      ∀ piece ∈ tail, blank piece = true := by
  obtain ⟨front, behind, rfl, hfront, hbehind⟩ := List.filter_eq_append_iff.mp h
  obtain ⟨skipped, tail, rfl, hskipped, -, htail⟩ := List.filter_eq_cons_iff.mp hbehind
  refine ⟨front ++ skipped, tail, (List.append_assoc ..).symm, ?_, fun piece hpiece => ?_⟩
  · rw [movesOf_append, movesOf, hfront, movesOf_eq_nil, List.append_nil]
    simpa using hskipped
  · simpa using List.filter_eq_nil_iff.mp htail piece hpiece

/-! ## Components -/

/-- An inner piece means what it does as a move, or nothing. -/
theorem component?_inner (piece : String) :
    (Part.inner piece).component? = if blank piece then none else some (meaning piece) := by
  unfold Part.inner blank meaning
  by_cases hblank : piece = "" ∨ piece = "."
  · simp [hblank]
  · by_cases hup : piece = ".." <;> simp [hblank, hup]

/-- A first piece that is a move means what it does as a move. -/
theorem component?_first {piece : String} (h : blank piece = false) (slashFollows : Bool) :
    (Part.first piece slashFollows).component? = some (meaning piece) := by
  have hblank : ¬(piece = "" ∨ piece = ".") :=
    fun hblank => by simp [(blank_iff piece).mpr hblank] at h
  have hfirst : Part.first piece slashFollows = .inner piece := by
    rw [Part.first, if_neg (not_or.mp hblank).1, if_neg (not_or.mp hblank).2]
  rw [hfirst, component?_inner, if_neg (by simp [h])]

/-- A path makes its moves from the root, or else from a dot or from nothing. -/
theorem components_cases (path : Path) :
    (path.isAbsolute = true ∧ path.components = .root :: path.moves.map meaning) ∨
      (path.isAbsolute = false ∧ (path.components = path.moves.map meaning ∨
        path.components = .here :: path.moves.map meaning)) := by
  obtain ⟨first, rest, hpieces⟩ := List.exists_cons_of_ne_nil path.pieces_ne_nil
  have hrest : (rest.map Part.inner).filterMap Part.component? = (movesOf rest).map meaning := by
    rw [List.filterMap_map, movesOf, ← List.filterMap_eq_map, List.filterMap_filter]
    refine List.filterMap_congr fun piece _ => ?_
    cases h : blank piece <;> simp [component?_inner, h]
  have habsolute : path.isAbsolute = true ↔ first = "" ∧ rest ≠ [] := by
    rw [isAbsolute_iff, hpieces]
    cases rest <;> simp
  rw [← Bool.not_eq_true, habsolute, components, parts, moves, hpieces, List.filterMap_cons, hrest]
  cases hblank : blank first with
  | false =>
    have hfirst : first ≠ "" := fun hempty => by simp [blank, hempty] at hblank
    simp [component?_first hblank, movesOf_cons_move hblank, hfirst]
  | true =>
    rw [movesOf_cons_blank hblank]
    rcases (blank_iff first).mp hblank with rfl | rfl
    · cases rest <;> simp [Part.first]
    · simp [Part.first]

/-! ## The path around -/

/-- Whether no blank piece is at the end of a path, unless it makes no moves. -/
def Bare (path : Path) : Prop :=
  path.moves = [] ∨ ∃ front last, path.pieces = front ++ [last] ∧ blank last = false

/-- The last move of a bare path is its last piece. -/
theorem Bare.pieces_eq {path : Path} (hbare : path.Bare) {before : List String} {last : String}
    (h : path.moves = before ++ [last]) :
    ∃ front, path.pieces = front ++ [last] ∧ movesOf front = before ∧ blank last = false := by
  rcases hbare with hnil | ⟨front, piece, hpieces, hblank⟩
  · simp [hnil] at h
  · rw [moves, hpieces, movesOf_append, movesOf_cons_move hblank, movesOf_nil] at h
    obtain ⟨hfront, hpiece⟩ := List.append_inj' h rfl
    obtain rfl := (List.cons.inj hpiece).1
    exact ⟨front, hpieces, hfront, hblank⟩

/-- The text of a path is put together from its pieces. -/
theorem text_eq_intercalate (path : Path) : path.text = String.intercalate "/" path.pieces := by
  have hslash : "/".toList = ['/'] := rfl
  rw [← String.toList_inj, String.toList_intercalate, pieces, List.map_map,
    split_eq_splitOn, hslash]
  have hid : String.toList ∘ String.ofList = id := funext fun _ => String.toList_ofList
  rw [hid, List.map_id, List.intercalate_splitOn]

/-- Of texts that are put together, the first ones make up the beginning. -/
theorem intercalate_below {α : Type} (separator : List α) {texts more : List (List α)}
    (h : texts <+: more) :
    separator.intercalate texts <+: separator.intercalate more := by
  obtain ⟨rest, rfl⟩ := h
  induction texts with
  | nil => exact List.nil_prefix
  | cons text texts ih =>
    cases texts with
    | nil =>
      cases rest with
      | nil => exact List.prefix_rfl
      | cons next rest =>
        rw [List.singleton_append, List.intercalate_cons_cons, List.intercalate_singleton,
          List.append_assoc]
        exact List.prefix_append _ _
    | cons next texts =>
      rw [List.cons_append, List.cons_append, List.intercalate_cons_cons,
        List.intercalate_cons_cons, List.prefix_append_right_inj]
      exact ih

/-- A part without a meaning is a blank piece. -/
theorem blank_of_component?_eq_none {path : Path} {part : Part} (hpart : part ∈ path.parts)
    (h : part.component? = none) : blank part.text = true := by
  obtain ⟨first, rest, hpieces⟩ := List.exists_cons_of_ne_nil path.pieces_ne_nil
  rw [parts, hpieces, List.mem_cons, List.mem_map] at hpart
  rcases hpart with rfl | ⟨piece, -, rfl⟩
  · by_contra hblank
    have hfirst : (Part.first first (!rest.isEmpty)).text = first := by
      unfold Part.first Part.inner
      split_ifs <;> rfl
    rw [hfirst, Bool.not_eq_true] at hblank
    rw [component?_first hblank] at h
    contradiction
  · by_contra hblank
    have hmove : ¬ blank piece = true := hblank
    rw [component?_inner, if_neg hmove] at h
    contradiction

/-- A blank piece that has a meaning as a part is the first one. -/
theorem eq_nil_of_blank {path : Path} {before behind : List Part} {part : Part}
    (hparts : path.parts = before ++ part :: behind) (hblank : blank part.text = true)
    (h : part.component?.isSome = true) : before = [] := by
  obtain ⟨first, rest, hpieces⟩ := List.exists_cons_of_ne_nil path.pieces_ne_nil
  rw [parts, hpieces] at hparts
  cases before with
  | nil => rfl
  | cons other before =>
    have hpart : part ∈ rest.map Part.inner := by
      rw [(List.cons.inj hparts).2]
      simp
    obtain ⟨piece, -, rfl⟩ := List.mem_map.mp hpart
    have hempty : blank piece = true := hblank
    rw [component?_inner, if_pos hempty] at h
    contradiction

/-- A path that is written as the first parts of another one has their texts as its pieces, unless
that is the root or nothing. -/
theorem pieces_ofParts {path : Path} {parts : List Part} (h : parts <+: path.parts)
    (hne : parts ≠ []) (hroot : parts ≠ [⟨"", some .root⟩]) :
    (ofParts parts).pieces = parts.map Part.text := by
  rw [ofParts, if_neg hroot]
  refine pieces_intercalate (by simpa using hne) fun text htext => ?_
  have hpiece : text ∈ path.pieces := by
    rw [← map_text_parts]
    exact (h.map Part.text).subset htext
  exact no_slash_of_mem_pieces hpiece

/-- The moves of such a path are those among the texts of the parts. -/
theorem moves_ofParts {path : Path} {parts : List Part} (h : parts <+: path.parts) :
    (ofParts parts).moves = movesOf (parts.map Part.text) := by
  by_cases hroot : parts = [⟨"", some .root⟩]
  · rw [hroot]
    decide +kernel
  by_cases hne : parts = []
  · rw [hne]
    decide +kernel
  · rw [moves, pieces_ofParts h hne hroot]

/-- The text of such a path is the beginning of that of the other one. -/
theorem text_ofParts_below {path : Path} {parts : List Part} (h : parts <+: path.parts) :
    (ofParts parts).text.toList <+: path.text.toList := by
  by_cases hroot : parts = [⟨"", some .root⟩]
  · obtain ⟨rest, hrest⟩ :=
      List.head?_eq_some_iff.mp (of_decide_eq_true (isAbsolute_of_root_below (hroot ▸ h)))
    rw [ofParts, if_pos hroot, hrest]
    exact ⟨rest, rfl⟩
  · rw [ofParts, if_neg hroot, path.text_eq_intercalate, String.toList_intercalate,
      String.toList_intercalate, ← map_text_parts]
    exact intercalate_below _ ((h.map Part.text).map String.toList)

/-- Whether a path is around another one: it starts where the other does and makes all of its moves
but the last one. -/
structure Around (parent path : Path) : Prop where
  bare : parent.Bare
  text_below : parent.text.toList <+: path.text.toList
  isAbsolute_eq : parent.isAbsolute = path.isAbsolute
  moves_eq : (path.moves = [] ∧ parent.moves = []) ∨ ∃ last, path.moves = parent.moves ++ [last]

/-- Parts up to the last one that means something. -/
def upToMeaning (parts : List Part) : List Part :=
  parts.rdropWhile fun part => part.component?.isNone

/-- What follows the last part that means something makes no moves. -/
theorem movesOf_upToMeaning {path : Path} {parts : List Part} (h : parts <+: path.parts) :
    movesOf (parts.map Part.text) = movesOf ((upToMeaning parts).map Part.text) := by
  let unmeant : Part → Bool := fun part => part.component?.isNone
  have hsplit : upToMeaning parts ++ parts.rtakeWhile unmeant = parts :=
    List.rdropWhile_append_rtakeWhile
  have htail : movesOf ((parts.rtakeWhile unmeant).map Part.text) = [] := by
    refine movesOf_eq_nil fun piece hpiece => ?_
    obtain ⟨part, hpart, rfl⟩ := List.mem_map.mp hpiece
    have hmem : part ∈ path.parts := h.subset ((List.rtakeWhile_suffix unmeant parts).subset hpart)
    have hunmeant : unmeant part = true := List.mem_rtakeWhile_imp hpart
    exact blank_of_component?_eq_none hmem (by simpa [unmeant] using hunmeant)
  conv_lhs => rw [← hsplit]
  rw [List.map_append, movesOf_append, htail, List.append_nil]

/-- The last of such parts means something. -/
theorem isSome_of_upToMeaning {parts front : List Part} {last : Part}
    (h : upToMeaning parts = front ++ [last]) :
    last.component?.isSome = true := by
  have hlast : ∀ hne : upToMeaning parts ≠ [],
      ¬ ((upToMeaning parts).getLast hne).component?.isNone = true :=
    List.rdropWhile_last_not _ parts
  rw [h] at hlast
  simpa [Option.isSome_iff_ne_none] using hlast (by simp)

/-- What is left of a path without its last component is written as the parts up to the last one in
front of it that means something. -/
theorem exists_of_parent? {path parent : Path} (h : path.parent? = some parent) :
    ∃ front last, upToMeaning path.parts = front ++ [last] ∧ last.component? ≠ some .root ∧
      parent = ofParts (upToMeaning front) := by
  unfold parent? at h
  split at h
  · contradiction
  · next last before hlast =>
    split at h
    · contradiction
    · next hroot =>
      refine ⟨before.reverse, last, ?_, hroot, ?_⟩
      · rw [upToMeaning, List.rdropWhile, hlast, List.reverse_cons]
      · rw [← Option.some.inj h, upToMeaning, List.rdropWhile_reverse]

/-- A path that starts at the root has it as its first part. -/
theorem root_below_parts {path : Path} (h : path.isAbsolute = true) :
    [⟨"", some .root⟩] <+: path.parts := by
  obtain ⟨next, others, hpieces⟩ := path.isAbsolute_iff.mp h
  rw [parts, hpieces]
  exact ⟨_, rfl⟩

/-- Where parts are left, something is written. -/
theorem text_ofParts_ne {path : Path} {kept : List Part} (h : upToMeaning kept <+: path.parts)
    (hne : upToMeaning kept ≠ []) : (ofParts (upToMeaning kept)).text ≠ "" := by
  intro hempty
  by_cases hroot : upToMeaning kept = [⟨"", some .root⟩]
  · rw [ofParts, if_pos hroot] at hempty
    contradiction
  have hpieces := pieces_ofParts h hne hroot
  rw [pieces, hempty] at hpieces
  obtain ⟨part, hpart, htext⟩ := List.map_eq_singleton_iff.mp hpieces.symm
  have hlast : upToMeaning kept = [] ++ [part] := hpart
  have hmeaning := isSome_of_upToMeaning hlast
  obtain ⟨behind, hbehind⟩ := h
  obtain ⟨first, rest, hfirst⟩ := List.exists_cons_of_ne_nil path.pieces_ne_nil
  rw [hpart, parts, hfirst, List.singleton_append] at hbehind
  obtain rfl := (List.cons.inj hbehind).1
  have hblank : first = "" := by
    unfold Part.first Part.inner at htext
    split_ifs at htext <;> simp_all
  cases hslash : rest.isEmpty <;> simp_all [Part.first]

/-- A path that is written as parts up to one that means something is bare. -/
theorem bare_ofParts {path : Path} {parts : List Part} (h : upToMeaning parts <+: path.parts) :
    (ofParts (upToMeaning parts)).Bare := by
  rcases List.eq_nil_or_concat (upToMeaning parts) with hnil | ⟨front, last, hlast⟩
  · exact .inl (by rw [moves_ofParts h, hnil]; rfl)
  rw [List.concat_eq_append] at hlast
  cases hblank : blank last.text with
  | true =>
    obtain ⟨behind, hbehind⟩ := h
    rw [hlast, List.append_assoc, List.singleton_append, eq_comm] at hbehind
    obtain rfl := eq_nil_of_blank hbehind hblank (isSome_of_upToMeaning hlast)
    have hbelow : upToMeaning parts <+: path.parts := hlast ▸ ⟨behind, hbehind.symm⟩
    exact .inl (by rw [moves_ofParts hbelow, hlast]; simp [movesOf, hblank])
  | false =>
    refine .inr ⟨front.map Part.text, last.text, ?_, hblank⟩
    rw [pieces_ofParts h (by simp [hlast]) ?_, hlast, List.map_append, List.map_singleton]
    intro hroot
    have hsame : last = ⟨"", some .root⟩ := List.getLast?_eq_some_iff.mpr
      ⟨front, hlast⟩ |>.symm.trans (congrArg List.getLast? hroot) |> Option.some.inj
    simp [hsame, blank] at hblank

/-- What is left of a path without its last component is around it. -/
theorem around_of_parent? {path parent : Path} (h : path.parent? = some parent) :
    Around parent path := by
  have hway := onTheWay_parent h
  obtain ⟨front, last, hparts, hroot, rfl⟩ := exists_of_parent? h
  have htrimmed : front ++ [last] <+: path.parts := hparts ▸ List.rdropWhile_prefix _ _
  have hfront : front <+: path.parts := (List.prefix_append front [last]).trans htrimmed
  have hkept : upToMeaning front <+: path.parts := (List.rdropWhile_prefix _ _).trans hfront
  have hmoves : path.moves = movesOf (front.map Part.text) ++ movesOf [last.text] := by
    rw [moves, ← map_text_parts, movesOf_upToMeaning List.prefix_rfl, hparts,
      List.map_append, movesOf_append]
    rfl
  have haround := moves_ofParts hkept
  rw [← movesOf_upToMeaning hfront] at haround
  have hmeaning := isSome_of_upToMeaning hparts
  refine ⟨bare_ofParts hkept, text_ofParts_below hkept, ?_, ?_⟩
  · rcases hway.start_eq with hempty | ⟨hsame, -⟩
    · have hrelative : path.isAbsolute = false := by
        by_contra habsolute
        obtain ⟨behind, hbehind⟩ := root_below_parts ((Bool.not_eq_false _).mp habsolute)
        refine text_ofParts_ne hkept (fun hnil => ?_) hempty
        obtain ⟨tail, htail⟩ := htrimmed
        rw [← hbehind, List.append_assoc] at htail
        cases front with
        | nil => exact hroot (congrArg Part.component? (List.cons.inj htail).1)
        | cons first front =>
          have hfirst := List.rdropWhile_eq_nil_iff.mp hnil first List.mem_cons_self
          rw [(List.cons.inj htail).1] at hfirst
          contradiction
      rw [hrelative]
      simp [isAbsolute, hempty]
    · exact hsame
  · cases hblank : blank last.text with
    | false => exact .inr ⟨last.text, by rw [hmoves, haround]; simp [movesOf, hblank]⟩
    | true =>
      obtain ⟨behind, hbehind⟩ := htrimmed
      rw [List.append_assoc, List.singleton_append, eq_comm] at hbehind
      obtain rfl := eq_nil_of_blank hbehind hblank hmeaning
      exact .inl ⟨by rw [hmoves]; simp [movesOf, hblank], by rw [haround]; rfl⟩

/-- A path that makes moves has another one around it. -/
theorem exists_parent? {path : Path} (h : path.moves ≠ []) :
    ∃ parent, path.parent? = some parent := by
  unfold parent?
  have hmoves : path.moves = movesOf ((upToMeaning path.parts).map Part.text) := by
    rw [moves, ← map_text_parts, movesOf_upToMeaning List.prefix_rfl]
  rw [upToMeaning, List.rdropWhile] at hmoves
  split
  · next hnil =>
    rw [hnil] at hmoves
    exact absurd hmoves h
  · next last before hlast =>
    rw [if_neg]
    · exact ⟨_, rfl⟩
    intro hroot
    obtain ⟨tail, htail⟩ : before.reverse ++ [last] <+: path.parts := by
      rw [← List.reverse_cons, ← hlast]
      exact List.rdropWhile_prefix _ path.parts
    obtain ⟨first, rest, hpieces⟩ := List.exists_cons_of_ne_nil path.pieces_ne_nil
    rw [parts, hpieces, List.append_assoc, List.singleton_append] at htail
    cases hbefore : before.reverse with
    | nil =>
      rw [hbefore] at htail
      have hfirst := (List.cons.inj htail).1
      rw [hfirst, component?_first_eq_root_iff] at hroot
      refine h ?_
      rw [hmoves, hlast, List.reverse_cons, hbefore, hfirst, hroot.1]
      rfl
    | cons other others =>
      have hlater : last ∈ rest.map Part.inner := by
        rw [hbefore] at htail
        rw [← (List.cons.inj htail).2]
        simp
      obtain ⟨piece, -, rfl⟩ := List.mem_map.mp hlater
      exact component?_inner_ne_root piece hroot

/-- The paths around a path start with itself. -/
theorem exists_ancestors (path : Path) : ∃ outer, path.ancestors = path :: outer := by
  unfold ancestors
  cases path.parts.length <;> exact ⟨_, rfl⟩

open SchemaBindings.Bindings (surroundings)

/-- The directory around an output directory makes all moves but the last one, from the same
start. -/
theorem around_surroundings (out : Path) : (surroundings out).text ≠ "" ∧ (surroundings out).Bare ∧
    ((out.moves = [] ∧ (surroundings out).moves = []) ∨
      ((surroundings out).isAbsolute = out.isAbsolute ∧
      ∃ last, out.moves = (surroundings out).moves ++ [last])) := by
  have hdot : (Path.mk ".").moves = [] ∧ (Path.mk ".").isAbsolute = false := by decide +kernel
  cases hparent : out.parent? with
  | none =>
    have hhere : surroundings out = ⟨"."⟩ := by simp [surroundings, hparent]
    rw [hhere]
    refine ⟨by decide, .inl hdot.1, .inl ⟨?_, hdot.1⟩⟩
    by_contra hmoves
    obtain ⟨parent, hsome⟩ := exists_parent? hmoves
    rw [hparent] at hsome
    contradiction
  | some parent =>
    have haround := around_of_parent? hparent
    by_cases hempty : parent.text = ""
    · have hhere : surroundings out = ⟨"."⟩ := by simp [surroundings, hparent, hempty]
      have hparentmoves : parent.moves = [] := by rw [moves, pieces, hempty]; rfl
      have hparentrelative : parent.isAbsolute = false := by simp [isAbsolute, hempty]
      rw [hhere]
      refine ⟨by decide, .inl hdot.1, ?_⟩
      rw [hdot.1, hdot.2, ← haround.isAbsolute_eq, hparentrelative]
      have hmoves := haround.moves_eq
      rw [hparentmoves] at hmoves
      exact hmoves.imp (fun h => ⟨h.1, rfl⟩) fun h => ⟨rfl, h⟩
    · have hsame : surroundings out = parent := by simp [surroundings, hparent, hempty]
      rw [hsame]
      exact ⟨hempty, haround.bare, haround.moves_eq.imp_right fun h => ⟨haround.isAbsolute_eq, h⟩⟩

/-! ## Names at the end -/

/-- In front of a path below it, a path makes all of its moves. -/
theorem movesOf_front (base : Path) : movesOf base.front = base.moves := by
  rcases base.pieces_eq_front with h | h
  · rw [moves, h]
  · rw [moves, h, movesOf_append]
    simp [movesOf, blank]

/-- A name that is joined to a path is its last move. -/
theorem moves_join (base : Path) {name : String} (hname : blank name = false)
    (hslash : '/' ∉ name.toList) :
    (base.join ⟨name⟩).moves = base.moves ++ [name] := by
  rw [moves, pieces_join base (isAbsolute_of_no_slash hslash), pieces_of_no_slash hslash,
    movesOf_append, movesOf_front]
  simp [movesOf, hname]

/-- The text of a path that a name is joined to is that of the path and the name, with or without a
slash in between. -/
theorem text_join (base : Path) {name : String} (hslash : '/' ∉ name.toList) :
    (base.join ⟨name⟩).text = base.text ++ name ∨
    (base.join ⟨name⟩).text = base.text ++ "/" ++ name := by
  unfold join
  rw [isAbsolute_of_no_slash hslash, Bool.false_or]
  split
  · next hempty =>
    rw [String.isEmpty_iff.mp hempty]
    exact .inl (String.empty_append).symm
  · split
    · exact .inl rfl
    · exact .inr rfl

end SchemaBindings.Path
