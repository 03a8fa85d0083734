import SchemaBindings.Bindings.WriteOut
import SchemaBindings.Proofs.Path.Pieces
import SchemaBindings.Proofs.Text.Split

/-!
# Paths around a path

What is left of a path without its last component starts with the same names. So do all paths around
it, from the inside out, and they start at the same place, down to the empty path.
-/

namespace SchemaBindings.Path

/-! ## Parts -/

/-- A path starts at the root exactly if nothing is in front of its first slash. -/
theorem isAbsolute_iff (path : Path) :
    path.isAbsolute = true ↔ ∃ next others, path.pieces = "" :: next :: others := by
  rw [isAbsolute, decide_eq_true_eq, pieces]
  cases path.text.toList with
  | nil => simp [split]
  | cons c rest =>
    obtain ⟨first, others, hsplit⟩ :=
      List.exists_cons_of_ne_nil (split_eq_splitOn rest ▸ List.splitOn_ne_nil '/' rest)
    by_cases hslash : c = '/'
    · simp [split, hslash, hsplit]
    · simp [split, hslash, hsplit]

/-- The parts of a path are its pieces with their meanings. -/
theorem map_text_parts (path : Path) : path.parts.map Part.text = path.pieces := by
  have hinner : ∀ piece, (Part.inner piece).text = piece := fun _ => rfl
  have hfirst : ∀ piece slashFollows, (Part.first piece slashFollows).text = piece := by
    intro piece slashFollows
    unfold Part.first
    split
    · rfl
    · split <;> rfl
  rw [parts]
  split
  · next hnil => exact hnil.symm
  · next first rest hpieces => simp [hfirst, hinner, hpieces, Function.comp_def]

/-- No piece of a path has a slash. -/
theorem no_slash_of_mem_pieces {path : Path} {piece : String} (h : piece ∈ path.pieces) :
    '/' ∉ piece.toList := by
  obtain ⟨part, hpart, rfl⟩ := List.mem_map.mp h
  rw [split_eq_splitOn] at hpart
  rw [String.toList_ofList]
  exact Text.not_mem_of_mem_splitOn hpart

/-- A text that is put together from pieces with slashes in between has these pieces. -/
theorem pieces_intercalate {texts : List String} (hne : texts ≠ [])
    (h : ∀ text ∈ texts, '/' ∉ text.toList) :
    (Path.mk (String.intercalate "/" texts)).pieces = texts := by
  have hslash : "/".toList = ['/'] := rfl
  rw [pieces, String.toList_intercalate, split_eq_splitOn, hslash, List.splitOn_intercalate]
  · simp
  · intro part hpart
    obtain ⟨text, htext, rfl⟩ := List.mem_map.mp hpart
    exact h text htext
  · simpa using hne

/-! ## Paths around -/

/-- Whether a path is on the way of another one: its names are the first ones of the other, and it
starts where the other does, unless it is empty. -/
structure OnTheWay (around path : Path) : Prop where
  names_below : around.names <+: path.names
  forward : path.Forward → around.Forward
  start_eq : around.text = "" ∨ (around.isAbsolute = path.isAbsolute ∧ path.text ≠ "")

/-- A path is on the way to itself. -/
theorem OnTheWay.refl (path : Path) : OnTheWay path path :=
  ⟨List.prefix_rfl, id, (eq_or_ne path.text "").imp_right fun hne => ⟨rfl, hne⟩⟩

/-- A path on the way to one that is on the way to a third one is on the way to the third one. -/
theorem OnTheWay.trans {inner path outer : Path} (hfirst : OnTheWay outer inner)
    (hsecond : OnTheWay inner path) :
    OnTheWay outer path := by
  refine ⟨hfirst.names_below.trans hsecond.names_below, hfirst.forward ∘ hsecond.forward, ?_⟩
  rcases hfirst.start_eq with hempty | ⟨hsame, hne⟩
  · exact .inl hempty
  · rcases hsecond.start_eq with hempty | ⟨heq, hpath⟩
    · exact absurd hempty hne
    · exact .inr ⟨hsame.trans heq, hpath⟩

/-- A first piece means the root exactly if nothing is in front of a slash. -/
theorem component?_first_eq_root_iff (piece : String) (slashFollows : Bool) :
    (Part.first piece slashFollows).component? = some .root ↔ piece = "" ∧ slashFollows = true := by
  unfold Part.first
  split
  · next hempty => simp [hempty]
  · next hne =>
    split
    · simp [hne]
    · simp [hne, component?_inner_ne_root]

/-- A path with the root as its first part starts at the root. -/
theorem isAbsolute_of_root_below {path : Path} (h : [⟨"", some .root⟩] <+: path.parts) :
    path.isAbsolute = true := by
  obtain ⟨first, rest, hpieces⟩ := List.exists_cons_of_ne_nil path.pieces_ne_nil
  obtain ⟨others, hothers⟩ := h
  rw [parts, hpieces, List.singleton_append, List.cons.injEq] at hothers
  obtain ⟨rfl, hslash⟩ :=
    (component?_first_eq_root_iff first _).mp (congrArg Part.component? hothers.1.symm)
  obtain ⟨next, others, rfl⟩ := List.exists_cons_of_ne_nil (by simpa using hslash : rest ≠ [])
  exact path.isAbsolute_iff.mpr ⟨next, others, hpieces⟩

/-- A path that is written as the first parts of another one is on its way. -/
theorem onTheWay_ofParts {path : Path} {parts : List Part} (h : parts <+: path.parts) :
    OnTheWay (ofParts parts) path := by
  by_cases hroot : parts = [⟨"", some .root⟩]
  · rw [ofParts, if_pos hroot]
    have habsolute : path.isAbsolute = true := isAbsolute_of_root_below (hroot ▸ h)
    refine ⟨List.nil_prefix,
      fun _ => by decide +kernel, .inr ⟨habsolute.symm ▸ (by decide +kernel), ?_⟩⟩
    intro hempty
    simp [isAbsolute, hempty] at habsolute
  rw [ofParts, if_neg hroot]
  have hbelow : parts.map Part.text <+: path.pieces := map_text_parts path ▸ h.map Part.text
  cases htexts : parts.map Part.text with
  | nil =>
    refine ⟨List.nil_prefix, fun _ => by decide +kernel, .inl rfl⟩
  | cons first more =>
    rw [htexts] at hbelow
    have hpieces := pieces_intercalate (List.cons_ne_nil first more) fun text htext =>
      no_slash_of_mem_pieces (hbelow.subset htext)
    obtain ⟨rest, hrest⟩ := hbelow
    refine ⟨?_, ?_, ?_⟩
    · rw [names_eq, names_eq, hpieces, ← hrest]
      exact (List.prefix_append _ _).filterMap _
    · rw [forward_iff, forward_iff, hpieces, ← hrest]
      exact fun hup hin => hup (List.mem_append_left rest hin)
    · by_cases hempty : first = "" ∧ more = []
      · exact .inl (by rw [hempty.1, hempty.2]; rfl)
      · refine .inr ⟨?_, ?_⟩
        · rw [Bool.eq_iff_iff, isAbsolute_iff, isAbsolute_iff, hpieces, ← hrest]
          cases more with
          | nil =>
            have hne : first ≠ "" := fun heq => hempty ⟨heq, rfl⟩
            simp [hne]
          | cons next others => simp
        · intro hpath
          have hblank : path.pieces = [""] := by rw [pieces, hpath]; rfl
          rw [hblank, List.cons_append, List.cons.injEq, List.append_eq_nil_iff] at hrest
          exact hempty ⟨hrest.1, hrest.2.1⟩

/-- What is left of a path without its last component is on its way. -/
theorem onTheWay_parent {path parent : Path} (h : path.parent? = some parent) :
    OnTheWay parent path := by
  unfold parent? at h
  split at h
  · contradiction
  · next last before hlast =>
    split at h
    · contradiction
    · rw [← Option.some.inj h]
      refine onTheWay_ofParts ?_
      rw [← List.reverse_suffix, List.reverse_reverse]
      refine (List.dropWhile_suffix _).trans ((List.suffix_cons last before).trans ?_)
      rw [← hlast]
      exact List.dropWhile_suffix _

/-- What holds between a path and itself, and from each path on to the one that it is around, holds
between a path and all paths around it. -/
theorem rel_of_mem_ancestors {r : Path → Path → Prop} (hrefl : ∀ path, r path path)
    (hparent : ∀ {outer parent path : Path}, path.parent? = some parent →
      r outer parent → r outer path)
    {path around : Path} (h : around ∈ path.ancestors) : r around path := by
  have hclimb : ∀ steps (path : Path), around ∈ climb steps path → r around path := by
    intro steps
    induction steps with
    | zero =>
      intro path h
      rw [List.mem_singleton.mp h]
      exact hrefl path
    | succ steps ih =>
      intro path h
      rcases List.mem_cons.mp h with rfl | h
      · exact hrefl around
      · split at h
        · next parent hsome => exact hparent hsome (ih parent h)
        · simp at h
  exact hclimb _ path h

/-- All paths around a path are on its way. -/
theorem onTheWay_of_mem_ancestors {path around : Path} (h : around ∈ path.ancestors) :
    OnTheWay around path :=
  rel_of_mem_ancestors .refl (fun hparent hway => hway.trans (onTheWay_parent hparent)) h

end SchemaBindings.Path
