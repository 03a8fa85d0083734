import SchemaBindings.Proofs.FileTree.Ways

/-!
# Paths that lead to directories

A walk that goes through all links comes to a directory exactly if it may go on from there. Only the
moves of a path matter for that. So where a path leads to a directory, the paths that make its first
moves do too.
-/

namespace SchemaBindings

namespace FileTree

open SchemaBindings.Path (blank blank_iff movesOf movesOf_cons_blank movesOf_cons_move)

variable {tree : FileTree} {cwd place : Place} {links : Nat}

/-! ## Pieces -/

/-- A walk goes through all links and comes to a directory exactly if it may go on from there. -/
theorem walkFrom_through_iff {pieces : List String} {reached : Place} :
    tree.walkFrom .through links place pieces = .ok (.taken reached .directory) ↔
      ∃ fewer, tree.follow links place pieces = some (fewer, reached) := by
  fun_induction follow tree links place pieces with
  | case1 links place => simp [walkFrom]
  | case2 links place piece rest hblank ih => rw [walkFrom, if_pos hblank, ih]
  | case3 links place rest hblank ih => rw [walkFrom, if_neg hblank, if_pos rfl, ih]
  | case4 links place piece rest hblank hup hdirectory ih =>
    rw [walkFrom, if_neg hblank, if_neg hup, hdirectory]
    exact ih
  | case5 links place piece rest hblank hup goal hlink hgoal =>
    simp [walkFrom, hblank, hup, hlink, hgoal, LastLink.endsAt]
  | case6 place piece rest hblank hup goal hlink hgoal =>
    simp [walkFrom, hblank, hup, hlink, hgoal, LastLink.endsAt]
  | case7 place piece rest hblank hup goal hlink hgoal links ih =>
    rw [walkFrom, if_neg hblank, if_neg hup, hlink]
    simp only [LastLink.endsAt, hgoal, Bool.false_eq_true, if_false]
    exact ih
  | case8 links place piece rest hblank hup hother hlink =>
    rw [walkFrom, if_neg hblank, if_neg hup]
    refine iff_of_false (fun h => ?_) (by simp)
    split at h
    · obtain ⟨-, hfree⟩ := arriveFree_eq_ok h
      contradiction
    · next hdirectory => exact hother hdirectory
    · split at h <;> simp at h
    · next goal hentry => exact hlink goal hentry

/-- Pieces that others follow are walked first. -/
theorem follow_append (tree : FileTree) (links : Nat) (place : Place) (front behind : List String) :
    tree.follow links place (front ++ behind) =
      (tree.follow links place front).bind fun found => tree.follow found.1 found.2 behind := by
  fun_induction follow tree links place front with
  | case1 links place => rfl
  | case2 links place piece rest hblank ih => rw [List.cons_append, follow, if_pos hblank, ih]
  | case3 links place rest hblank ih => rw [List.cons_append, follow, if_neg hblank, if_pos rfl, ih]
  | case4 links place piece rest hblank hup hdirectory ih =>
    rw [List.cons_append, follow, if_neg hblank, if_neg hup, hdirectory]
    exact ih
  | case5 links place piece rest hblank hup goal hlink hgoal =>
    simp [follow, hblank, hup, hlink, hgoal]
  | case6 place piece rest hblank hup goal hlink hgoal => simp [follow, hblank, hup, hlink, hgoal]
  | case7 place piece rest hblank hup goal hlink hgoal links ih =>
    rw [List.cons_append, follow, if_neg hblank, if_neg hup, hlink]
    simp only [hgoal, Bool.false_eq_true, if_false, ← List.append_assoc]
    exact ih
  | case8 links place piece rest hblank hup hother hlink =>
    rw [List.cons_append, follow, if_neg hblank, if_neg hup]
    split
    · next hdirectory => exact absurd hdirectory hother
    · next goal hentry => exact absurd hentry (hlink goal)
    · rfl

/-- Blank pieces lead nowhere else. -/
theorem follow_of_blank {front : List String} (h : ∀ piece ∈ front, blank piece = true)
    (behind : List String) :
    tree.follow links place (front ++ behind) = tree.follow links place behind := by
  induction front with
  | nil => rfl
  | cons piece front ih =>
    rw [List.forall_mem_cons] at h
    rw [List.cons_append, follow, if_pos ((blank_iff piece).mp h.1), ih h.2]

/-- Pieces that make the same moves lead to the same place. -/
theorem follow_eq_of_moves {pieces others : List String} (h : movesOf pieces = movesOf others) :
    tree.follow links place pieces = tree.follow links place others := by
  have hmove : ∀ {piece : String} {rest others : List String}, blank piece = false →
      movesOf (piece :: rest) = movesOf others →
      ∃ skipped tail, others = skipped ++ piece :: tail ∧ (∀ other ∈ skipped, blank other = true) ∧
        movesOf rest = movesOf tail := by
    intro piece rest others hblank hsame
    rw [movesOf_cons_move hblank, eq_comm] at hsame
    obtain ⟨skipped, tail, hothers, hskipped, -, htail⟩ := List.filter_eq_cons_iff.mp hsame
    exact ⟨skipped, tail, hothers, by simpa using hskipped, htail.symm⟩
  fun_induction follow tree links place pieces generalizing others with
  | case1 links place =>
    have hothers : ∀ piece ∈ others, blank piece = true := by
      simpa [movesOf] using h
    rw [← List.append_nil others, follow_of_blank hothers, follow]
  | case2 links place piece rest hblank ih =>
    rw [movesOf_cons_blank ((blank_iff piece).mpr hblank)] at h
    exact ih h
  | case3 links place rest hblank ih =>
    obtain ⟨skipped, tail, rfl, hskipped, htail⟩ := hmove (by decide) h
    rw [follow_of_blank hskipped, follow, if_neg hblank, if_pos rfl]
    exact ih htail
  | case4 links place piece rest hblank hup hdirectory ih =>
    obtain ⟨skipped, tail, rfl, hskipped, htail⟩ :=
      hmove (by simpa using mt (blank_iff piece).mp hblank) h
    rw [follow_of_blank hskipped, follow, if_neg hblank, if_neg hup, hdirectory]
    exact ih htail
  | case5 links place piece rest hblank hup goal hlink hgoal =>
    obtain ⟨skipped, tail, rfl, hskipped, -⟩ :=
      hmove (by simpa using mt (blank_iff piece).mp hblank) h
    rw [follow_of_blank hskipped]
    simp [follow, hblank, hup, hlink, hgoal]
  | case6 place piece rest hblank hup goal hlink hgoal =>
    obtain ⟨skipped, tail, rfl, hskipped, -⟩ :=
      hmove (by simpa using mt (blank_iff piece).mp hblank) h
    rw [follow_of_blank hskipped]
    simp [follow, hblank, hup, hlink, hgoal]
  | case7 place piece rest hblank hup goal hlink hgoal links ih =>
    obtain ⟨skipped, tail, rfl, hskipped, htail⟩ :=
      hmove (by simpa using mt (blank_iff piece).mp hblank) h
    rw [follow_of_blank hskipped, follow, if_neg hblank, if_neg hup, hlink]
    simp only [hgoal, Bool.false_eq_true, if_false]
    exact ih (by rw [Path.movesOf_append, Path.movesOf_append, htail])
  | case8 links place piece rest hblank hup hother hlink =>
    obtain ⟨skipped, tail, rfl, hskipped, -⟩ :=
      hmove (by simpa using mt (blank_iff piece).mp hblank) h
    rw [follow_of_blank hskipped, follow, if_neg hblank, if_neg hup]
    split
    · next hdirectory => exact absurd hdirectory hother
    · next goal hentry => exact absurd hentry (hlink goal)
    · rfl

/-- Where pieces can be walked, so can those that make the first of their moves. -/
theorem exists_follow_of_moves {pieces front : List String}
    (hfront : movesOf front <+: movesOf pieces) {found : Nat × Place}
    (h : tree.follow links place pieces = some found) :
    ∃ other, tree.follow links place front = some other := by
  obtain ⟨behind, hbehind⟩ := hfront
  have hpieces : movesOf pieces = movesOf (front ++ behind) := by
    rw [Path.movesOf_append, ← hbehind, List.append_cancel_left_eq, eq_comm]
    refine List.filter_eq_self.mpr fun move hmove => ?_
    simp [Path.not_blank_of_mem_movesOf
      (hbehind ▸ List.mem_append_right _ hmove : move ∈ movesOf pieces)]
  rw [follow_eq_of_moves hpieces, follow_append, Option.bind_eq_some_iff] at h
  obtain ⟨other, hother, -⟩ := h
  exact ⟨other, hother⟩

/-! ## Paths -/

/-- A path leads to a directory exactly if nothing stands against it as a whole and its pieces can
be walked. -/
theorem exists_directory_iff {path : Path} :
    (∃ reached, tree.find? cwd .through path = some (reached, .directory)) ↔
    pathObstacle? path = none ∧
    ∃ found, tree.follow linkLimit (start cwd path) path.pieces = some found := by
  simp only [find?_eq_some, walk_eq_ok_iff, walkFrom_through_iff, exists_and_left]
  refine and_congr_right fun _ => ?_
  constructor
  · rintro ⟨reached, fewer, h⟩
    exact ⟨_, h⟩
  · rintro ⟨found, h⟩
    exact ⟨found.2, found.1, h⟩

end FileTree

namespace Path

open FileTree (follow linkLimit start follow_of_blank exists_follow_of_moves)

/-- Whether a path makes the first moves of another one, from the same start. -/
structure Starts (around path : Path) : Prop where
  isAbsolute_eq : around.isAbsolute = path.isAbsolute
  moves_below : around.moves <+: path.moves

/-- A path makes the first moves of itself. -/
theorem Starts.refl (path : Path) : Starts path path :=
  ⟨rfl, List.prefix_rfl⟩

/-- The first moves of the first moves of a path are first moves of the path. -/
theorem Starts.trans {outer around path : Path} (hfirst : Starts outer around)
    (hsecond : Starts around path) :
    Starts outer path :=
  ⟨hfirst.isAbsolute_eq.trans hsecond.isAbsolute_eq, hfirst.moves_below.trans hsecond.moves_below⟩

/-- What is left of a path without its last component makes its first moves. -/
theorem starts_of_parent? {path parent : Path} (h : path.parent? = some parent) :
    Starts parent path := by
  have haround := around_of_parent? h
  refine ⟨haround.isAbsolute_eq, ?_⟩
  rcases haround.moves_eq with ⟨-, hnone⟩ | ⟨last, hmoves⟩
  · rw [hnone]
    exact List.nil_prefix
  · rw [hmoves]
    exact List.prefix_append _ _

/-- All paths around a path make its first moves. -/
theorem starts_of_mem_ancestors {path around : Path} (h : around ∈ path.ancestors) :
    Starts around path :=
  rel_of_mem_ancestors .refl (fun hparent hstarts => hstarts.trans (starts_of_parent? hparent)) h

variable {tree : FileTree} {cwd : Place} {found : Nat × Place}

/-- Where a path can be walked, so can those that make its first moves. -/
theorem Starts.exists_follow {around path : Path} (hstarts : Starts around path)
    (h : tree.follow linkLimit (start cwd path) path.pieces = some found) :
    ∃ other, tree.follow linkLimit (start cwd around) around.pieces = some other := by
  rw [start, ← hstarts.isAbsolute_eq] at h
  exact exists_follow_of_moves hstarts.moves_below h

/-- Where an output directory can be walked to, so can the directory around it. -/
theorem exists_follow_surroundings {out : Path}
    (h : tree.follow linkLimit (start cwd out) out.pieces = some found) :
    ∃ other, tree.follow linkLimit (start cwd (Bindings.surroundings out))
      (Bindings.surroundings out).pieces = some other := by
  obtain ⟨-, -, ⟨-, hnone⟩ | ⟨hsame, last, hmoves⟩⟩ := around_surroundings out
  · have hblank : ∀ piece ∈ (Bindings.surroundings out).pieces, blank piece = true := by
      simpa [moves, movesOf] using hnone
    rw [← List.append_nil (Bindings.surroundings out).pieces, follow_of_blank hblank, follow]
    exact ⟨_, rfl⟩
  · have hstarts : Starts (Bindings.surroundings out) out := by
      refine ⟨hsame, ?_⟩
      rw [hmoves]
      exact List.prefix_append _ _
    exact hstarts.exists_follow h

end Path

end SchemaBindings
