import SchemaBindings.Proofs.Bindings.Overlay
import SchemaBindings.Proofs.FileTree.Following

/-!
# Where room is made

Before something is put at the end of a path, the directories around it are made. Where the
innermost of them is there already, none is made, also once links have become files. Below a hidden
directory all that is made is in it.
-/

namespace SchemaBindings.Bindings

open SchemaBindings.FileTree
open SchemaBindings.Path (blank movesOf)

variable {cwd : Place} {tree before after : FileTree}

/-! ## Directories that are there -/

/-- Whether the directory that is to hold what is at the end of a path is there. -/
def HasRoom (cwd : Place) (tree : FileTree) (path : Path) : Prop :=
  ∀ directory, path.parent? = some directory →
    ∃ place, tree.find? cwd .through directory = some (place, .directory)

/-- Where directories and links stay, a path to a directory stays one. -/
theorem exists_directory_of_keeps (hkeeps : before.Keeps after) {path : Path}
    (h : ∃ place, before.find? cwd .through path = some (place, .directory)) :
    ∃ place, after.find? cwd .through path = some (place, .directory) := by
  obtain ⟨hobstacle, found, hfollow⟩ := exists_directory_iff.mp h
  exact exists_directory_iff.mpr ⟨hobstacle, found, follow_of_keeps hkeeps hfollow⟩

/-- Where directories and links stay, so does the room for something. -/
theorem HasRoom.keeps {path : Path} (h : HasRoom cwd before path) (hkeeps : before.Keeps after) :
    HasRoom cwd after path :=
  fun directory hparent => exists_directory_of_keeps hkeeps (h directory hparent)

/-- A tree replaces itself. -/
theorem Replaces.refl (tree : FileTree) : Replaces tree tree :=
  fun _ _ => .inl rfl

/-- Where a tree grows, links that have become files are still files. -/
theorem Replaces.grows {grown : FileTree} (h : Replaces before after) (hgrows : after.Grows grown) :
    Replaces before grown := by
  intro place hleads
  rcases h place hleads with hsame | ⟨hne, content, hfile⟩
  · exact .inl ((hgrows.keeps place (by rwa [Leads, hsame])).trans hsame)
  · exact .inr ⟨hne, content, hgrows.extends hfile⟩

/-- Where directories and links stay, or links become files, no walk along pieces that can be walked
ends at a free place. -/
theorem not_free_of_follow (hreplaces : Replaces before after) {links : Nat} {place : Place}
    {pieces : List String} {found : Nat × Place} (h : before.follow links place pieces = some found)
    {free : Place} {forDirectory : Bool} :
    after.walkFrom .never links place pieces ≠ .ok (.free free forDirectory) := by
  fun_induction follow before links place pieces with
  | case1 links place => simp [walkFrom]
  | case2 links place piece rest hblank ih =>
    rw [walkFrom, if_pos hblank]
    exact ih h
  | case3 links place rest hblank ih =>
    rw [walkFrom, if_neg hblank, if_pos rfl]
    exact ih h
  | case4 links place piece rest hblank hup hdirectory ih =>
    rw [walkFrom, if_neg hblank, if_neg hup, hreplaces.evolves.directory hdirectory]
    exact ih h
  | case5 => contradiction
  | case6 => contradiction
  | case7 place piece rest hblank hup goal hlink hgoal links ih =>
    rw [walkFrom, if_neg hblank, if_neg hup]
    rcases hreplaces _ (.inr ⟨goal, hlink⟩) with hsame | ⟨-, content, hfile⟩
    · rw [hsame, hlink]
      dsimp only
      split
      · simp
      · exact ih h
    · rw [hfile]
      dsimp only
      split <;> simp
  | case8 => contradiction

/-- Where a directory is that is to hold something, no room is made for it. -/
theorem HasRoom.roomMade {path : Path} (h : HasRoom cwd before path)
    (hreplaces : Replaces before after) :
    RoomMade cwd (fun _ => False) path after := by
  intro directory hparent around haround grown place forDirectory hgrows hwalk
  obtain ⟨-, found, hfollow⟩ := exists_directory_iff.mp (h directory hparent)
  obtain ⟨other, hother⟩ := (Path.starts_of_mem_ancestors haround).exists_follow hfollow
  exact not_free_of_follow (hreplaces.grows hgrows) hother (walk_eq_ok_iff.mp hwalk).2

/-- Where an output directory is, none is made around it. -/
theorem not_free_around {out : Path}
    (h : ∃ place, before.find? cwd .through out = some (place, .directory)) :
    ∀ around ∈ (surroundings out).ancestors, ∀ grown place forDirectory, before.Grows grown →
      grown.walk cwd .never around = .ok (.free place forDirectory) → False := by
  intro around haround grown place forDirectory hgrows hwalk
  obtain ⟨-, found, hfollow⟩ := exists_directory_iff.mp h
  obtain ⟨surrounding, hsurrounding⟩ := Path.exists_follow_surroundings hfollow
  obtain ⟨other, hother⟩ := (Path.starts_of_mem_ancestors haround).exists_follow hsurrounding
  exact not_free_of_follow ((Replaces.refl before).grows hgrows) hother (walk_eq_ok_iff.mp hwalk).2

/-! ## Room in hidden directories -/

variable {around path : Path} {name : String} {links : Nat} {reached : Place}

/-- The names among moves are those among the pieces that make them. -/
theorem filterMap_movesOf (pieces : List String) :
    (movesOf pieces).filterMap Path.pieceName? = pieces.filterMap Path.pieceName? := by
  rw [movesOf, List.filterMap_filter]
  refine List.filterMap_congr fun piece _ => ?_
  cases hblank : blank piece with
  | false => rfl
  | true => rcases (Path.blank_iff piece).mp hblank with rfl | rfl <;> rfl

/-- A hidden directory is walked to. -/
theorem follow_hidden (hhidden : Hidden cwd around name links reached tree) :
    tree.follow linkLimit (start cwd around) (around.front ++ [name]) =
      some (links, reached ++ [name]) := by
  rw [follow_append, hhidden.follow_eq, Option.bind_some, follow,
    if_neg (not_or.mpr ⟨hhidden.isName.ne_empty, hhidden.isName.ne_dot⟩),
    if_neg hhidden.isName.ne_dots, hhidden.entry_eq]
  exact follow.eq_1 ..

/-- From a hidden directory on, as long as there are no links, moves that are names lead below
it. -/
theorem below_of_walkFrom {last : LastLink} {pieces : List String} {arrival : Arrival}
    (hplain : path.Plain)
    (hlinks : ∀ place goal, reached <+: place → place <+: reached ++ path.names →
      tree.entryAt? place ≠ some (.link goal))
    (hmoves : movesOf pieces <+: path.moves)
    (h : tree.walkFrom last links reached pieces = .ok arrival) :
    reached <+: arrival.place := by
  have hnames : pieces.filterMap Path.pieceName? <+: path.names := by
    rw [path.names_eq, ← filterMap_movesOf pieces, ← filterMap_movesOf path.pieces]
    exact hmoves.filterMap _
  have hforward : ".." ∉ pieces := by
    intro hup
    have hmove : ".." ∈ movesOf pieces := List.mem_filter.mpr ⟨hup, by decide⟩
    exact path.forward_iff.mp hplain.forward (List.mem_of_mem_filter (hmoves.subset hmove))
  rw [place_of_walkFrom hforward (fun place goal hunder _ hbelow => ?_) h]
  · exact List.prefix_append _ _
  · exact hlinks place goal hunder
      (hbelow.trans ((List.prefix_append_right_inj reached).mpr hnames))

/-- As long as a tree keeps directories, and links or files instead of them, and no links are on the
way below a hidden directory, room for something there is made in it. -/
theorem roomMade_of_hidden (hhidden : Hidden cwd around name links reached before)
    (hreplaces : Replaces before after) (hplain : path.Plain)
    (hlinks : ∀ place goal, reached ++ [name] <+: place → place <+: reached ++ [name] ++
      path.names → after.entryAt? place ≠ some (.link goal)) :
    RoomMade cwd (reached ++ [name] <+: ·) ((around.join ⟨name⟩).join path) after := by
  intro directory hparent outer houter grown place forDirectory hgrows hwalk
  have hreplaces := hreplaces.grows hgrows
  have hthrough := hhidden.isName.through_join around hplain.isAbsolute_eq
  have hstarts := (Path.starts_of_mem_ancestors houter).trans (Path.starts_of_parent? hparent)
  have hstart : start cwd outer = start cwd around := by
    rw [start, start, hstarts.isAbsolute_eq, hthrough.isAbsolute_eq]
  have hwalked := (walk_eq_ok_iff.mp hwalk).2
  rw [hstart] at hwalked
  have hfollow := follow_hidden hhidden
  have hbelow : outer.moves <+: movesOf (around.front ++ [name]) ++ path.moves := by
    have hmoves := hstarts.moves_below
    rwa [Path.moves, Path.moves, hthrough.pieces_eq, List.append_cons,
      Path.movesOf_append] at hmoves
  by_cases habove : outer.moves <+: movesOf (around.front ++ [name])
  · obtain ⟨found, hfound⟩ := exists_follow_of_moves habove hfollow
    exact absurd hwalked (not_free_of_follow hreplaces hfound)
  obtain ⟨more, hmore⟩ :=
    (List.prefix_or_prefix_of_prefix hbelow (List.prefix_append _ _)).resolve_left habove
  obtain ⟨front, behind, hpieces, hfront, hbehind⟩ := List.filter_eq_append_iff.mp hmore.symm
  have hnotall : ¬ behind.all String.isEmpty = true := by
    intro hall
    refine habove ⟨[], ?_⟩
    have hnone : more = [] := by
      rw [← hbehind]
      refine Path.movesOf_eq_nil fun piece hpiece => (Path.blank_iff piece).mpr (.inl ?_)
      exact String.isEmpty_iff.mp (List.all_eq_true.mp hall piece hpiece)
    rw [← hmore, hnone, List.append_nil, List.append_nil]
  have hsame : movesOf front = movesOf (around.front ++ [name]) := hfront
  rw [← follow_eq_of_moves hsame] at hfollow
  obtain ⟨hfound, hlost⟩ :=
    walkFrom_append_of_follow grown .never linkLimit (start cwd around) front hnotall
  rw [hpieces] at hwalked
  rcases follow_of_evolves hreplaces.evolves hfollow with hstill | hnone
  · rw [hfound _ _ hstill] at hwalked
    refine below_of_walkFrom hplain (fun other goal hunder hother hlink => ?_) ?_ hwalked
    · exact hlinks other goal hunder hother (hgrows.eq_some_of_plain hlink (by simp))
    · rw [← hmore, List.prefix_append_right_inj] at hbelow
      rwa [movesOf, hbehind]
  · obtain ⟨obstacle, herror⟩ := hlost hnone
    rw [herror] at hwalked
    contradiction

end SchemaBindings.Bindings
