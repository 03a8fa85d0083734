import SchemaBindings.Proofs.FileTree.Changes

/-!
# Hidden directories

A hidden directory is made within another one, under a name that nothing has. Every path below it
first leads to the directory around it, then goes by its name. As long as directories and links
stay, it is found there again and cleared away with all it holds.
-/

namespace SchemaBindings

open FileTree

/-! ## Hidden names -/

namespace FileTree

/-- Whether a text may be the name of something: a single piece that is not blank and no dots. -/
structure IsName (name : String) : Prop where
  ne_empty : name ≠ ""
  ne_dot : name ≠ "."
  ne_dots : name ≠ ".."
  no_slash : '/' ∉ name.toList

/-- The characters of a hidden name. -/
theorem toList_hiddenName (number : Nat) :
    (hiddenName number).toList = ".athalar-".toList ++ List.replicate (6 + number) '0' := by
  rw [hiddenName, hiddenStart, String.toList_append]
  exact congrArg _ String.toList_ofList

/-- Hidden names are long. -/
theorem hiddenName_ne (number : Nat) {text : String} (hlength : text.toList.length < 9) :
    hiddenName number ≠ text := by
  intro heq
  rw [← heq, toList_hiddenName, List.length_append] at hlength
  have hstart : ".athalar-".toList.length = 9 := by decide
  omega

/-- The names for hidden directories are names. -/
theorem isName_hiddenName (number : Nat) : IsName (hiddenName number) := by
  refine ⟨hiddenName_ne _ (by decide), hiddenName_ne _ (by decide), hiddenName_ne _ (by decide), ?_⟩
  rw [toList_hiddenName]
  simp

/-- The unused name of a tree is a name. -/
theorem isName_unusedName (tree : FileTree) : IsName tree.unusedName :=
  isName_hiddenName _

/-! ## Paths through a name -/

/-- Whether the way along a path first leads along another one and then by a name. -/
structure Through (around : Path) (name : String) (path : Path) (rest : List String) : Prop where
  pieces_eq : path.pieces = around.front ++ name :: rest
  isAbsolute_eq : path.isAbsolute = around.isAbsolute

/-- The way to a name that is joined to a path. -/
theorem IsName.through {name : String} (hname : IsName name) (around : Path) :
    Through around name (around.join ⟨name⟩) [] := by
  have hrelative := Path.isAbsolute_of_no_slash hname.no_slash
  refine ⟨?_, Path.isAbsolute_join around hrelative⟩
  rw [Path.pieces_join around hrelative, Path.pieces_of_no_slash hname.no_slash]

/-- The way to a relative path below a name that is joined to a path goes through that name. -/
theorem IsName.through_join {name : String} (hname : IsName name) (around : Path) {path : Path}
    (hrelative : path.isAbsolute = false) :
    Through around name ((around.join ⟨name⟩).join path) path.pieces := by
  refine ⟨?_, (Path.isAbsolute_join _ hrelative).trans (hname.through around).isAbsolute_eq⟩
  rw [Path.pieces_join _ hrelative, Path.front_join around hname.ne_empty hname.no_slash,
    List.append_assoc]
  rfl

/-- A name that is joined to a path that never steps up makes another such path. -/
theorem IsName.forward_join {name : String} (hname : IsName name) {around : Path}
    (hforward : around.Forward) :
    (around.join ⟨name⟩).Forward := by
  refine hforward.join ?_ (Path.isAbsolute_of_no_slash hname.no_slash)
  rw [Path.forward_iff, Path.pieces_of_no_slash hname.no_slash, List.mem_singleton]
  exact hname.ne_dots.symm

variable {cwd : Place} {around path : Path} {name : String} {rest : List String} {tree : FileTree}

namespace Through

variable (hname : IsName name) (hthrough : Through around name path rest)

include hname hthrough

/-- A walk through a name goes on where the walk along the path around comes to. -/
theorem walk_eq {last : LastLink} (hobstacle : pathObstacle? path = none) {links : Nat}
    {reached : Place}
    (hfollow : tree.follow linkLimit (start cwd around) around.front = some (links, reached)) :
    tree.walk cwd last path = tree.walkFrom last links reached (name :: rest) := by
  have hbehind : ¬ (name :: rest).all String.isEmpty = true := by
    simp [hname.ne_empty]
  have hwalk := (walkFrom_append_of_follow tree last linkLimit (start cwd around)
    around.front hbehind).1 links reached hfollow
  rw [walk, hobstacle]
  rw [start, ← hthrough.isAbsolute_eq, ← hthrough.pieces_eq] at hwalk
  exact hwalk

/-- Where a walk through a name succeeds, so does the walk along the path around. -/
theorem follow_of_walk_eq_ok {last : LastLink} {arrival : Arrival}
    (h : tree.walk cwd last path = .ok arrival) :
    pathObstacle? path = none ∧ ∃ links reached,
      tree.follow linkLimit (start cwd around) around.front = some (links, reached) := by
  have hbehind : ¬ (name :: rest).all String.isEmpty = true := by
    simp [hname.ne_empty]
  obtain ⟨hobstacle, hwalk⟩ := walk_eq_ok_iff.mp h
  refine ⟨hobstacle, ?_⟩
  cases hfollow : tree.follow linkLimit (start cwd around) around.front with
  | none =>
    obtain ⟨obstacle, herror⟩ := (walkFrom_append_of_follow tree last linkLimit
      (start cwd around) around.front hbehind).2 hfollow
    rw [start, ← hthrough.isAbsolute_eq, ← hthrough.pieces_eq, ← start, hwalk] at herror
    contradiction
  | some found => exact ⟨found.1, found.2, rfl⟩

end Through

end FileTree

/-! ## Hidden directories of a tree -/

/-- Whether the directory of some name within the one that a path leads to is found: the walk along
the path comes to a place with so many links to go, and the directory is there under its name. -/
structure Hidden (cwd : Place) (around : Path) (name : String) (links : Nat) (reached : Place)
    (tree : FileTree) : Prop where
  isName : IsName name
  obstacle_eq : pathObstacle? (around.join ⟨name⟩) = none
  follow_eq : tree.follow linkLimit (start cwd around) around.front = some (links, reached)
  entry_eq : tree.entryAt? (reached ++ [name]) = some .directory

namespace Hidden

variable {cwd : Place} {around : Path} {name : String} {links : Nat} {reached : Place}
  {tree after : FileTree}

/-- A hidden directory stays where directories and links do. -/
theorem keeps (hhidden : Hidden cwd around name links reached tree) (hkeeps : tree.Keeps after) :
    Hidden cwd around name links reached after :=
  ⟨hhidden.isName, hhidden.obstacle_eq, follow_of_keeps hkeeps hhidden.follow_eq,
    hkeeps.evolves.directory hhidden.entry_eq⟩

/-- A walk to a hidden directory ends there. -/
theorem walk_eq (hhidden : Hidden cwd around name links reached tree) (last : LastLink) :
    tree.walk cwd last (around.join ⟨name⟩) = .ok (.taken (reached ++ [name]) .directory) := by
  rw [(hhidden.isName.through around).walk_eq hhidden.isName hhidden.obstacle_eq hhidden.follow_eq,
    walkFrom, if_neg (not_or.mpr ⟨hhidden.isName.ne_empty, hhidden.isName.ne_dot⟩),
    if_neg hhidden.isName.ne_dots, hhidden.entry_eq]
  exact walkFrom_of_all_isEmpty tree last links _ rfl

/-- As long as a tree evolves and no links are on the way below a hidden directory, a walk along a
path there ends at the names of the path. -/
theorem place_eq {later : FileTree} (hhidden : Hidden cwd around name links reached tree)
    (hevolves : tree.Evolves later) {path : Path} (hplain : path.Plain)
    (hlinks : ∀ place goal, reached ++ [name] <+: place → place <+: reached ++ [name] ++
      path.names → later.entryAt? place ≠ some (.link goal))
    {last : LastLink} {arrival : Arrival}
    (h : later.walk cwd last ((around.join ⟨name⟩).join path) = .ok arrival) :
    later.walkFrom last links reached (name :: path.pieces) = .ok arrival ∧
      arrival.place = reached ++ [name] ++ path.names := by
  have hname := hhidden.isName
  have hthrough := hname.through_join around hplain.isAbsolute_eq
  obtain ⟨hobstacle, fewer, other, hother⟩ := hthrough.follow_of_walk_eq_ok hname h
  have hfollow : later.follow linkLimit (start cwd around) around.front =
      some (links, reached) := by
    rcases follow_of_evolves hevolves hhidden.follow_eq with hsame | hlost
    · exact hsame
    · rw [hlost] at hother
      contradiction
  rw [hthrough.walk_eq hname hobstacle hfollow] at h
  have hnames : (name :: path.pieces).filterMap Path.pieceName? = name :: path.names := by
    rw [List.filterMap_cons_some
      (pieceName?_eq_some (not_or.mpr ⟨hname.ne_empty, hname.ne_dot⟩) hname.ne_dots),
      path.names_eq]
  refine ⟨h, ?_⟩
  rw [List.append_assoc, List.singleton_append, ← hnames]
  refine place_of_walkFrom ?_ ?_ h
  · rw [List.mem_cons, not_or]
    exact ⟨hname.ne_dots.symm, path.forward_iff.mp hplain.forward⟩
  · intro other goal hunder hne hbelow
    obtain ⟨steps, rfl⟩ := hunder
    cases steps with
    | nil => exact absurd (List.append_nil reached) hne
    | cons step steps =>
      rw [hnames, List.prefix_append_right_inj] at hbelow
      obtain rfl : step = name := (List.cons_prefix_cons.mp hbelow).1
      refine hlinks _ goal (by simp) ?_
      rw [List.append_assoc, List.singleton_append]
      exact (List.prefix_append_right_inj reached).mpr hbelow

/-- Clearing a hidden directory away removes its place. -/
theorem removeAll_eq (hhidden : Hidden cwd around name links reached tree) :
    tree.removeAll cwd (around.join ⟨name⟩) = tree.remove (reached ++ [name]) := by
  rw [removeAll, find?, hhidden.walk_eq]

/-- Clearing a hidden directory away empties its place and all below it. -/
theorem entryAt?_removeAll (hhidden : Hidden cwd around name links reached tree) (place : Place) :
    (tree.removeAll cwd (around.join ⟨name⟩)).entryAt? place =
      if reached ++ [name] <+: place then none else tree.entryAt? place := by
  rw [hhidden.removeAll_eq]
  exact entryAt?_remove_eq tree (by simp) place

end Hidden

/-! ## Making and clearing away -/

/-- Whether a tree is another one with a new hidden directory. -/
structure NewHidden (cwd : Place) (around : Path) (name : String) (links : Nat) (reached : Place)
    (before after : FileTree) : Prop where
  hidden : Hidden cwd around name links reached after
  follow_eq : before.follow linkLimit (start cwd around) around.front = some (links, reached)
  free : before.entryAt? (reached ++ [name]) = none
  entryAt?_eq : ∀ place, after.entryAt? place =
    if place = reached ++ [name] then some .directory else before.entryAt? place
  grounded : after.Grounded

namespace NewHidden

variable {cwd : Place} {around : Path} {name : String} {links : Nat} {reached : Place}
  {before after : FileTree} (hnew : NewHidden cwd around name links reached before after)

include hnew

/-- A tree grows by a hidden directory. -/
theorem grows : before.Grows after := by
  intro place
  rw [hnew.entryAt?_eq]
  split
  · next hsame => exact .inr ⟨hsame ▸ hnew.free, rfl, trivial⟩
  · exact .inl rfl

/-- Nothing was where a new hidden directory is. -/
theorem free_below (hgrounded : before.Grounded) {place : Place}
    (hunder : reached ++ [name] <+: place) :
    before.entryAt? place = none := by
  by_cases hsame : place = reached ++ [name]
  · rw [hsame, hnew.free]
  · exact hgrounded.eq_none_of_below (by simp [hnew.free]) hunder hsame

/-- What was there is not where a new hidden directory is. -/
theorem not_below (hgrounded : before.Grounded) {place : Place} {entry : Entry}
    (h : before.entryAt? place = some entry) :
    ¬ reached ++ [name] <+: place := by
  intro hunder
  rw [hnew.free_below hgrounded hunder] at h
  contradiction

/-- Nothing is in a new hidden directory. -/
theorem eq_none_of_below (hgrounded : before.Grounded) {place : Place}
    (hunder : reached ++ [name] <+: place) (hne : place ≠ reached ++ [name]) :
    after.entryAt? place = none := by
  rw [hnew.entryAt?_eq, if_neg hne]
  exact hnew.free_below hgrounded hunder

/-- Whatever was done in a hidden directory and at loose and lost places, once it is cleared away
only the loose and the lost places may have changed. -/
theorem spared_removeAll (hgrounded : before.Grounded) {loose lost : Place → Prop} {used : FileTree}
    (hspared : after.Spared (fun place => loose place ∨ reached ++ [name] <+: place) lost used) :
    before.Spared loose lost (used.removeAll cwd (around.join ⟨name⟩)) := by
  have hhidden := hnew.hidden.keeps hspared.keeps
  intro place
  rw [SparedAt, KeptAt, hhidden.entryAt?_removeAll]
  by_cases hunder : reached ++ [name] <+: place
  · rw [if_pos hunder]
    exact .inl (.inl (hnew.free_below hgrounded hunder).symm)
  · have hne : place ≠ reached ++ [name] := fun hsame => hunder (hsame ▸ List.prefix_rfl)
    have heq : after.entryAt? place = before.entryAt? place := by rw [hnew.entryAt?_eq, if_neg hne]
    rw [if_neg hunder, ← heq]
    rcases hspared place with (hsame | hgrown | ⟨hloose | hinside, hleads⟩) | hgone
    · exact .inl (.inl hsame)
    · exact .inl (.inr (.inl hgrown))
    · refine .inl (.inr (.inr ⟨hloose, ?_⟩))
      rwa [Leads, ← heq]
    · exact absurd hinside hunder
    · exact .inr hgone

end NewHidden

/-- Making a hidden directory makes a new one, or fails and leaves the tree as it is. -/
theorem Disk.makeHidden_cases {cwd : Place} {disk after : Disk} (hgrounded : disk.tree.Grounded)
    (hcwd : disk.tree.entryAt? cwd = some .directory) {around : Path}
    {outcome : Except Obstacle Path}
    (h : Ends ((storage cwd).makeHidden around) disk outcome after) :
    after.notes = disk.notes ∧ ((∃ obstacle, outcome = .error obstacle ∧ after.tree = disk.tree) ∨
      ∃ links reached, outcome = .ok (around.join ⟨disk.tree.unusedName⟩) ∧
        NewHidden cwd around disk.tree.unusedName links reached disk.tree after.tree) := by
  have hname := isName_unusedName disk.tree
  have hrun : Ends (do
      let name ← ExceptT.lift (asks FileTree.unusedName)
      attempt (around.join ⟨name⟩) fun tree => tree.makeDirectory cwd (around.join ⟨name⟩)
      pure (around.join ⟨name⟩)) disk outcome after := h
  obtain ⟨name, between, hasked, hrest⟩ := Ends.lift_bind_iff.mp hrun
  obtain ⟨rfl, hsame⟩ := asks_iff.mp hasked
  rw [hsame] at hrest
  rcases Ends.bind_iff.mp hrest with ⟨done, made, hattempt, hpure⟩ | ⟨obstacle, rfl, hattempt⟩
  · obtain ⟨rfl, rfl⟩ := Ends.pure_iff.mp hpure
    obtain ⟨hnotes, ⟨-, hchange⟩ | ⟨obstacle, hfailed, -⟩⟩ := attempt_cases hattempt
    · obtain ⟨place, forDirectory, hwalk, hput⟩ := makeDirectory_eq_ok hchange
      have hsound := sound_of_walk hgrounded hcwd hwalk
      have hthrough := hname.through around
      obtain ⟨hobstacle, links, reached, hfollow⟩ := hthrough.follow_of_walk_eq_ok hname hwalk
      rw [hthrough.walk_eq hname hobstacle hfollow] at hwalk
      obtain rfl : place = reached ++ [disk.tree.unusedName] :=
        place_of_walkFrom_cons (not_or.mpr ⟨hname.ne_empty, hname.ne_dot⟩) hname.ne_dots rfl hwalk
      have hentry : ∀ other, after.tree.entryAt? other =
          if other = reached ++ [disk.tree.unusedName] then some .directory
          else disk.tree.entryAt? other := by
        rw [hput]
        exact entryAt?_put_eq disk.tree hsound.2.1 .directory
      have hgrows : disk.tree.Grows after.tree := by
        intro other
        rw [hentry]
        split
        · next hother => exact .inr ⟨hother ▸ hsound.1, rfl, trivial⟩
        · exact .inl rfl
      refine ⟨hnotes, .inr ⟨links, reached, rfl, ?_, hfollow, hsound.1, hentry, ?_⟩⟩
      · exact ⟨hname, hobstacle, follow_of_keeps hgrows.keeps hfollow, by rw [hentry, if_pos rfl]⟩
      · rw [hput]
        exact hgrounded.put hsound.2.1 hsound.2.2 fun _ => rfl
    · contradiction
  · obtain ⟨hnotes, ⟨hok, -⟩ | ⟨other, -, hsame⟩⟩ := attempt_cases hattempt
    · contradiction
    · exact ⟨hnotes, .inl ⟨obstacle, rfl, hsame⟩⟩

end SchemaBindings
