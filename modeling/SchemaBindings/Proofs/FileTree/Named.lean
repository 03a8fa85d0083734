import SchemaBindings.Proofs.FileTree.Hidden
import SchemaBindings.Proofs.FileTree.Making

/-!
# Named entries of a directory

Where the way of a path consists of directories, a name that is joined to the path leads to what has
that name in its goal. So changes along such paths are changes at one place or two.
-/

namespace SchemaBindings

open FileTree
open SchemaBindings.Path (blank movesOf)

namespace FileTree

/-! ## Walks to a name -/

variable {tree : FileTree} {cwd : Place} {base : Path} {name : String}

/-- A name is not blank. -/
theorem IsName.not_blank (hname : IsName name) : blank name = false := by
  simp [blank, hname.ne_empty, hname.ne_dot]

/-- A name that is joined to a path leads below its goal. -/
theorem goal_join (cwd : Place) (base : Path) (hname : IsName name) :
    goal cwd (base.join ⟨name⟩) = goal cwd base ++ [name] := by
  rw [goal, goal, base.moves_join hname.not_blank hname.no_slash, start, start,
    base.isAbsolute_join (Path.isAbsolute_of_no_slash hname.no_slash), reach_concat,
    moveTo_name hname.ne_dots]

/-- A name that is joined to a path is at the end of its way. -/
theorem way_join (cwd : Place) (base : Path) (hname : IsName name) :
    way cwd (base.join ⟨name⟩) = way cwd base ++ [goal cwd base ++ [name]] := by
  rw [way, way, goal, base.moves_join hname.not_blank hname.no_slash, start, start,
    base.isAbsolute_join (Path.isAbsolute_of_no_slash hname.no_slash), passed_concat,
    moveTo_name hname.ne_dots]

/-- A walk to a name in a directory ends at what has the name there. -/
theorem walk_join (hname : IsName name) (hpath : pathObstacle? (base.join ⟨name⟩) = none)
    (hway : ∀ stop ∈ way cwd base, tree.entryAt? stop = some .directory) {last : LastLink}
    (hlink : last = .through →
      ∀ target, tree.entryAt? (goal cwd base ++ [name]) ≠ some (.link target)) :
    tree.walk cwd last (base.join ⟨name⟩) = .ok (tree.arrivalAt (goal cwd base ++ [name])) := by
  have hrelative := Path.isAbsolute_of_no_slash hname.no_slash
  have hpieces : (base.join ⟨name⟩).pieces = base.front ++ [name] := by
    rw [base.pieces_join hrelative, Path.pieces_of_no_slash hname.no_slash]
  rw [← goal_join cwd base hname] at hlink ⊢
  refine walk_name hpath hpieces hname.not_blank hname.ne_dots ?_ hlink
  rw [base.movesOf_front, start, base.isAbsolute_join hrelative]
  exact hway

/-- A name that is joined to a path may be given if it is short enough. -/
theorem endsInName_join (base : Path) (hname : IsName name)
    (hshort : name.utf8ByteSize ≤ Disk.nameLimit) :
    Disk.endsInName (base.join ⟨name⟩) = true :=
  (endsInName_iff (base.moves_join hname.not_blank hname.no_slash) hname.ne_dots).mpr hshort

/-- Nothing stands against a path that a name is joined to, unless it is too long or has a zero
inside. -/
theorem pathObstacle?_join (hname : IsName name) (hbase : '\x00' ∉ base.text.toList)
    (hzero : '\x00' ∉ name.toList) (hsize : (base.join ⟨name⟩).text.utf8ByteSize ≤ pathLimit) :
    pathObstacle? (base.join ⟨name⟩) = none := by
  have htext := base.text_join hname.no_slash
  unfold pathObstacle?
  rw [if_neg, if_neg, if_neg (by omega)]
  · rcases htext with h | h <;> simp [h, hbase, hzero]
  · rw [String.isEmpty_iff]
    intro hempty
    rw [hempty] at htext
    refine hname.ne_empty (String.toList_eq_nil_iff.mp ?_)
    rcases htext with h | h
    all_goals
      have hnil := congrArg String.toList h
      rw [String.toList_append] at hnil
      exact (List.append_eq_nil_iff.mp hnil.symm).2

/-- Places below different directories are different. -/
theorem below_ne {place other : Place} (h : place ≠ other) (name more : String) :
    place ++ [name] ≠ other ++ [more] :=
  fun hsame => h (List.append_inj' hsame rfl).1

/-! ## Changes at a name -/

/-- A walk that ends where nothing is arrives at a free place. -/
theorem arrivalAt_of_none {place : Place} (h : tree.entryAt? place = none) :
    tree.arrivalAt place = .free place false := by
  rw [arrivalAt, h]

/-- A walk that ends where something is arrives at what is there. -/
theorem arrivalAt_of_some {place : Place} {entry : Entry} (h : tree.entryAt? place = some entry) :
    tree.arrivalAt place = .taken place entry := by
  rw [arrivalAt, h]

/-- What has a name in a directory may be replaced, unless it is a directory itself. -/
theorem fits_below {place : Place} (hplace : tree.entryAt? place = some .directory) {name : String}
    (hplain : tree.entryAt? (place ++ [name]) ≠ some .directory) : tree.Fits (place ++ [name]) :=
  ⟨by simp, by rw [List.dropLast_concat, hplace], hplain⟩

variable {path source target : Path} {place other : Place} {entry : Entry}

/-- A file may be written where nothing is. -/
theorem write_free {content : ByteArray}
    (hwalk : tree.walk cwd .through path = .ok (tree.arrivalAt place))
    (hfree : tree.entryAt? place = none) :
    tree.write cwd path content = .ok (tree.put place (.file content)) := by
  rw [write, hwalk, arrivalAt_of_none hfree]

/-- What is no directory may be given another place where no directory is. -/
theorem rename_plain (hsource : tree.walk cwd .never source = .ok (tree.arrivalAt place))
    (hentry : tree.entryAt? place = some entry) (hplain : entry ≠ .directory)
    (htarget : tree.walk cwd .never target = .ok (tree.arrivalAt other))
    (hcovered : tree.entryAt? other ≠ some .directory) (hne : place ≠ other) :
    tree.rename cwd source target = .ok (tree.move place other) := by
  have hfile : tree.renameFile place (tree.arrivalAt other) = .ok (tree.move place other) := by
    cases hother : tree.entryAt? other with
    | none => rw [arrivalAt_of_none hother, renameFile]
    | some covered =>
      rw [arrivalAt_of_some hother]
      cases covered with
      | directory => exact absurd hother hcovered
      | file content => exact if_neg hne
      | link goal => exact if_neg hne
  rw [rename, hsource, arrivalAt_of_some hentry, htarget]
  cases entry with
  | directory => exact absurd rfl hplain
  | file content => exact hfile
  | link goal => exact hfile

/-- A directory may be given another place where nothing is, unless that is below its own. -/
theorem rename_directory (hsource : tree.walk cwd .never source = .ok (.taken place .directory))
    {forDirectory : Bool} (htarget : tree.walk cwd .never target = .ok (.free other forDirectory))
    (hapart : ¬ place <+: other) :
    tree.rename cwd source target = .ok (tree.move place other) := by
  rw [rename, hsource, htarget]
  exact if_neg fun hbelow => hapart (List.isPrefixOf_iff_prefix.mp hbelow)

/-- A file or a link may be removed. -/
theorem removeFile_plain (hwalk : tree.walk cwd .unlessSlash path = .ok (tree.arrivalAt place))
    (hentry : tree.entryAt? place = some entry) (hplain : entry ≠ .directory) :
    tree.removeFile cwd path = .ok (tree.remove place) := by
  rw [removeFile, hwalk, arrivalAt_of_some hentry]
  cases entry with
  | directory => exact absurd rfl hplain
  | file content => rfl
  | link goal => rfl

/-! ## Names in use -/

/-- Whether a name is in use: it is one of those that lead to something. -/
def Uses (tree : FileTree) (name : String) : Prop :=
  ∃ place, name ∈ place ∧ tree.entryAt? place ≠ none

/-- The names in use are those on the way to the places of a tree. -/
theorem mem_usedNames_iff (tree : FileTree) (name : String) :
    name ∈ tree.usedNames ↔ tree.Uses name := by
  rw [usedNames, List.mem_flatMap]
  constructor
  · intro h
    obtain ⟨⟨place, entry⟩, hentry, hname⟩ := h
    refine ⟨place, hname, ?_⟩
    rw [entryAt?_of_ne_nil tree (List.ne_nil_of_mem hname), ne_eq, List.lookup_eq_none_iff]
    exact fun hnone => by simpa using hnone _ hentry
  · intro h
    obtain ⟨place, hname, hthere⟩ := h
    obtain ⟨entry, hentry⟩ := Option.ne_none_iff_exists'.mp hthere
    exact ⟨_, mem_entries_of_entryAt? (List.ne_nil_of_mem hname) hentry, hname⟩

/-- The unused name is the first hidden one that is not in use. -/
theorem exists_unusedName (tree : FileTree) : ∃ number, tree.unusedName = hiddenName number ∧
    ¬ tree.Uses (hiddenName number) ∧ ∀ smaller < number, tree.Uses (hiddenName smaller) := by
  have hfree := tree.unusedName_not_mem_usedNames
  simp only [← mem_usedNames_iff]
  cases hfound : (List.range (tree.usedNames.length + 1)).find?
    fun number => hiddenName number ∉ tree.usedNames with
  | none =>
    have hname : tree.unusedName = hiddenName 0 := by rw [unusedName, hfound]; rfl
    exact ⟨0, hname, hname ▸ hfree, nofun⟩
  | some number =>
    obtain ⟨hunused, -, hsmaller⟩ := List.find?_range_eq_some.mp hfound
    have hname : tree.unusedName = hiddenName number := by
      rw [unusedName, hfound]
      rfl
    refine ⟨number, hname, by simpa using hunused, fun smaller hless => ?_⟩
    simpa using hsmaller smaller hless

/-- The unused name is not in use. -/
theorem not_uses_unusedName (tree : FileTree) : ¬ tree.Uses tree.unusedName := by
  obtain ⟨number, hname, hunused, -⟩ := tree.exists_unusedName
  exact hname ▸ hunused

/-- Trees that use the same hidden names have the same unused one. -/
theorem unusedName_eq {other : FileTree}
    (h : ∀ number, tree.Uses (hiddenName number) ↔ other.Uses (hiddenName number)) :
    tree.unusedName = other.unusedName := by
  obtain ⟨number, hname, hunused, hsmaller⟩ := tree.exists_unusedName
  obtain ⟨another, hother, hotherunused, hothersmaller⟩ := other.exists_unusedName
  rcases lt_trichotomy number another with hless | rfl | hless
  · exact absurd ((h number).mpr (hothersmaller number hless)) hunused
  · rw [hname, hother]
  · exact absurd ((h another).mp (hsmaller another hless)) hotherunused

end FileTree

/-! ## Changes of a disk -/

namespace Disk

variable {tree : FileTree} {cwd : Place} {path : Path}

/-- A hidden directory is made within a directory, under the name that is in use nowhere. -/
theorem makeHidden_ends (hpath : pathObstacle? (path.join ⟨tree.unusedName⟩) = none)
    (hshort : tree.unusedName.utf8ByteSize ≤ nameLimit)
    (hway : ∀ stop ∈ way cwd path, tree.entryAt? stop = some .directory)
    (hfree : tree.entryAt? (goal cwd path ++ [tree.unusedName]) = none) :
    Ends ((storage cwd).makeHidden path) tree.disk (.ok (path.join ⟨tree.unusedName⟩))
      (tree.put (goal cwd path ++ [tree.unusedName]) .directory).disk := by
  have hname := isName_unusedName tree
  have hmake : tree.makeDirectory cwd (path.join ⟨tree.unusedName⟩) =
      .ok (tree.put (goal cwd path ++ [tree.unusedName]) .directory) := by
    rw [FileTree.makeDirectory, walk_join hname hpath hway (by simp), arrivalAt_of_none hfree]
  have hrun : Ends (do
      let name ← ExceptT.lift (asks FileTree.unusedName)
      attempt (path.join ⟨name⟩) fun tree => tree.makeDirectory cwd (path.join ⟨name⟩)
      pure (path.join ⟨name⟩)) tree.disk (.ok (path.join ⟨tree.unusedName⟩))
      (tree.put (goal cwd path ++ [tree.unusedName]) .directory).disk := by
    rw [Ends.bind_iff]
    refine .inl ⟨tree.unusedName, tree.disk,
      Ends.lift_iff.mpr ⟨_, rfl, asks_iff.mpr ⟨rfl, rfl⟩⟩, ?_⟩
    rw [Ends.bind_iff]
    refine .inl ⟨(), _, attempt_ok (fun tree => tree.makeDirectory cwd (path.join ⟨_⟩)) hmake ?_,
      Ends.pure_iff.mpr ⟨rfl, rfl⟩⟩
    exact endsInName_join path hname hshort
  exact hrun

/-- What a name in a directory has is what is seen there. -/
theorem ownKind_ends {place : Place} {entry : Entry}
    (hwalk : tree.walk cwd .unlessSlash path = .ok (tree.arrivalAt place))
    (hentry : tree.entryAt? place = some entry) :
    Ends ((storage cwd).ownKind path) tree.disk (.ok entry.kind) tree.disk := by
  change ((tree.lookAt cwd path).map Prod.snd, tree.disk) = _
  rw [lookAt, hwalk, arrivalAt_of_some hentry]
  rfl

/-- Where a name in a directory has nothing, nothing is seen. -/
theorem ownKind_missing {place : Place}
    (hwalk : tree.walk cwd .unlessSlash path = .ok (tree.arrivalAt place))
    (hentry : tree.entryAt? place = none) :
    Ends ((storage cwd).ownKind path) tree.disk (.error .missing) tree.disk := by
  change ((tree.lookAt cwd path).map Prod.snd, tree.disk) = _
  rw [lookAt, hwalk, arrivalAt_of_none hentry]
  rfl

/-- A change that undoes something and that the tree allows is made. -/
theorem settle_ok (change : FileTree → Except Obstacle FileTree) {changed : FileTree}
    (h : change tree = .ok changed) :
    Gives (settle path change) tree.disk () changed.disk := by
  change ((), _) = ((), _)
  simp [FileTree.disk, h]

end Disk

end SchemaBindings
