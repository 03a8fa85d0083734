import SchemaBindings.Proofs.Bindings.Installing

/-!
# What becomes of writing

Where the way to the output directory goes through no links, writing succeeds exactly if every place
on the way is a directory or may become one, and no file is to replace a directory. Then the files
lie in the output directory; otherwise there are at most more directories on the way.
-/

namespace SchemaBindings.Bindings

open SchemaBindings.FileTree

/-! ## What writing relies on -/

/-- The names of the hidden directories that writing to a tree makes, one after the other. -/
def temporaryNames (tree : FileTree) : List String :=
  [tree.unusedName, (tree.put [tree.unusedName] .directory).unusedName]

/-- Whether the paths of a hidden directory beside an output directory and of files in it are short
enough. -/
structure ShortBeside (out : Path) (files : List OutputFile) (name : String) : Prop where
  name_le : name.utf8ByteSize ≤ Disk.nameLimit
  hidden_le : ((surroundings out).join ⟨name⟩).text.utf8ByteSize ≤ pathLimit
  file_le : ∀ file ∈ files, (((surroundings out).join ⟨name⟩).join file.path).text.utf8ByteSize ≤
    pathLimit

/-- Whether the way to an output directory is clear: no link is on it, no name looks like that of a
hidden directory, no path is too long, and a dot at the end of the path stands for a directory that
is there. -/
structure ClearWay (cwd : Place) (out : Path) (files : List OutputFile) (tree : FileTree) :
    Prop where
  no_links : ∀ stop ∈ way cwd out, ∀ target, tree.entryAt? stop ≠ some (.link target)
  dot : EndsInDot out → tree.entryAt? (goal cwd out) = some .directory
  not_hidden : ∀ number, hiddenName number ∉ out.moves
  target_le : ∀ file ∈ files, (out.join file.path).text.utf8ByteSize ≤ pathLimit
  beside : ∀ name ∈ temporaryNames tree, ShortBeside out files name

/-- What writing files below an output directory relies on: besides a clear way, a tree in which the
working directory is there, and files with names of their own. -/
structure Suited (cwd : Place) (out : Path) (files : List OutputFile) (tree : FileTree) :
    Prop extends
    ClearWay cwd out files tree where
  grounded : tree.Grounded
  cwd_eq : tree.entryAt? cwd = some .directory
  names : ∀ file ∈ files, FileName file.path.text
  nodup : (files.map fun file => file.path.text).Nodup

/-- Whether files may be written below an output directory. -/
def Takes (cwd : Place) (out : Path) (files : List OutputFile) (tree : FileTree) : Prop :=
  pathObstacle? out = none ∧ (∀ file ∈ files, file.path.text.utf8ByteSize ≤ Disk.nameLimit) ∧
    (((∀ stop ∈ way cwd out, tree.Passable stop) ∧ ∀ file ∈ files,
        tree.entryAt? (goal cwd out ++ [file.path.text]) ≠ some .directory ∧
          goal cwd out ++ [file.path.text] ∉ way cwd out) ∨
      (files = [] ∧ out.Bare ∧ (∀ stop ∈ way cwd (surroundings out), tree.Passable stop) ∧
        ∃ content, tree.entryAt? (goal cwd out) = some (.file content)))

variable {cwd : Place} {out : Path} {files : List OutputFile} {tree roomy : FileTree}

/-! ## The directories around -/

/-- The way around an output directory is part of the way there. -/
theorem mem_way_of_surroundings {stop : Place} (h : stop ∈ way cwd (surroundings out)) :
    stop ∈ way cwd out := by
  rcases (Path.around_surroundings out).2.2 with ⟨-, hmoves⟩ | ⟨habsolute, last, hmoves⟩
  · simp [way, hmoves, passed] at h
  · rw [way, hmoves, passed_concat, start, ← habsolute, ← start, ← way]
    exact List.mem_append_left _ h

/-- Beyond the way around it, the way to an output directory leads to its goal alone. -/
theorem mem_way_cases {stop : Place} (h : stop ∈ way cwd out) :
    stop ∈ way cwd (surroundings out) ∨ stop = goal cwd out := by
  rcases (Path.around_surroundings out).2.2 with ⟨hmoves, -⟩ | ⟨habsolute, last, hmoves⟩
  · simp [way, hmoves, passed] at h
  · rw [way, hmoves, passed_concat, ← reach_concat, ← hmoves, ← goal,
      start, ← habsolute, ← start, ← way] at h
    exact (List.mem_append.mp h).imp_right List.mem_singleton.mp

/-- Where nothing stands against an output directory, nothing stands against the one around it. -/
theorem pathObstacle?_surroundings (h : pathObstacle? out = none) :
    pathObstacle? (surroundings out) = none := by
  have hdot : pathObstacle? ⟨"."⟩ = none := by decide +kernel
  cases hparent : out.parent? with
  | none => simpa [surroundings, hparent] using hdot
  | some parent =>
    by_cases hempty : parent.text = ""
    · simpa [surroundings, hparent, hempty] using hdot
    · have hsame : surroundings out = parent := by simp [surroundings, hparent, hempty]
      rw [hsame]
      exact pathObstacle?_of_below h (Path.around_of_parent? hparent).text_below hempty

/-- A path that nothing is wrong with has no zero character in it. -/
theorem no_zero_of_pathObstacle? {path : Path} (h : pathObstacle? path = none) :
    '\x00' ∉ path.text.toList := by
  unfold pathObstacle? at h
  split_ifs at h with hempty hzero hlong
  exact hzero

/-- Hidden directories with short paths fit. -/
theorem ShortBeside.fitting {name : String} (hshort : ShortBeside out files name)
    (hname : ∃ number, name = hiddenName number) (haround : pathObstacle? (surroundings out) = none)
    (hfiles : ∀ file ∈ files, FileName file.path.text) :
    Fitting out name files := by
  obtain ⟨number, rfl⟩ := hname
  have hhidden := pathObstacle?_join (isName_hiddenName number) (no_zero_of_pathObstacle? haround)
    (no_zero_hiddenName number) hshort.hidden_le
  exact ⟨hshort.name_le, hhidden, fun file hfile => pathObstacle?_join (hfiles file hfile).isName
    (no_zero_of_pathObstacle? hhidden) (hfiles file hfile).no_zero (hshort.file_le file hfile)⟩

/-- Whether the directories around an output directory were made in a tree. -/
structure AroundMade (cwd : Place) (out : Path) (tree roomy : FileTree) : Prop where
  grounded : roomy.Grounded
  grows : tree.GrowsBy (fun stop => stop ∈ way cwd (surroundings out) ∧ Short stop) roomy
  directories : ∀ stop ∈ way cwd (surroundings out), roomy.entryAt? stop = some .directory

/-- Where the directories around were made, an output directory takes short names exactly if it did
before. -/
theorem accepts_iff_takes (hroom : AroundMade cwd out tree roomy)
    (hshort : ∀ file ∈ files, file.path.text.utf8ByteSize ≤ Disk.nameLimit) :
    Accepts cwd out files roomy ↔ Takes cwd out files tree := by
  have hgrows := hroom.grows.grows
  have hback {stop : Place} (hstop : roomy.Passable stop) : tree.Passable stop := by
    rcases hstop with hdirectory | ⟨hnone, hsize⟩
    · rcases hroom.grows stop with hsame | ⟨hnone, -, -, hsize⟩
      · exact .inl (hsame ▸ hdirectory)
      · exact .inr ⟨hnone, hsize⟩
    · exact .inr ⟨hgrows.eq_none hnone, hsize⟩
  have hsub {stop : Place} : stop ∈ way cwd (surroundings out) → stop ∈ way cwd out :=
    mem_way_of_surroundings
  have hcovered (file : OutputFile) : roomy.entryAt? (goal cwd out ++ [file.path.text]) ≠
      some .directory ↔
      tree.entryAt? (goal cwd out ++ [file.path.text]) ≠ some .directory ∧
        goal cwd out ++ [file.path.text] ∉ way cwd out := by
    constructor
    · refine fun hplain => ⟨fun hdirectory => hplain (hgrows.extends hdirectory), fun hin => ?_⟩
      rcases mem_way_cases hin with haround | hgoal
      · exact hplain (hroom.directories _ haround)
      · simp at hgoal
    · rintro ⟨hplain, hout⟩ hdirectory
      rcases hroom.grows (goal cwd out ++ [file.path.text]) with hsame | ⟨-, -, hin, -⟩
      · exact hplain (hsame ▸ hdirectory)
      · exact hout (hsub hin)
  constructor
  · rintro ⟨hpath, ⟨hpassable, hplain⟩ | ⟨hnil, hbare, content, hfile⟩⟩
    · exact ⟨hpath, hshort, .inl ⟨fun stop hstop => hback (hpassable stop hstop),
        fun file hfile => (hcovered file).mp (hplain file hfile)⟩⟩
    · exact ⟨hpath, hshort,
        .inr ⟨hnil, hbare, fun stop hstop => hback (.inl (hroom.directories stop hstop)), content,
        hgrows.eq_some_of_plain hfile (by simp)⟩⟩
  · rintro ⟨hpath, -, ⟨hpassable, hplain⟩ | ⟨hnil, hbare, -, content, hfile⟩⟩
    · exact ⟨hpath, .inl ⟨fun stop hstop => (hpassable stop hstop).grows hgrows,
        fun file hfile => (hcovered file).mpr (hplain file hfile)⟩⟩
    · exact ⟨hpath, .inr ⟨hnil, hbare, content, hgrows.extends hfile⟩⟩

/-- Files that lie in an output directory once there was room lie there in the tree from before. -/
theorem LaidIn.of_room {after : FileTree} (h : LaidIn cwd out files roomy after)
    (hroom : AroundMade cwd out tree roomy) :
    LaidIn cwd out files tree after := by
  refine ⟨h.content_eq, fun place hplace => ?_⟩
  have hstep := hroom.grows place
  rcases h.others place hplace with hsame | ⟨hnone, hdirectory, hin, hsize⟩
  · rw [hsame]
    exact hstep.imp_right fun ⟨hnone, hdirectory, hin, hsize⟩ =>
      ⟨hnone, hdirectory, mem_way_of_surroundings hin, hsize⟩
  · exact .inr ⟨hroom.grows.grows.eq_none hnone, hdirectory, hin, hsize⟩

/-! ## Names in use -/

/-- What becomes of the places of a tree: most stay the same, some where nothing was become
directories on the way to an output directory, and the files lie in it. -/
def Touched (cwd : Place) (out : Path) (files : List OutputFile) (tree after : FileTree) : Prop :=
  ∀ place, after.entryAt? place = tree.entryAt? place ∨
    (tree.entryAt? place = none ∧ after.entryAt? place = some .directory ∧
      place ∈ way cwd out ∧ Short place) ∨
    ∃ file ∈ files, place = goal cwd out ++ [file.path.text] ∧
      after.entryAt? place = some (.file file.content.toUTF8) ∧
      tree.entryAt? place ≠ some .directory

/-- No hidden name comes into use or out of use. -/
theorem Touched.uses_iff {after : FileTree} (h : Touched cwd out files tree after)
    (hcwd : tree.entryAt? cwd = some .directory) (hout : ∀ number, hiddenName number ∉ out.moves)
    (hfiles : ∀ file ∈ files, FileName file.path.text) (number : Nat) :
    after.Uses (hiddenName number) ↔ tree.Uses (hiddenName number) := by
  have hstart : hiddenName number ∈ start cwd out → tree.Uses (hiddenName number) :=
    fun hin => ⟨_, hin, by simp [directory_start hcwd out]⟩
  have hway {stop : Place} (hstop : stop ∈ way cwd out) (hin : hiddenName number ∈ stop) :
      tree.Uses (hiddenName number) :=
    (mem_of_mem_passed hstop hin).elim hstart fun hmoves => absurd hmoves (hout number)
  constructor
  · intro huses
    obtain ⟨place, hin, hthere⟩ := huses
    rcases h place with hsame | ⟨-, -, hstop, -⟩ | ⟨file, hfile, rfl, -⟩
    · exact ⟨place, hin, hsame ▸ hthere⟩
    · exact hway hstop hin
    · rcases List.mem_append.mp hin with hgoal | hname
      · rcases goal_mem_way cwd out with hstop | hnowhere
        · exact hway hstop hgoal
        · exact hstart (hnowhere ▸ hgoal)
      · exact absurd (List.mem_singleton.mp hname).symm ((hfiles file hfile).not_hidden number)
  · intro huses
    obtain ⟨place, hin, hthere⟩ := huses
    refine ⟨place, hin, ?_⟩
    rcases h place with hsame | ⟨hnone, -⟩ | ⟨file, hfile, -, hcontent, -⟩
    · rwa [hsame]
    · exact absurd hnone hthere
    · simp [hcontent]

/-- Making room touches nothing else. -/
theorem AroundMade.touched (hroom : AroundMade cwd out tree roomy) (files : List OutputFile) :
    Touched cwd out files tree roomy := fun place =>
  (hroom.grows place).imp_right fun ⟨hnone, hdirectory, hin, hsize⟩ =>
    .inl ⟨hnone, hdirectory, mem_way_of_surroundings hin, hsize⟩

/-- A name of its own for a directory at the root comes into use, and no other. -/
theorem uses_put_singleton (tree : FileTree) (name other : String) :
    (tree.put [name] .directory).Uses other ↔ tree.Uses other ∨ other = name := by
  have hentry := entryAt?_put_eq tree (List.cons_ne_nil name []) .directory
  constructor
  · intro huses
    obtain ⟨place, hin, hthere⟩ := huses
    by_cases hplace : place = [name]
    · exact .inr (List.mem_singleton.mp (hplace ▸ hin))
    · rw [hentry, if_neg hplace] at hthere
      exact .inl ⟨place, hin, hthere⟩
  · rintro (⟨place, hin, hthere⟩ | rfl)
    · refine ⟨place, hin, ?_⟩
      rw [hentry]
      split
      · simp
      · exact hthere
    · exact ⟨[other], List.mem_singleton_self other, by simp [hentry]⟩

/-- While files are staged, the name of the hidden directory is in use besides those that were. -/
theorem Bench.uses_iff {name : String} {staged : FileTree}
    (hbench : Bench cwd out name files roomy staged)
    (hnothing : NothingElse cwd out name files staged) (number : Nat) :
    staged.Uses (hiddenName number) ↔ roomy.Uses (hiddenName number) ∨
    hiddenName number = name := by
  constructor
  · intro huses
    obtain ⟨place, hin, hthere⟩ := huses
    by_cases hbelow : goal cwd (surroundings out) ++ [name] <+: place
    swap
    · exact .inl ⟨place, hin, by rwa [← hbench.outside place hbelow]⟩
    have hhidden : hiddenName number ∈ goal cwd (surroundings out) ++ [name] := by
      by_contra hnot
      by_cases hsame : place = goal cwd (surroundings out) ++ [name]
      · exact hnot (by rwa [← hsame])
      · refine hthere (hnothing place hbelow (fun file hfile hfileplace => ?_) hsame)
        rw [hfileplace, List.mem_append, List.mem_singleton] at hin
        exact hin.elim hnot fun hname => (hbench.names file hfile).not_hidden number hname.symm
    rcases List.mem_append.mp hhidden with hgoal | hname
    · exact .inl ⟨_, hgoal, by simp [directory_goal hbench.cwd_eq hbench.around]⟩
    · exact .inr (List.mem_singleton.mp hname)
  · rintro (⟨place, hin, hthere⟩ | hname)
    · obtain ⟨entry, hentry⟩ := Option.ne_none_iff_exists'.mp hthere
      exact ⟨place, hin, by simp [hbench.entry_eq hentry]⟩
    · exact ⟨goal cwd (surroundings out) ++ [name], by simp [hname], by simp [hbench.directory]⟩

/-- The unused name of a tree stays unused where the directories around are made. -/
theorem AroundMade.same_unusedName (hroom : AroundMade cwd out tree roomy)
    (hsuited : Suited cwd out files tree) :
    tree.unusedName = roomy.unusedName :=
  unusedName_eq fun number =>
    ((hroom.touched files).uses_iff hsuited.cwd_eq hsuited.not_hidden hsuited.names number).symm

/-- Beside the output directory there is room for the hidden directory that files are staged in. -/
theorem AroundMade.shortBeside (hroom : AroundMade cwd out tree roomy)
    (hsuited : Suited cwd out files tree) :
    ShortBeside out files roomy.unusedName :=
  hsuited.beside roomy.unusedName (by simp [temporaryNames, hroom.same_unusedName hsuited])

/-- The names of the hidden directories that are made are those that are told from the tree. -/
theorem temporaryNames_eq (hsuited : Suited cwd out files tree)
    (hroom : AroundMade cwd out tree roomy) {staged : FileTree}
    (hbench : Bench cwd out roomy.unusedName files roomy staged)
    (hnothing : NothingElse cwd out roomy.unusedName files staged) :
    temporaryNames tree = [roomy.unusedName, staged.unusedName] := by
  have hiff := (hroom.touched files).uses_iff hsuited.cwd_eq hsuited.not_hidden hsuited.names
  have hfirst := hroom.same_unusedName hsuited
  have hsecond : (tree.put [tree.unusedName] .directory).unusedName = staged.unusedName :=
    unusedName_eq fun number => by
      rw [uses_put_singleton, hbench.uses_iff hnothing, hiff, hfirst]
  rw [temporaryNames, hsecond, hfirst]

/-! ## Runs -/

/-- The tree where nothing is staged yet: a new hidden directory is beside the output directory. -/
def opened (cwd : Place) (out : Path) (roomy : FileTree) : FileTree :=
  roomy.put (goal cwd (surroundings out) ++ [roomy.unusedName]) .directory

/-- Once the hidden directory is made, it stands at its place, and every other place is as it was.
-/
theorem entryAt?_opened (cwd : Place) (out : Path) (roomy : FileTree) (place : Place) :
    (opened cwd out roomy).entryAt? place =
      if place = goal cwd (surroundings out) ++ [roomy.unusedName] then some .directory
      else roomy.entryAt? place := by
  rw [opened, entryAt?_put_eq roomy (by simp)]

/-- What was a directory still is one. -/
theorem directory_opened {place : Place} (h : roomy.entryAt? place = some .directory) :
    (opened cwd out roomy).entryAt? place = some .directory := by
  rw [entryAt?_opened]
  split
  · rfl
  · exact h

/-- The new hidden directory is in a directory. -/
theorem AroundMade.grounded_opened (hroom : AroundMade cwd out tree roomy)
    (hcwd : roomy.entryAt? cwd = some .directory) : (opened cwd out roomy).Grounded := by
  refine hroom.grounded.put (by simp) ?_ fun _ => rfl
  rw [List.dropLast_concat]
  exact directory_goal hcwd hroom.directories

/-- The way to the new hidden directory is there. -/
theorem AroundMade.way_opened (hroom : AroundMade cwd out tree roomy) :
    ∀ stop ∈ way cwd ((surroundings out).join ⟨roomy.unusedName⟩),
      (opened cwd out roomy).entryAt? stop = some .directory := by
  intro stop hstop
  rw [way_join cwd _ (isName_unusedName roomy), List.mem_append, List.mem_singleton] at hstop
  rcases hstop with hstop | hstop
  · exact directory_opened (hroom.directories stop hstop)
  · rw [hstop, entryAt?_opened, if_pos rfl]

/-- Staging files sets up a workbench, unless the name of one of them is too long: then it is one
without files. -/
theorem stage_at_bench (hsuited : Suited cwd out files tree) (hroom : AroundMade cwd out tree roomy)
    (hfitting : Fitting out roomy.unusedName files) :
    ∃ (outcome : Except WriteFailure Unit) (staged : FileTree),
      Ends (files.forM (stage (Disk.storage cwd) ((surroundings out).join ⟨roomy.unusedName⟩)))
        (opened cwd out roomy).disk outcome staged.disk ∧
      ((outcome = .ok () ∧ (∀ file ∈ files, file.path.text.utf8ByteSize ≤ Disk.nameLimit) ∧
          NothingElse cwd out roomy.unusedName files staged ∧
          Bench cwd out roomy.unusedName files roomy staged) ∨
        ((∃ failure, outcome = .error failure) ∧
          (∃ file ∈ files, ¬ file.path.text.utf8ByteSize ≤ Disk.nameLimit) ∧
          Bench cwd out roomy.unusedName [] roomy staged)) := by
  have hgrows := hroom.grows.grows
  have hcwd := hgrows.extends hsuited.cwd_eq
  have hname := isName_unusedName roomy
  have hunder {place : Place} (h : goal cwd (surroundings out) ++ [roomy.unusedName] <+: place) :
      roomy.entryAt? place = none :=
      eq_none_of_not_uses roomy.not_uses_unusedName (h.subset (by simp))
  have hne (file : OutputFile) : goal cwd (surroundings out) ++ [roomy.unusedName] ++
      [file.path.text] ≠ goal cwd (surroundings out) ++ [roomy.unusedName] := by simp
  obtain ⟨outcome, staged, hends, hstaged, hcases⟩ := stageAll_ends hsuited.names hsuited.nodup
    hfitting.file_fits
    (hroom.grounded_opened hcwd) (directory_opened hcwd) hroom.way_opened fun file hfile => by
      rw [goal_join cwd _ hname, entryAt?_opened, if_neg (hne file),
        hunder (List.prefix_append _ _)]
  have hothers := hstaged.others
  rw [goal_join cwd _ hname] at hothers hcases
  have hdirectory : staged.entryAt? (goal cwd (surroundings out) ++ [roomy.unusedName]) =
      some .directory := by
    rw [hothers _ fun file _ => (hne file).symm, entryAt?_opened, if_pos rfl]
  have houtside : ∀ place, ¬ goal cwd (surroundings out) ++ [roomy.unusedName] <+: place →
      staged.entryAt? place = roomy.entryAt? place := by
    intro place hbelow
    rw [hothers, entryAt?_opened, if_neg]
    · exact fun hsame => hbelow (by rw [hsame])
    · exact fun file _ hsame => hbelow (by rw [hsame]; exact List.prefix_append _ _)
  have hnothing : NothingElse cwd out roomy.unusedName files staged := by
    intro place hbelow hplace hitself
    rw [hothers place hplace, entryAt?_opened, if_neg hitself, hunder hbelow]
  obtain ⟨number, hnumber, -⟩ := roomy.exists_unusedName
  have hlinks : ∀ stop ∈ way cwd out, ∀ target, roomy.entryAt? stop ≠ some (.link target) :=
    fun stop hstop target hlink => hsuited.no_links stop hstop target
      (hgrows.eq_some_of_plain hlink (by simp))
  have hbench {placed : List OutputFile} (hfiles : placed.Sublist files)
      (hshort : ∀ file ∈ placed, file.path.text.utf8ByteSize ≤ Disk.nameLimit)
      (hcontent : ∀ file ∈ placed,
        staged.entryAt? (goal cwd (surroundings out) ++ [roomy.unusedName] ++
        [file.path.text]) = some (.file file.content.toUTF8)) : Bench cwd out roomy.unusedName
        placed roomy staged :=
    ⟨hroom.grounded, hstaged.grounded, hcwd, hroom.directories, hlinks,
      fun file hfile => hsuited.names file (hfiles.subset hfile), hshort,
      hsuited.nodup.sublist (hfiles.map _), ⟨number, hnumber⟩, roomy.not_uses_unusedName,
      hsuited.not_hidden, ⟨hfitting.short, hfitting.hidden_fits,
        fun file hfile => hfitting.file_fits file (hfiles.subset hfile)⟩, houtside,
        hdirectory, hcontent⟩
  refine ⟨outcome, staged, hends, ?_⟩
  rcases hcases with ⟨hok, hshort, hcontent⟩ | ⟨hfailed, hlong⟩
  · exact .inl ⟨hok, hshort, hnothing, hbench (List.Sublist.refl files) hshort hcontent⟩
  · exact .inr ⟨hfailed, hlong, hbench (List.nil_sublist files) (by simp) (by simp)⟩

/-- Staging and installing succeed exactly if files with short names are taken. Then they lie in the
output directory; otherwise everything is as it was. -/
theorem stageAndInstall_ends (hsuited : Suited cwd out files tree)
    (hroom : AroundMade cwd out tree roomy) (haround : pathObstacle? (surroundings out) = none) :
    ∃ (outcome : Except WriteFailure Unit) (after : FileTree),
      Ends (clearing (Disk.storage cwd) ((surroundings out).join ⟨roomy.unusedName⟩) do
          files.forM (stage (Disk.storage cwd) ((surroundings out).join ⟨roomy.unusedName⟩))
          install (Disk.storage cwd) ((surroundings out).join ⟨roomy.unusedName⟩) out files)
        (opened cwd out roomy).disk outcome after.disk ∧ after.Grounded ∧
      ((outcome = .ok () ∧ Takes cwd out files tree ∧ LaidIn cwd out files roomy after) ∨
        ((∃ failure, outcome = .error failure) ∧ ¬ Takes cwd out files tree ∧
          ∀ place, after.entryAt? place = roomy.entryAt? place)) := by
  obtain ⟨number, hnumber, -⟩ := roomy.exists_unusedName
  have hfitting := (hroom.shortBeside hsuited).fitting ⟨number, hnumber⟩ haround hsuited.names
  obtain ⟨result, staged, hstage, ⟨rfl, hshort, hnothing, hbench⟩ |
    ⟨⟨failure, rfl⟩, ⟨file, hfile, hlong⟩, hbench⟩⟩ :=
    stage_at_bench hsuited hroom hfitting
  · have hnext : staged.unusedName ∈ temporaryNames tree := by
      rw [temporaryNames_eq hsuited hroom hbench hnothing]
      simp
    obtain ⟨another, hanother, -⟩ := staged.exists_unusedName
    have hother := (hsuited.beside _ hnext).fitting ⟨another, hanother⟩ haround hsuited.names
    obtain ⟨outcome, after, hinstall, hgrounded, hcases⟩ := hbench.install_ends hother hnothing
      (fun hpath file hfile => pathObstacle?_join (hsuited.names file hfile).isName
        (no_zero_of_pathObstacle? hpath)
        (hsuited.names file hfile).no_zero (hsuited.target_le file hfile))
      (fun hends => hroom.grows.grows.extends (hsuited.dot hends))
    rw [accepts_iff_takes hroom hshort] at hcases
    exact ⟨outcome, _, clearing_ends (Ends.bind_ok hstage hinstall), hgrounded, hcases⟩
  · obtain ⟨hgrounded, hback⟩ := hbench.abandoned
    exact ⟨.error failure, _, clearing_ends (Ends.bind_error hstage), hgrounded,
      .inr ⟨⟨failure, rfl⟩, fun htakes => hlong (htakes.2.1 file hfile), hback⟩⟩

/-- Writing succeeds exactly if the files are taken. Then they lie in the output directory;
otherwise there are at most more directories on the way there. -/
theorem writeOut_ends {emitted : List EmittedFile}
    (hsuited : Suited cwd out (outputFiles emitted) tree) :
    ∃ (outcome : Except WriteFailure Nat) (after : FileTree),
      Ends (writeOut (Disk.storage cwd) out emitted) tree.disk outcome after.disk ∧ after.Grounded ∧
      ((outcome = .ok (outputFiles emitted).length ∧ Takes cwd out (outputFiles emitted) tree ∧
          LaidIn cwd out (outputFiles emitted) tree after) ∨
        ((∃ failure, outcome = .error failure) ∧ ¬ Takes cwd out (outputFiles emitted) tree ∧
          tree.GrowsBy (fun stop => stop ∈ way cwd out ∧ Short stop) after)) := by
  obtain ⟨htext, hbare, -⟩ := Path.around_surroundings out
  cases haround : pathObstacle? (surroundings out) with
  | some obstacle =>
    refine ⟨_, tree,
      Ends.bind_error (Ends.adapt (Disk.makeDirectories_of_pathObstacle haround htext) _),
      hsuited.grounded, .inr ⟨⟨_, rfl⟩, fun htakes => ?_, .refl _ tree⟩⟩
    simp [pathObstacle?_surroundings htakes.1] at haround
  | none =>
  obtain ⟨made, roomy, hmade, hway⟩ := Disk.makeDirectories_ends hsuited.grounded
    hsuited.cwd_eq haround hbare
    fun stop hstop => hsuited.no_links stop (mem_way_of_surroundings hstop)
  have hgrows : tree.GrowsBy (fun stop => stop ∈ way cwd out ∧ Short stop) roomy := fun place =>
    (hway.grows place).imp_right fun ⟨hnone, hdirectory, hin, hsize⟩ =>
      ⟨hnone, hdirectory, mem_way_of_surroundings hin, hsize⟩
  cases made with
  | error obstacle =>
    refine ⟨_, roomy, Ends.bind_error (Ends.adapt hmade _), hway.grounded,
      .inr ⟨⟨_, rfl⟩, ?_, hgrows⟩⟩
    obtain ⟨stop, hstop, hblocked⟩ := hway.blocked (by simp)
    rintro ⟨-, -, ⟨hpassable, -⟩ | ⟨-, -, hpassable, -⟩⟩
    · exact hblocked (hpassable stop (mem_way_of_surroundings hstop))
    · exact hblocked (hpassable stop hstop)
  | ok done =>
    have hroom : AroundMade cwd out tree roomy := ⟨hway.grounded, hway.grows, hway.directories rfl⟩
    have hbeside := hroom.shortBeside hsuited
    obtain ⟨number, hnumber, -⟩ := roomy.exists_unusedName
    have hopened := Disk.makeHidden_ends
      (hbeside.fitting ⟨number, hnumber⟩ haround hsuited.names).hidden_fits
      hbeside.name_le hroom.directories (eq_none_of_not_uses roomy.not_uses_unusedName (by simp))
    obtain ⟨outcome, after, hends, hgrounded, hcases⟩ := stageAndInstall_ends hsuited hroom haround
    have hstart := fun {result : Except WriteFailure Nat} (h : Ends (do
          clearing (Disk.storage cwd) ((surroundings out).join ⟨roomy.unusedName⟩) do
            (outputFiles emitted).forM
              (stage (Disk.storage cwd) ((surroundings out).join ⟨roomy.unusedName⟩))
            install (Disk.storage cwd) ((surroundings out).join ⟨roomy.unusedName⟩)
              out (outputFiles emitted)
          return (outputFiles emitted).length) (opened cwd out roomy).disk result after.disk) =>
      (Ends.bind_ok (Ends.adapt hmade _) (Ends.bind_ok (Ends.adapt hopened _) h) :
        Ends (writeOut (Disk.storage cwd) out emitted) tree.disk result after.disk)
    rcases hcases with ⟨rfl, htakes, hlaid⟩ | ⟨⟨failure, rfl⟩, htakes, hsame⟩
    · exact ⟨_, after, hstart (Ends.bind_ok hends (Ends.pure_iff.mpr ⟨rfl, rfl⟩)), hgrounded,
        .inl ⟨rfl, htakes, hlaid.of_room hroom⟩⟩
    · refine ⟨_, after, hstart (Ends.bind_error hends), hgrounded,
        .inr ⟨⟨failure, rfl⟩, htakes, fun place => ?_⟩⟩
      rw [hsame]
      exact hgrows place

/-! ## Writing beside other files -/

variable {other : Path} {others : List OutputFile} {after : FileTree}

/-- What writing relies on is there as before when other files were written. -/
theorem Suited.touched (hsuited : Suited cwd out files tree)
    (h : Touched cwd other others tree after) (hother : Suited cwd other others tree)
    (hgrounded : after.Grounded) : Suited cwd out files after := by
  have hdirectory {place : Place} (hplace : tree.entryAt? place = some .directory) :
      after.entryAt? place = some .directory := by
    rcases h place with hsame | ⟨hnone, -⟩ | ⟨-, -, -, -, hplain⟩
    · rwa [hsame]
    · simp [hnone] at hplace
    · exact absurd hplace hplain
  have huses := h.uses_iff hother.cwd_eq hother.not_hidden hother.names
  have hfirst : after.unusedName = tree.unusedName := unusedName_eq huses
  have hnames : temporaryNames after = temporaryNames tree := by
    have hsecond : (after.put [tree.unusedName] .directory).unusedName =
        (tree.put [tree.unusedName] .directory).unusedName :=
      unusedName_eq fun number => by rw [uses_put_singleton, uses_put_singleton, huses]
    rw [temporaryNames, temporaryNames, hfirst, hsecond]
  refine ⟨⟨fun stop hstop target hlink => ?_,
    fun hends => hdirectory (hsuited.dot hends), hsuited.not_hidden, hsuited.target_le,
    hnames ▸ hsuited.beside⟩, hgrounded, hdirectory hsuited.cwd_eq, hsuited.names, hsuited.nodup⟩
  rcases h stop with hsame | ⟨-, hmade, -⟩ | ⟨another, -, -, hcontent, -⟩
  · exact hsuited.no_links stop hstop target (hsame ▸ hlink)
  · simp [hmade] at hlink
  · simp [hcontent] at hlink

/-- An output directory takes files as before when others were written, if no file of one is a file
of the other one or lies on the way to it. -/
theorem Touched.takes_iff (h : Touched cwd other others tree after)
    (hcwd : tree.entryAt? cwd = some .directory)
    (hfiles : ∀ file ∈ files, goal cwd out ++ [file.path.text] ∉ way cwd other ∧
      ∀ another ∈ others, goal cwd out ++ [file.path.text] ≠ goal cwd other ++ [another.path.text])
    (hothers : ∀ another ∈ others, goal cwd other ++ [another.path.text] ∉ way cwd out) :
    Takes cwd out files after ↔ Takes cwd out files tree := by
  have hpassable {stop : Place} (hstop : stop ∈ way cwd out) : after.Passable stop ↔
      tree.Passable stop := by
    rcases h stop with hsame | ⟨hnone, hmade, -, hshort⟩ | ⟨another, hanother, rfl, -⟩
    · rw [Passable, Passable, hsame]
    · exact iff_of_true (.inl hmade) (.inr ⟨hnone, hshort⟩)
    · exact absurd hstop (hothers another hanother)
  have hentry : ∀ file ∈ files, after.entryAt? (goal cwd out ++ [file.path.text]) =
      tree.entryAt? (goal cwd out ++ [file.path.text]) := by
    intro file hfile
    rcases h (goal cwd out ++ [file.path.text]) with hsame | ⟨-, -, hin, -⟩ |
      ⟨another, hanother, hplace, -⟩
    · exact hsame
    · exact absurd hin (hfiles file hfile).1
    · exact absurd hplace ((hfiles file hfile).2 another hanother)
  have hfile : (∃ content, after.entryAt? (goal cwd out) = some (.file content)) ↔
      ∃ content, tree.entryAt? (goal cwd out) = some (.file content) := by
    rcases h (goal cwd out) with hsame | ⟨hnone, hmade, -⟩ | ⟨another, hanother, hplace, -, hplain⟩
    · rw [hsame]
    · simp [hnone, hmade]
    · rcases goal_mem_way cwd out with hin | hstart
      · exact absurd (hplace ▸ hin) (hothers another hanother)
      · exact absurd (hstart ▸ directory_start hcwd out) hplain
  have hway : (∀ stop ∈ way cwd out, after.Passable stop) ↔
      ∀ stop ∈ way cwd out, tree.Passable stop :=
    forall₂_congr fun stop hstop => hpassable hstop
  have haround : (∀ stop ∈ way cwd (surroundings out), after.Passable stop) ↔
      ∀ stop ∈ way cwd (surroundings out), tree.Passable stop :=
    forall₂_congr fun stop hstop => hpassable (mem_way_of_surroundings hstop)
  have hplain :
      (∀ file ∈ files, after.entryAt? (goal cwd out ++ [file.path.text]) ≠ some .directory ∧
      goal cwd out ++ [file.path.text] ∉ way cwd out) ↔ ∀ file ∈ files,
        tree.entryAt? (goal cwd out ++ [file.path.text]) ≠ some .directory ∧
          goal cwd out ++ [file.path.text] ∉ way cwd out :=
    forall₂_congr fun file hmem => by rw [hentry file hmem]
  rw [Takes, Takes, hway, haround, hplain, hfile]

end SchemaBindings.Bindings
