import SchemaBindings.Proofs.Bindings.Exchange

/-!
# The workbench

Files are staged in a new hidden directory beside the output directory. Into an output directory
that is there they are swapped with the help of another one. Both are cleared away in the end, so
that only what was swapped in has changed.
-/

namespace SchemaBindings.Bindings

open SchemaBindings.FileTree

/-! ## Names -/

/-- Whether a text may be the name of an emitted file: hidden directories get no such name. -/
structure FileName (text : String) : Prop where
  isName : IsName text
  no_zero : '\x00' ∉ text.toList
  not_hidden : ∀ number, text ≠ hiddenName number

/-- Hidden names have no zero inside. -/
theorem no_zero_hiddenName (number : Nat) : '\x00' ∉ (hiddenName number).toList := by
  rw [toList_hiddenName]
  simp

/-- A name that leads to something is in use. -/
theorem eq_none_of_not_uses {tree : FileTree} {name : String} (h : ¬ tree.Uses name) {place : Place}
    (hname : name ∈ place) : tree.entryAt? place = none := by
  by_contra hthere
  exact h ⟨place, hname, hthere⟩

/-! ## Clearing away -/

/-- Clearing a directory away removes it with all it holds. -/
theorem removeAll_directory {tree : FileTree} {cwd : Place} {path : Path}
    (hpath : pathObstacle? path = none)
    (hway : ∀ stop ∈ way cwd path, tree.entryAt? stop = some .directory) :
    tree.removeAll cwd path = tree.remove (goal cwd path) := by
  rw [removeAll, find?, walk_of_directories hpath hway]

/-- What is cleared away after a program is cleared away whatever came out. -/
theorem clearing_ends {α : Type} {tree between : FileTree} {cwd : Place} {directory : Path}
    {program : ExceptT WriteFailure (StateM Disk) α} {outcome : Except WriteFailure α}
    (h : Ends program tree.disk outcome between.disk) :
    Ends (clearing (Disk.storage cwd) directory program) tree.disk outcome
      (between.removeAll cwd directory).disk := by
  have hrun : Gives
      (program.run >>= fun outcome => (Disk.storage cwd).removeAll directory >>=
        fun _ => pure outcome)
      tree.disk outcome (between.removeAll cwd directory).disk :=
    Gives.bind_iff.mpr ⟨outcome, between.disk, h,
      Gives.bind_iff.mpr ⟨(), (between.removeAll cwd directory).disk, rfl,
        Gives.pure_iff.mpr ⟨rfl, rfl⟩⟩⟩
  exact hrun

/-! ## Staging -/

section Staging

variable {tree : FileTree} {cwd : Place} {staging : Path}

/-- A file is staged where nothing is, unless its name is too long. -/
theorem stage_ends {file : OutputFile} (hname : FileName file.path.text)
    (hpath : pathObstacle? (staging.join file.path) = none)
    (hway : ∀ stop ∈ way cwd staging, tree.entryAt? stop = some .directory)
    (hfree : tree.entryAt? (goal cwd staging ++ [file.path.text]) = none) :
    (file.path.text.utf8ByteSize ≤ Disk.nameLimit →
      Ends (stage (Disk.storage cwd) staging file) tree.disk (.ok ())
      (tree.put (goal cwd staging ++ [file.path.text]) (.file file.content.toUTF8)).disk) ∧
    (¬ file.path.text.utf8ByteSize ≤ Disk.nameLimit → ∃ failure,
      Ends (stage (Disk.storage cwd) staging file) tree.disk (.error failure) tree.disk) := by
  have hroom := makeRoomFor_join hname.isName hpath hway
  have hwalk : tree.walk cwd .through (staging.join file.path) =
      .ok (tree.arrivalAt (goal cwd staging ++ [file.path.text])) :=
      walk_join hname.isName hpath hway (by simp [hfree])
  have hwrite : tree.write cwd (staging.join file.path) file.content.toUTF8 =
      .ok (tree.put (goal cwd staging ++ [file.path.text]) (.file file.content.toUTF8)) :=
      write_free hwalk hfree
  have hmoves := staging.moves_join hname.isName.not_blank hname.isName.no_slash
  have hends := endsInName_iff hmoves hname.isName.ne_dots
  constructor
  · intro hshort
    exact Ends.bind_ok hroom (Ends.adapt (Disk.attempt_ok
      (fun tree => tree.write cwd (staging.join file.path) file.content.toUTF8) hwrite
      (hends.mpr hshort)) _)
  · intro hlong
    refine ⟨_, Ends.bind_ok hroom (Ends.adapt (Disk.attempt_tooLong
      (fun tree => tree.write cwd (staging.join file.path) file.content.toUTF8) hwrite ?_) _)⟩
    exact Bool.eq_false_iff.mpr fun hyes => hlong (hends.mp hyes)

/-- What staging files does to a tree: outside of the places of the files nothing changes. -/
structure StagedBy (cwd : Place) (staging : Path) (files : List OutputFile)
    (tree after : FileTree) : Prop where
  grounded : after.Grounded
  others : ∀ place, (∀ file ∈ files, place ≠ goal cwd staging ++ [file.path.text]) →
    after.entryAt? place = tree.entryAt? place

/-- Files are staged one by one, unless the name of one of them is too long. -/
theorem stageAll_ends {files : List OutputFile} (hnames : ∀ file ∈ files, FileName file.path.text)
    (hnodup : (files.map fun file => file.path.text).Nodup)
    (hpaths : ∀ file ∈ files, pathObstacle? (staging.join file.path) = none)
    (hgrounded : tree.Grounded) (hcwd : tree.entryAt? cwd = some .directory)
    (hway : ∀ stop ∈ way cwd staging, tree.entryAt? stop = some .directory)
    (hfree : ∀ file ∈ files, tree.entryAt? (goal cwd staging ++ [file.path.text]) = none) :
    ∃ outcome after, Ends (files.forM (stage (Disk.storage cwd) staging)) tree.disk
        outcome after.disk ∧
      StagedBy cwd staging files tree after ∧
      ((outcome = .ok () ∧ (∀ file ∈ files, file.path.text.utf8ByteSize ≤ Disk.nameLimit) ∧
          ∀ file ∈ files, after.entryAt? (goal cwd staging ++ [file.path.text]) =
            some (.file file.content.toUTF8)) ∨
        ((∃ failure, outcome = .error failure) ∧
          ∃ file ∈ files, ¬ file.path.text.utf8ByteSize ≤ Disk.nameLimit)) := by
  induction files generalizing tree with
  | nil =>
    exact ⟨.ok (), tree, Ends.pure_iff.mpr ⟨rfl, rfl⟩, ⟨hgrounded, fun _ _ => rfl⟩,
      .inl ⟨rfl, by simp, by simp⟩⟩
  | cons file rest ih =>
    rw [List.map_cons, List.nodup_cons] at hnodup
    obtain ⟨hshort, hlong⟩ := stage_ends (hnames file List.mem_cons_self)
      (hpaths file List.mem_cons_self) hway (hfree file List.mem_cons_self)
    by_cases hsize : file.path.text.utf8ByteSize ≤ Disk.nameLimit
    swap
    · obtain ⟨failure, hends⟩ := hlong hsize
      exact ⟨.error failure, tree, Ends.bind_error hends, ⟨hgrounded, fun _ _ => rfl⟩,
        .inr ⟨⟨failure, rfl⟩, file, List.mem_cons_self, hsize⟩⟩
    have hnamed : goal cwd staging ++ [file.path.text] ≠ [] := by simp
    have hentry := entryAt?_put_eq tree hnamed (.file file.content.toUTF8)
    have hdirectory {stop : Place} (hstop : tree.entryAt? stop = some .directory) :
        (tree.put (goal cwd staging ++ [file.path.text]) (.file file.content.toUTF8)).entryAt?
        stop =
          some .directory := by
      rw [hentry, if_neg, hstop]
      rintro rfl
      simp [hfree file List.mem_cons_self] at hstop
    have hgoal := directory_goal hcwd hway
    have hlater : ∀ other ∈ rest, goal cwd staging ++ [other.path.text] ≠
        goal cwd staging ++ [file.path.text] := by
      intro other hother hsame
      have htext : other.path.text = file.path.text := by simpa using hsame
      exact hnodup.1 (htext ▸ List.mem_map_of_mem hother)
    obtain ⟨outcome, after, hrest, hstaged, hcases⟩ := ih
      (fun other hother => hnames other (List.mem_cons_of_mem _ hother))
      hnodup.2 (fun other hother => hpaths other (List.mem_cons_of_mem _ hother))
      (hgrounded.put hnamed (by rw [List.dropLast_concat]; exact hgoal)
        (by simp [hfree file List.mem_cons_self]))
      (hdirectory hcwd) (fun stop hstop => hdirectory (hway stop hstop))
      fun other hother => by
        rw [hentry, if_neg (hlater other hother), hfree other (List.mem_cons_of_mem _ hother)]
    refine ⟨outcome, after, Ends.bind_ok (hshort hsize) hrest,
      ⟨hstaged.grounded, fun place hplace => ?_⟩, ?_⟩
    · obtain ⟨hfile, hothers⟩ := List.forall_mem_cons.mp hplace
      rw [hstaged.others place hothers, hentry, if_neg hfile]
    · rcases hcases with ⟨hok, hall, hcontents⟩ | ⟨hfailed, other, hother, htoolong⟩
      · refine .inl ⟨hok, List.forall_mem_cons.mpr ⟨hsize, hall⟩,
          List.forall_mem_cons.mpr ⟨?_, hcontents⟩⟩
        rw [hstaged.others _ fun other hother => (hlater other hother).symm, hentry, if_pos rfl]
      · exact .inr ⟨hfailed, other, List.mem_cons_of_mem _ hother, htoolong⟩

end Staging

/-! ## The workbench -/

/-- Whether a hidden directory may be made beside an output directory and files in it. -/
structure Fitting (out : Path) (name : String) (files : List OutputFile) : Prop where
  short : name.utf8ByteSize ≤ Disk.nameLimit
  hidden_fits : pathObstacle? ((surroundings out).join ⟨name⟩) = none
  file_fits : ∀ file ∈ files, pathObstacle? (((surroundings out).join ⟨name⟩).join file.path) = none

/-- What installing files in an output directory relies on, in the tree `staged` after they were
staged in a new hidden directory of the tree `roomy`, where the directories around are there. -/
structure Bench (cwd : Place) (out : Path) (name : String) (files : List OutputFile)
    (roomy staged : FileTree) : Prop where
  roomy_grounded : roomy.Grounded
  grounded : staged.Grounded
  cwd_eq : roomy.entryAt? cwd = some .directory
  around : ∀ stop ∈ way cwd (surroundings out), roomy.entryAt? stop = some .directory
  no_links : ∀ stop ∈ way cwd out, ∀ target, roomy.entryAt? stop ≠ some (.link target)
  names : ∀ file ∈ files, FileName file.path.text
  short : ∀ file ∈ files, file.path.text.utf8ByteSize ≤ Disk.nameLimit
  nodup : (files.map fun file => file.path.text).Nodup
  hidden : ∃ number, name = hiddenName number
  unused : ¬ roomy.Uses name
  not_hidden : ∀ number, hiddenName number ∉ out.moves
  fitting : Fitting out name files
  outside : ∀ place, ¬ goal cwd (surroundings out) ++ [name] <+: place →
    staged.entryAt? place = roomy.entryAt? place
  directory : staged.entryAt? (goal cwd (surroundings out) ++ [name]) = some .directory
  content_eq : ∀ file ∈ files,
    staged.entryAt? (goal cwd (surroundings out) ++ [name] ++ [file.path.text]) =
      some (.file file.content.toUTF8)

/-- Whether nothing but files is staged. -/
def NothingElse (cwd : Place) (out : Path) (name : String) (files : List OutputFile)
    (staged : FileTree) : Prop :=
  ∀ place, goal cwd (surroundings out) ++ [name] <+: place →
    (∀ file ∈ files, place ≠ goal cwd (surroundings out) ++ [name] ++ [file.path.text]) →
    place ≠ goal cwd (surroundings out) ++ [name] → staged.entryAt? place = none

/-- Whether files lie in the output directory in a tree that is another one, apart from directories
on the way there where nothing was. -/
structure LaidIn (cwd : Place) (out : Path) (files : List OutputFile) (before after : FileTree) :
    Prop where
  content_eq : ∀ file ∈ files, after.entryAt? (goal cwd out ++ [file.path.text]) =
    some (.file file.content.toUTF8)
  others : ∀ place, (∀ file ∈ files, place ≠ goal cwd out ++ [file.path.text]) →
    after.entryAt? place = before.entryAt? place ∨
      (before.entryAt? place = none ∧ after.entryAt? place = some .directory ∧
        place ∈ way cwd out ∧ Short place)

/-- Whether a place is in one of two hidden directories. -/
def Hides (cwd : Place) (out : Path) (name other : String) (place : Place) : Prop :=
  goal cwd (surroundings out) ++ [name] <+: place ∨ goal cwd (surroundings out) ++ [other] <+: place

/-- The exchange of files that are staged in one hidden directory, with another one for what they
replace. -/
def exchangeOf (cwd : Place) (out : Path) (name other : String) : Exchange :=
  ⟨cwd, (surroundings out).join ⟨name⟩, (surroundings out).join ⟨other⟩, out⟩

namespace Bench

variable {cwd : Place} {out : Path} {name : String} {files : List OutputFile}
  {roomy staged : FileTree} (hbench : Bench cwd out name files roomy staged)

include hbench

/-- The name of the hidden directory is a name. -/
theorem isName : IsName name := by
  obtain ⟨number, rfl⟩ := hbench.hidden
  exact isName_hiddenName number

/-- The hidden directory is not on the way to anything that was there. -/
theorem not_below {place : Place} (h : roomy.entryAt? place ≠ none) :
    ¬ goal cwd (surroundings out) ++ [name] <+: place := fun hbelow =>
  h (eq_none_of_not_uses hbench.unused (hbelow.subset (by simp)))

/-- What was there still is. -/
theorem entry_eq {place : Place} {entry : Entry} (h : roomy.entryAt? place = some entry) :
    staged.entryAt? place = some entry := by
  rw [hbench.outside place (hbench.not_below (by simp [h])), h]

/-- No hidden name that is not in use leads to the output directory or on the way there. -/
theorem not_mem_of_reach {number : Nat} (hunused : ¬ roomy.Uses (hiddenName number)) {place : Place}
    (hplace : place ∈ way cwd out ∨ place = goal cwd out) : hiddenName number ∉ place := by
  intro hin
  have hstart : hiddenName number ∉ start cwd out := fun hstart =>
    hunused ⟨_, hstart, by simp [directory_start hbench.cwd_eq out]⟩
  rcases hplace with hway | rfl
  · rcases mem_of_mem_passed hway hin with h | h
    · exact hstart h
    · exact hbench.not_hidden number h
  · rcases List.eq_nil_or_concat out.moves with hnil | ⟨before, last, hlast⟩
    · rw [goal, hnil] at hin
      exact hstart hin
    · have hmem : goal cwd out ∈ way cwd out := by
        rw [List.concat_eq_append] at hlast
        rw [goal, way, hlast, passed_concat, reach_concat]
        simp
      rcases mem_of_mem_passed hmem hin with h | h
      · exact hstart h
      · exact hbench.not_hidden number h

/-- A hidden name that is not in use leads to no file of the output directory. -/
theorem not_below_target {number : Nat} (hunused : ¬ roomy.Uses (hiddenName number))
    {file : OutputFile} (hfile : file ∈ files) (place : Place) :
    ¬ place ++ [hiddenName number] <+: goal cwd out ++ [file.path.text] := by
  intro hbelow
  have hin : hiddenName number ∈ goal cwd out ++ [file.path.text] := hbelow.subset (by simp)
  rcases List.mem_append.mp hin with h | h
  · exact hbench.not_mem_of_reach hunused (.inr rfl) h
  · exact (hbench.names file hfile).not_hidden number (List.mem_singleton.mp h).symm

/-- What is not in use after staging was not in use before. -/
theorem not_uses_roomy {other : String} (h : ¬ staged.Uses other) : ¬ roomy.Uses other := by
  intro huses
  obtain ⟨place, hin, hthere⟩ := huses
  obtain ⟨entry, hentry⟩ := Option.ne_none_iff_exists'.mp hthere
  exact h ⟨place, hin, by simp [hbench.entry_eq hentry]⟩

variable {other : String} (hother : ∃ number, other = hiddenName number)
  (hunused : ¬ staged.Uses other)

include hunused

/-- A hidden directory that is made next has another name. -/
theorem name_ne : name ≠ other := by
  rintro rfl
  refine hunused ⟨goal cwd (surroundings out) ++ [name], by simp, ?_⟩
  rw [hbench.directory]
  exact Option.some_ne_none _

include hother

/-- The exchange of the files is fit. -/
theorem fit (hfitting : Fitting out other files)
    (htarget : ∀ file ∈ files, pathObstacle? (out.join file.path) = none) :
    (exchangeOf cwd out name other).Fit files := by
  have hothername : IsName other := by
    obtain ⟨number, rfl⟩ := hother
    exact isName_hiddenName number
  refine ⟨fun file hfile => (hbench.names file hfile).isName, hbench.short, hbench.nodup,
    hbench.fitting.file_fits, hfitting.file_fits, htarget,
    fun hsame => ?_, fun hsame => ?_, fun hsame => ?_⟩
  · obtain ⟨number, rfl⟩ := hbench.hidden
    refine hbench.not_mem_of_reach hbench.unused (.inr rfl) ?_
    have hgoal : goal cwd out = goal cwd (surroundings out) ++ [hiddenName number] :=
      hsame.symm.trans (goal_join cwd (surroundings out) hbench.isName)
    simp [hgoal]
  · obtain ⟨number, rfl⟩ := hother
    refine hbench.not_mem_of_reach (hbench.not_uses_roomy hunused) (.inr rfl) ?_
    have hgoal : goal cwd out = goal cwd (surroundings out) ++ [hiddenName number] :=
      hsame.symm.trans (goal_join cwd (surroundings out) hothername)
    simp [hgoal]
  · have hgoals : goal cwd (surroundings out) ++ [name] = goal cwd (surroundings out) ++ [other] :=
      (goal_join cwd (surroundings out) hbench.isName).symm.trans
        (hsame.trans (goal_join cwd (surroundings out) hothername))
    exact hbench.name_ne hunused (by simpa using hgoals)

/-- What is to be replaced is in no hidden directory. -/
theorem not_hides_target {file : OutputFile} (hfile : file ∈ files) :
    ¬ Hides cwd out name other (goal cwd out ++ [file.path.text]) := by
  have hunusedroomy := hbench.not_uses_roomy hunused
  intro hhides
  rcases hhides with h | h
  · obtain ⟨number, rfl⟩ := hbench.hidden
    exact hbench.not_below_target hbench.unused hfile _ h
  · obtain ⟨number, rfl⟩ := hother
    exact hbench.not_below_target hunusedroomy hfile _ h

omit hother in
/-- Before the hidden directories were made, nothing was in them. -/
theorem eq_none_of_hides {place : Place} (h : Hides cwd out name other place) :
    roomy.entryAt? place = none := by
  rcases h with h | h
  · exact eq_none_of_not_uses hbench.unused (h.subset (by simp))
  · exact eq_none_of_not_uses (hbench.not_uses_roomy hunused) (h.subset (by simp))

/-- Clearing both hidden directories away leaves what is outside of them. -/
theorem cleared {after : FileTree} (hgrounded : after.Grounded)
    (hstaging : ∀ stop ∈ way cwd ((surroundings out).join ⟨name⟩), after.entryAt? stop =
      some .directory)
    (hbackup : ∀ stop ∈ way cwd ((surroundings out).join ⟨other⟩), after.entryAt? stop =
      some .directory)
    (hfitting : Fitting out other files) :
    ((after.removeAll cwd ((surroundings out).join ⟨other⟩)).removeAll cwd
      ((surroundings out).join ⟨name⟩)).Grounded ∧
    ∀ place, (Hides cwd out name other place →
      ((after.removeAll cwd ((surroundings out).join ⟨other⟩)).removeAll cwd
        ((surroundings out).join ⟨name⟩)).entryAt? place = roomy.entryAt? place) ∧
      (¬ Hides cwd out name other place →
        ((after.removeAll cwd ((surroundings out).join ⟨other⟩)).removeAll cwd
        ((surroundings out).join ⟨name⟩)).entryAt? place = after.entryAt? place) := by
  have hothername : IsName other := by
    obtain ⟨number, rfl⟩ := hother
    exact isName_hiddenName number
  have hclear : after.removeAll cwd ((surroundings out).join ⟨other⟩) =
      after.remove (goal cwd (surroundings out) ++ [other]) := by
    rw [removeAll_directory hfitting.hidden_fits hbackup, goal_join cwd _ hothername]
  have hremoved :=
    entryAt?_remove_eq after (show goal cwd (surroundings out) ++ [other] ≠ [] by simp)
  have hway : ∀ stop ∈ way cwd ((surroundings out).join ⟨name⟩),
      (after.remove (goal cwd (surroundings out) ++ [other])).entryAt? stop = some .directory := by
    intro stop hstop
    rw [hremoved, if_neg, hstaging stop hstop]
    intro hbelow
    rw [way_join cwd _ hbench.isName, List.mem_append, List.mem_singleton] at hstop
    rcases hstop with hstop | hstop
    · have hthere := hbench.around stop hstop
      have hin : other ∈ stop := hbelow.subset (by simp)
      exact absurd (eq_none_of_not_uses (hbench.not_uses_roomy hunused) hin) (by simp [hthere])
    · rw [hstop] at hbelow
      have hsame := hbelow.eq_of_length (by simp)
      exact hbench.name_ne hunused (by simpa using hsame.symm)
  rw [hclear, removeAll_directory hbench.fitting.hidden_fits hway, goal_join cwd _ hbench.isName]
  refine ⟨(hgrounded.remove (by simp)).remove (by simp),
    fun place => ⟨fun hhides => ?_, fun hhides => ?_⟩⟩
  · rw [hbench.eq_none_of_hides hunused hhides, entryAt?_remove_eq _ (by simp),
      hremoved, Hides] at *
    rcases hhides with h | h <;> simp [h]
  · rw [entryAt?_remove_eq _ (by simp), if_neg (not_or.mp hhides).1, hremoved,
      if_neg (not_or.mp hhides).2]

end Bench

/-! ## Merging -/

/-- A tree with staged files after the next hidden directory was made in it. -/
def prepared (cwd : Place) (out : Path) (staged : FileTree) : FileTree :=
  staged.put (goal cwd (surroundings out) ++ [staged.unusedName]) .directory

/-- Once the hidden directory is made, it stands at its place, and every other place is as it was.
-/
theorem entryAt?_prepared (cwd : Place) (out : Path) (staged : FileTree) (place : Place) :
    (prepared cwd out staged).entryAt? place =
      if place = goal cwd (surroundings out) ++ [staged.unusedName] then some .directory
      else staged.entryAt? place := by
  rw [prepared, entryAt?_put_eq staged (by simp)]

/-- Directories stay when the next hidden directory is made. -/
theorem directory_prepared {cwd : Place} (out : Path) {staged : FileTree} {place : Place}
    (h : staged.entryAt? place = some .directory) :
    (prepared cwd out staged).entryAt? place = some .directory := by
  rw [entryAt?_prepared]
  split
  · rfl
  · exact h

namespace Bench

variable {cwd : Place} {out : Path} {name : String} {files : List OutputFile}
  {roomy staged : FileTree} (hbench : Bench cwd out name files roomy staged)

include hbench

/-- What is in no hidden directory is what was there before them. -/
theorem prepared_eq_roomy {place : Place} (h : ¬ Hides cwd out name staged.unusedName place) :
    (prepared cwd out staged).entryAt? place = roomy.entryAt? place := by
  have hne : place ≠ goal cwd (surroundings out) ++ [staged.unusedName] :=
    fun hsame => h (.inr (by rw [hsame]))
  rw [entryAt?_prepared, if_neg hne, hbench.outside place (not_or.mp h).1]

/-- The ways around and to both hidden directories are there then. -/
theorem ways_prepared : (prepared cwd out staged).Grounded ∧
    (∀ stop ∈ way cwd ((surroundings out).join ⟨name⟩),
      (prepared cwd out staged).entryAt? stop = some .directory) ∧
    ∀ stop ∈ way cwd ((surroundings out).join ⟨staged.unusedName⟩),
      (prepared cwd out staged).entryAt? stop = some .directory := by
  have haround : ∀ stop ∈ way cwd (surroundings out), staged.entryAt? stop = some .directory :=
    fun stop hstop => hbench.entry_eq (hbench.around stop hstop)
  refine ⟨?_, fun stop hstop => ?_, fun stop hstop => ?_⟩
  · refine hbench.grounded.put (by simp) ?_ fun _ => rfl
    rw [List.dropLast_concat]
    exact directory_goal (hbench.entry_eq hbench.cwd_eq) haround
  · rw [way_join cwd (surroundings out) hbench.isName, List.mem_append, List.mem_singleton] at hstop
    rcases hstop with hstop | hstop
    · exact directory_prepared out (haround stop hstop)
    · rw [hstop]
      exact directory_prepared out hbench.directory
  · rw [way_join cwd (surroundings out) (isName_unusedName staged), List.mem_append,
      List.mem_singleton] at hstop
    rcases hstop with hstop | hstop
    · exact directory_prepared out (haround stop hstop)
    · rw [hstop, entryAt?_prepared, if_pos rfl]

/-- Every file is staged then, and nothing is kept for it yet. -/
theorem pending {file : OutputFile} (hfile : file ∈ files) :
    (prepared cwd out staged).entryAt? ((exchangeOf cwd out name staged.unusedName).stagedPlace
      file) =
        some (.file file.content.toUTF8) ∧
      (prepared cwd out staged).entryAt? ((exchangeOf cwd out name staged.unusedName).savedPlace
        file) = none := by
  have hne (hidden : String) : goal cwd (surroundings out) ++ [hidden] ++ [file.path.text] ≠
      goal cwd (surroundings out) ++ [staged.unusedName] := by
    intro hsame
    have hlength := congrArg List.length hsame
    simp only [List.length_append, List.length_singleton] at hlength
    omega
  have hunsaved : staged.entryAt? (goal cwd (surroundings out) ++ [staged.unusedName] ++
        [file.path.text]) = none :=
    eq_none_of_not_uses staged.not_uses_unusedName (by simp)
  constructor
  · rw [Exchange.stagedPlace, exchangeOf, goal_join cwd _ hbench.isName, entryAt?_prepared,
      if_neg (hne name), hbench.content_eq file hfile]
  · rw [Exchange.savedPlace, exchangeOf, goal_join cwd _ (isName_unusedName staged),
      entryAt?_prepared, if_neg (hne staged.unusedName), hunsaved]

variable (hfitting : Fitting out staged.unusedName files)

include hfitting

/-- Merging comes out as swapping does after the next hidden directory was made. -/
theorem mergeInto_ends {outcome : Except WriteFailure Unit} {swapped : FileTree}
    (h : Ends (swapAll (Disk.storage cwd) ((surroundings out).join ⟨name⟩)
      ((surroundings out).join ⟨staged.unusedName⟩) out files []) (prepared cwd out staged).disk
      outcome swapped.disk) :
    Ends (mergeInto (Disk.storage cwd) ((surroundings out).join ⟨name⟩) out files)
      staged.disk outcome
      (swapped.removeAll cwd ((surroundings out).join ⟨staged.unusedName⟩)).disk := by
  have haround : ∀ stop ∈ way cwd (surroundings out), staged.entryAt? stop = some .directory :=
    fun stop hstop => hbench.entry_eq (hbench.around stop hstop)
  have hmake := Disk.makeHidden_ends hfitting.hidden_fits hfitting.short haround
    (eq_none_of_not_uses staged.not_uses_unusedName (by simp))
  exact Ends.bind_ok (Ends.adapt hmake _) (clearing_ends h)

/-- Into an output directory that is there the files are swapped, unless one of them is to replace a
directory. -/
theorem merge_ends (htarget : ∀ file ∈ files, pathObstacle? (out.join file.path) = none)
    (hout : ∀ stop ∈ way cwd out, roomy.entryAt? stop = some .directory) :
    ∃ (outcome : Except WriteFailure Unit) (after : FileTree),
      Ends (mergeInto (Disk.storage cwd) ((surroundings out).join ⟨name⟩) out files) staged.disk
        outcome after.disk ∧
      (after.removeAll cwd ((surroundings out).join ⟨name⟩)).Grounded ∧
      ((outcome = .ok () ∧
        (∀ file ∈ files, roomy.entryAt? (goal cwd out ++ [file.path.text]) ≠ some .directory) ∧
          LaidIn cwd out files roomy (after.removeAll cwd ((surroundings out).join ⟨name⟩))) ∨
        ((∃ failure, outcome = .error failure) ∧
          (∃ file ∈ files, roomy.entryAt? (goal cwd out ++ [file.path.text]) = some .directory) ∧
          ∀ place, (after.removeAll cwd ((surroundings out).join ⟨name⟩)).entryAt? place =
            roomy.entryAt? place)) := by
  obtain ⟨number, hnumber, -⟩ := staged.exists_unusedName
  have hother : ∃ number, staged.unusedName = hiddenName number := ⟨number, hnumber⟩
  have hunused := staged.not_uses_unusedName
  obtain ⟨hpreparedgrounded, hstaging, hbackup⟩ := hbench.ways_prepared
  have hready : (exchangeOf cwd out name staged.unusedName).Ready (prepared cwd out staged) :=
    ⟨hpreparedgrounded, directory_prepared out (hbench.entry_eq hbench.cwd_eq), hstaging, hbackup,
      fun stop hstop => directory_prepared out (hbench.entry_eq (hout stop hstop))⟩
  have hfit := hbench.fit hother hunused hfitting htarget
  have htargetplace : ∀ file ∈ files,
      (prepared cwd out staged).entryAt? (goal cwd out ++ [file.path.text]) =
      roomy.entryAt? (goal cwd out ++ [file.path.text]) :=
    fun file hfile => hbench.prepared_eq_roomy (hbench.not_hides_target hother hunused hfile)
  have hnothidden {place : Place} {file : OutputFile}
      (h : ¬ Hides cwd out name staged.unusedName place) :
      place ≠ (exchangeOf cwd out name staged.unusedName).stagedPlace file ∧
        place ≠ (exchangeOf cwd out name staged.unusedName).savedPlace file := by
    rw [Exchange.stagedPlace, Exchange.savedPlace, exchangeOf, goal_join cwd _ hbench.isName,
      goal_join cwd _ (isName_unusedName staged)]
    constructor
    · intro hsame
      rw [hsame] at h
      exact h (.inl (List.prefix_append _ _))
    · intro hsame
      rw [hsame] at h
      exact h (.inr (List.prefix_append _ _))
  rcases Exchange.swapAll_ends hfit List.suffix_rfl hready
      (fun file hfile => ⟨⟨_, (hbench.pending hfile).1⟩, (hbench.pending hfile).2⟩)
      (Exchange.undoes_nil _ _ _) with
    ⟨hplain, swapped, hends, hall⟩ | ⟨⟨file, hfile, hdirectory⟩, failure, swapped,
      hends, hafter, hsame⟩
  · obtain ⟨hgrounded, hcleared⟩ :=
      hbench.cleared hother hunused hall.ready.grounded hall.ready.staging
        hall.ready.backup hfitting
    refine ⟨.ok (), _, hbench.mergeInto_ends hfitting hends, hgrounded,
      .inl ⟨rfl, fun file hfile => ?_, ?_, ?_⟩⟩
    · rw [← htargetplace file hfile]
      exact hplain file hfile
    · intro file hfile
      rw [(hcleared _).2 (hbench.not_hides_target hother hunused hfile), ← (hbench.pending hfile).1,
        ← hall.target_eq file hfile]
      rfl
    · intro place hplace
      by_cases hhides : Hides cwd out name staged.unusedName place
      · exact .inl ((hcleared place).1 hhides)
      · rw [(hcleared place).2 hhides,
          hall.others place fun file hfile => ⟨hplace file hfile, hnothidden hhides⟩]
        exact .inl (hbench.prepared_eq_roomy hhides)
  · obtain ⟨hgrounded, hcleared⟩ :=
      hbench.cleared hother hunused hafter.grounded hafter.staging hafter.backup hfitting
    refine ⟨.error failure, _, hbench.mergeInto_ends hfitting hends, hgrounded,
      .inr ⟨⟨failure, rfl⟩, ⟨file, hfile, ?_⟩, fun place => ?_⟩⟩
    · rw [← htargetplace file hfile]
      exact hdirectory
    · by_cases hhides : Hides cwd out name staged.unusedName place
      · exact (hcleared place).1 hhides
      · rw [(hcleared place).2 hhides, hsame place fun file hfile => (hnothidden hhides).1,
          hbench.prepared_eq_roomy hhides]

end Bench

end SchemaBindings.Bindings
