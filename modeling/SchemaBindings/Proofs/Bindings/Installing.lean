import SchemaBindings.Proofs.Bindings.Workbench

/-!
# Installing staged files

Once files are staged and the directories around are there, what is at the output directory decides
what becomes of them. If it is there, the files are merged into it; if nothing is there, the hidden
directory becomes it; and a file is in the way, unless there is nothing to put in its place.
-/

namespace SchemaBindings.Bindings

open SchemaBindings.FileTree
open SchemaBindings.Path (movesOf blank)

/-! ## What is at the output directory -/

/-- Whether a dot is the last piece of a path that is not empty. -/
def EndsInDot (path : Path) : Prop :=
  (path.pieces.filter fun piece => piece ≠ "").getLast? = some "."

instance (path : Path) : Decidable (EndsInDot path) :=
  inferInstanceAs (Decidable (_ = some "."))

/-- Only slashes follow the last move of a path that does not end in a dot. -/
theorem eq_empty_of_not_endsInDot {path : Path} (h : ¬ EndsInDot path) {front tail : List String}
    {last : String} (hpieces : path.pieces = front ++ last :: tail)
    (htail : ∀ piece ∈ tail, blank piece = true) :
    ∀ piece ∈ tail, piece = "" := by
  by_contra hsome
  push Not at hsome
  obtain ⟨piece, hpiece, hne⟩ := hsome
  have hkept : tail.filter (fun piece => piece ≠ "") ≠ [] :=
    List.ne_nil_of_mem (List.mem_filter.mpr ⟨hpiece, by simpa using hne⟩)
  have hlast := List.getLast_mem hkept
  obtain ⟨hin, hnonempty⟩ := List.mem_filter.mp hlast
  have hdot := ((Path.blank_iff _).mp (htail _ hin)).resolve_left (by simpa using hnonempty)
  refine h ?_
  rw [EndsInDot, hpieces, List.filter_append, ← List.singleton_append,
    List.filter_append, ← List.append_assoc, List.getLast?_append_of_ne_nil _ hkept,
    List.getLast?_eq_getLast_of_ne_nil hkept, hdot]

/-- A path is bare if nothing follows its last move. -/
theorem bare_iff_of_pieces {path : Path} {front tail : List String} {last : String}
    (hpieces : path.pieces = front ++ last :: tail) (hlast : blank last = false)
    (htail : ∀ piece ∈ tail, blank piece = true) : path.Bare ↔ tail = [] := by
  constructor
  · intro hbare
    have hmoves : path.moves = movesOf front ++ [last] := by
      rw [Path.moves, hpieces, Path.movesOf_append, Path.movesOf_cons_move hlast,
        Path.movesOf_eq_nil htail]
    obtain ⟨other, hother, -, -⟩ := hbare.pieces_eq hmoves
    by_contra hne
    rw [hpieces, ← List.dropLast_append_getLast
      hne, ← List.cons_append, ← List.append_assoc] at hother
    have hsame := List.append_inj_right' hother rfl
    have hblank := htail _ (List.getLast_mem hne)
    rw [(List.cons.inj hsame).1, hlast] at hblank
    contradiction
  · rintro rfl
    exact .inr ⟨front, last, hpieces, hlast⟩

/-- What an output directory that is not there may be: nothing or a file, with a name in the
directory around it. -/
structure NoDirectory (tree : FileTree) (cwd : Place) (out : Path) (last : String) : Prop where
  moves_eq : out.moves = (surroundings out).moves ++ [last]
  ne_dots : last ≠ ".."
  goal_eq : goal cwd out = goal cwd (surroundings out) ++ [last]
  way_eq : way cwd out = way cwd (surroundings out) ++ [goal cwd out]
  cases : (tree.entryAt? (goal cwd out) = none ∧
      ∃ forDirectory, ∀ how, tree.walk cwd how out = .ok (.free (goal cwd out) forDirectory)) ∨
    ∃ content, tree.entryAt? (goal cwd out) = some (.file content) ∧
      ((out.Bare ∧ ∀ how, tree.walk cwd how out = .ok (.taken (goal cwd out) (.file content))) ∨
        (¬ out.Bare ∧ ∀ how, tree.walk cwd how out = .error .notDirectory))

variable {tree : FileTree} {cwd : Place} {out : Path}

/-- In a directory that is there, the output directory is there too, or nothing is, or a file. -/
theorem directories_or_noDirectory (hgrounded : tree.Grounded)
    (hcwd : tree.entryAt? cwd = some .directory) (hpath : pathObstacle? out = none)
    (haround : ∀ stop ∈ way cwd (surroundings out), tree.entryAt? stop = some .directory)
    (hlinks : ∀ stop ∈ way cwd out, ∀ target, tree.entryAt? stop ≠ some (.link target))
    (hdot : EndsInDot out → tree.entryAt? (goal cwd out) = some .directory) :
    (∀ stop ∈ way cwd out, tree.entryAt? stop = some .directory) ∨
      ∃ last, NoDirectory tree cwd out last := by
  rcases (Path.around_surroundings out).2.2 with ⟨hmoves, -⟩ | ⟨habsolute, last, hmoves⟩
  · exact .inl fun stop hstop => by simp [way, hmoves, passed] at hstop
  have hstart : start cwd out = start cwd (surroundings out) := by rw [start, start, habsolute]
  have hwayout : way cwd out = way cwd (surroundings out) ++ [goal cwd out] := by
    rw [way, goal, hmoves, passed_concat, reach_concat, hstart, way]
  by_cases hdirectory : tree.entryAt? (goal cwd out) = some .directory
  · refine .inl fun stop hstop => ?_
    rw [hwayout, List.mem_append, List.mem_singleton] at hstop
    rcases hstop with hstop | hstop
    · exact haround stop hstop
    · rw [hstop, hdirectory]
  have hreach := directory_goal hcwd haround
  have hup : last ≠ ".." := by
    rintro rfl
    refine hdirectory ?_
    rw [goal, hmoves, reach_concat, hstart, moveTo, if_pos rfl, ← goal]
    exact hgrounded.directory_dropLast (by simp [hreach])
  have hgoal : goal cwd out = goal cwd (surroundings out) ++ [last] := by
    rw [goal, hmoves, reach_concat, hstart, moveTo_name hup, goal]
  obtain ⟨front, tail, hpieces, hfront, htail⟩ := Path.exists_pieces_of_movesOf hmoves
  have hblank : blank last = false := by
    have hin : last ∈ movesOf out.pieces := by
      rw [← Path.moves, hmoves]
      simp
    exact Path.not_blank_of_mem_movesOf hin
  have hpassed : passed (start cwd out) (movesOf front) = way cwd (surroundings out) := by
    rw [hfront, hstart, way]
  have hmove : ¬(last = "" ∨ last = ".") :=
    fun hor => by simp [(Path.blank_iff last).mpr hor] at hblank
  have hwalk (how : LastLink) : tree.walk cwd how out =
      tree.walkFrom how linkLimit (goal cwd (surroundings out)) (last :: tail) := by
    have hgoes := @walkFrom_passed tree how linkLimit (start cwd out) front (last :: tail)
      (by rw [hpassed]; exact haround)
    rw [walk, hpath, hpieces, ← start, hgoes, hfront, hstart, goal]
  refine .inr ⟨last, hmoves, hup, hgoal, hwayout, ?_⟩
  have hbare := bare_iff_of_pieces hpieces hblank htail
  cases hentry : tree.entryAt? (goal cwd out) with
  | none =>
    have hempty := eq_empty_of_not_endsInDot (fun hends => hdirectory (hdot hends)) hpieces htail
    refine .inl ⟨rfl, !tail.isEmpty, fun how => ?_⟩
    have hall : tail.all String.isEmpty = true :=
      List.all_eq_true.mpr fun piece hpiece => by simp [hempty piece hpiece]
    rw [hwalk, walkFrom, if_neg hmove, if_neg hup, ← hgoal, hentry]
    simp only [arriveFree, hall, if_true]
  | some entry =>
    cases entry with
    | directory => exact absurd hentry hdirectory
    | link target => exact absurd hentry (hlinks _ (by simp [hwayout]) target)
    | file content =>
      refine .inr ⟨content, rfl, ?_⟩
      cases tail with
      | nil =>
        refine .inl ⟨hbare.mpr rfl, fun how => ?_⟩
        rw [hwalk, walkFrom, if_neg hmove, if_neg hup, ← hgoal, hentry]
        rfl
      | cons piece tail =>
        refine .inr ⟨fun h => by simpa using hbare.mp h, fun how => ?_⟩
        rw [hwalk, walkFrom, if_neg hmove, if_neg hup, ← hgoal, hentry]
        rfl

/-! ## Branches of installing -/

section Branches

variable {staging : Path} {files : List OutputFile} {after : FileTree}

/-- What is at the output directory has files merged into it. -/
theorem install_of_taken {place : Place} {entry : Entry}
    (h : tree.walk cwd .through out = .ok (.taken place entry)) {outcome : Except WriteFailure Unit}
    (hmerge : Ends (mergeInto (Disk.storage cwd) staging out files) tree.disk outcome after.disk) :
    Ends (install (Disk.storage cwd) staging out files) tree.disk outcome after.disk := by
  have hthere := Disk.isThere_ends tree cwd out
  rw [find?_eq_some.mpr h] at hthere
  exact Ends.bind_ok (Ends.lift_ok hthere) hmerge

/-- Where nothing is, the hidden directory becomes the output directory. -/
theorem install_of_renamed (h : tree.find? cwd .through out = none)
    (hrename : Ends ((Disk.storage cwd).rename staging out) tree.disk (.ok ()) after.disk) :
    Ends (install (Disk.storage cwd) staging out files) tree.disk (.ok ()) after.disk := by
  have hthere := Disk.isThere_ends tree cwd out
  rw [h] at hthere
  exact Ends.bind_ok (Ends.lift_ok hthere)
    (Ends.bind_ok (Ends.lift_ok hrename) (Ends.pure_iff.mpr ⟨rfl, rfl⟩))

/-- Where nothing is, and the hidden directory may not become the output directory, nothing is
installed. -/
theorem install_of_refused (h : tree.find? cwd .through out = none) {obstacle : Obstacle}
    (hrename : Ends ((Disk.storage cwd).rename staging out) tree.disk (.error obstacle) tree.disk) :
    Ends (install (Disk.storage cwd) staging out files) tree.disk (.error ⟨out, .obstacle obstacle⟩)
      tree.disk := by
  have hthere := Disk.isThere_ends tree cwd out
  rw [h] at hthere
  have hdirectory := Disk.isDirectory_ends tree cwd out
  rw [h] at hdirectory
  exact Ends.bind_ok (Ends.lift_ok hthere)
    (Ends.bind_ok (Ends.lift_ok hrename)
      (Ends.bind_ok (Ends.lift_ok hdirectory) (Ends.throw_iff.mpr ⟨rfl, rfl⟩)))

end Branches

/-- Whether an output directory takes files, once the directories around it are there: it may be
passed, and none of the files is to replace a directory, or a file is in its place, but there are no
files. -/
def Accepts (cwd : Place) (out : Path) (files : List OutputFile) (tree : FileTree) : Prop :=
  pathObstacle? out = none ∧
    (((∀ stop ∈ way cwd out, tree.Passable stop) ∧
        ∀ file ∈ files, tree.entryAt? (goal cwd out ++ [file.path.text]) ≠ some .directory) ∨
      (files = [] ∧ out.Bare ∧ ∃ content, tree.entryAt? (goal cwd out) = some (.file content)))

section Accepts

variable {files : List OutputFile} (hpath : pathObstacle? out = none)

include hpath

/-- An output directory that is there takes files unless one of them is to replace a directory. -/
theorem accepts_iff_of_directories
    (hdirectories : ∀ stop ∈ way cwd out, tree.entryAt? stop = some .directory) :
    Accepts cwd out files tree ↔
    ∀ file ∈ files, tree.entryAt? (goal cwd out ++ [file.path.text]) ≠ some .directory := by
  constructor
  · rintro ⟨-, ⟨-, hplain⟩ | ⟨rfl, -⟩⟩
    · exact hplain
    · simp
  · exact fun hplain => ⟨hpath, .inl ⟨fun stop hstop => .inl (hdirectories stop hstop), hplain⟩⟩

/-- Where nothing is, an output directory takes files exactly if its name is not too long. -/
theorem accepts_iff_of_free (hgrounded : tree.Grounded)
    (haround : ∀ stop ∈ way cwd (surroundings out), tree.entryAt? stop = some .directory)
    (hway : way cwd out = way cwd (surroundings out) ++ [goal cwd out])
    (hfree : tree.entryAt? (goal cwd out) = none) :
    Accepts cwd out files tree ↔ Short (goal cwd out) := by
  constructor
  · rintro ⟨-, ⟨hpassable, -⟩ | ⟨-, -, content, hcontent⟩⟩
    · exact ((hpassable _ (by simp [hway])).resolve_left (by simp [hfree])).2
    · simp [hfree] at hcontent
  · intro hshort
    refine ⟨hpath, .inl ⟨fun stop hstop => ?_, fun file _ => ?_⟩⟩
    · rw [hway, List.mem_append, List.mem_singleton] at hstop
      rcases hstop with hstop | rfl
      · exact .inl (haround stop hstop)
      · exact .inr ⟨hfree, hshort⟩
    · rw [hgrounded.eq_none_of_below (by simp [hfree]) (List.prefix_append _ [file.path.text])
        (by simp)]
      simp

/-- A file in the place of an output directory takes no files. -/
theorem accepts_iff_of_file (hin : goal cwd out ∈ way cwd out) {content : ByteArray}
    (hfile : tree.entryAt? (goal cwd out) = some (.file content)) :
    Accepts cwd out files tree ↔ files = [] ∧ out.Bare := by
  constructor
  · rintro ⟨-, ⟨hpassable, -⟩ | ⟨hnil, hbare, -⟩⟩
    · rcases hpassable _ hin with hdirectory | ⟨hnone, -⟩
      · simp [hfile] at hdirectory
      · simp [hfile] at hnone
    · exact ⟨hnil, hbare⟩
  · exact fun ⟨hnil, hbare⟩ => ⟨hpath, .inr ⟨hnil, hbare, content, hfile⟩⟩

end Accepts

/-! ## Installing at a workbench -/

namespace Bench

variable {name : String} {files : List OutputFile} {roomy staged : FileTree}
  (hbench : Bench cwd out name files roomy staged)

include hbench

/-- The way to the hidden directory is there. -/
theorem way_staging :
    ∀ stop ∈ way cwd ((surroundings out).join ⟨name⟩), staged.entryAt? stop = some .directory := by
  intro stop hstop
  rw [way_join cwd _ hbench.isName, List.mem_append, List.mem_singleton] at hstop
  rcases hstop with hstop | hstop
  · exact hbench.entry_eq (hbench.around stop hstop)
  · rw [hstop, hbench.directory]

/-- What is at the output directory or on the way there is what was there. -/
theorem staged_eq {place : Place} (hplace : place ∈ way cwd out ∨ place = goal cwd out) :
    staged.entryAt? place = roomy.entryAt? place := by
  refine hbench.outside place fun hbelow => ?_
  obtain ⟨number, rfl⟩ := hbench.hidden
  exact hbench.not_mem_of_reach hbench.unused hplace (hbelow.subset (by simp))

/-- If nothing was installed, clearing the hidden directory away gives back what was there. -/
theorem abandoned : (staged.removeAll cwd ((surroundings out).join ⟨name⟩)).Grounded ∧
    ∀ place, (staged.removeAll cwd ((surroundings out).join ⟨name⟩)).entryAt? place =
      roomy.entryAt? place := by
  rw [removeAll_directory hbench.fitting.hidden_fits hbench.way_staging,
    goal_join cwd _ hbench.isName]
  refine ⟨hbench.grounded.remove (by simp), fun place => ?_⟩
  rw [entryAt?_remove_eq _ (by simp)]
  split
  · next hbelow => exact (eq_none_of_not_uses hbench.unused (hbelow.subset (by simp))).symm
  · next hbelow => exact hbench.outside place hbelow

/-- The hidden directory may be moved to where nothing is, unless the name is too long. -/
theorem rename_ends {last : String} (hno : NoDirectory staged cwd out last) {forDirectory : Bool}
    (hwalk : staged.walk cwd .never out = .ok (.free (goal cwd out) forDirectory)) :
    (Short (goal cwd out) → Ends ((Disk.storage cwd).rename ((surroundings out).join ⟨name⟩) out)
      staged.disk (.ok ())
      (staged.move (goal cwd (surroundings out) ++ [name]) (goal cwd out)).disk) ∧
    (¬ Short (goal cwd out) →
      Ends ((Disk.storage cwd).rename ((surroundings out).join ⟨name⟩) out) staged.disk
      (.error .tooLong) staged.disk) := by
  have hsource :=
    @walk_of_directories staged .never cwd _ hbench.fitting.hidden_fits hbench.way_staging
  have hapart : ¬ goal cwd (surroundings out) ++ [name] <+: goal cwd out := by
    intro hbelow
    obtain ⟨number, rfl⟩ := hbench.hidden
    exact hbench.not_mem_of_reach hbench.unused (.inr rfl) (hbelow.subset (by simp))
  rw [goal_join cwd _ hbench.isName] at hsource
  have hrename := rename_directory hsource hwalk hapart
  have hends : Disk.endsInName out = true ↔ Short (goal cwd out) := by
    rw [endsInName_iff hno.moves_eq hno.ne_dots, hno.goal_eq, short_concat_iff]
  constructor
  · intro hshort
    exact Disk.attempt_ok (fun tree => tree.rename cwd ((surroundings out).join ⟨name⟩) out)
      hrename (hends.mpr hshort)
  · intro hlong
    exact Disk.attempt_tooLong (fun tree => tree.rename cwd ((surroundings out).join ⟨name⟩) out)
      hrename (Bool.eq_false_iff.mpr fun hyes => hlong (hends.mp hyes))

/-- The hidden directory is moved to where nothing is. -/
theorem movedDirectory {last : String} (hno : NoDirectory staged cwd out last)
    (hfree : staged.entryAt? (goal cwd out) = none) :
    MovedDirectory staged (goal cwd (surroundings out) ++ [name])
      (goal cwd out) (staged.move (goal cwd (surroundings out) ++ [name]) (goal cwd out)) := by
  refine ⟨hbench.directory, by simp, by simp [hno.goal_eq], ?_, fun place hbelow hne => ?_, ?_, rfl⟩
  · rw [hno.goal_eq, List.dropLast_concat]
    exact hbench.entry_eq (directory_goal hbench.cwd_eq hbench.around)
  · exact hbench.grounded.eq_none_of_below (by simp [hfree]) hbelow hne
  · intro hbelow
    obtain ⟨number, rfl⟩ := hbench.hidden
    exact hbench.not_mem_of_reach hbench.unused (.inr rfl) (hbelow.subset (by simp))

/-- After the hidden directory was moved, the files lie in the output directory. -/
theorem laidIn_of_moved (hnothing : NothingElse cwd out name files staged) {last : String}
    (hno : NoDirectory staged cwd out last) (hfree : staged.entryAt? (goal cwd out) = none)
    (hshort : Short (goal cwd out)) :
    LaidIn cwd out files roomy
      (staged.move (goal cwd (surroundings out) ++ [name]) (goal cwd out)) := by
  have hentry := (hbench.movedDirectory hno hfree).entryAt?_eq
  have hroomy := hbench.staged_eq (.inr rfl)
  refine ⟨fun file hfile => ?_, fun place hplace => ?_⟩
  · rw [hentry, if_pos (List.prefix_append _ _), List.drop_left, hbench.content_eq file hfile]
  · rw [hentry]
    by_cases hbelow : goal cwd out <+: place
    · obtain ⟨steps, rfl⟩ := hbelow
      rw [if_pos (List.prefix_append _ _), List.drop_left]
      by_cases hnil : steps = []
      · rw [hnil, List.append_nil, List.append_nil, hbench.directory, ← hroomy]
        exact .inr ⟨hfree, rfl, by simp [hno.way_eq], hshort⟩
      · have hnone : roomy.entryAt? (goal cwd out ++ steps) = none :=
          hbench.roomy_grounded.eq_none_of_below (by simp [← hroomy, hfree])
            (List.prefix_append _ _) (by simpa using hnil)
        rw [hnone]
        refine .inl (hnothing _ (List.prefix_append _ _) (fun file hfile hsame => ?_)
          (by simpa using hnil))
        exact hplace file hfile (congrArg _ (List.append_cancel_left hsame))
    · rw [if_neg hbelow]
      split
      · next hunder => exact .inl (eq_none_of_not_uses hbench.unused (hunder.subset (by simp))).symm
      · next hunder => exact .inl (hbench.outside place hunder)

/-- After the hidden directory was moved, there is nothing to clear away. -/
theorem removeAll_moved_staging {last : String} (hno : NoDirectory staged cwd out last)
    (hfree : staged.entryAt? (goal cwd out) = none) :
    (staged.move (goal cwd (surroundings out) ++ [name]) (goal cwd out)).removeAll cwd
      ((surroundings out).join ⟨name⟩) =
      staged.move (goal cwd (surroundings out) ++ [name]) (goal cwd out) := by
  have hmoved := hbench.movedDirectory hno hfree
  have hentry := hmoved.entryAt?_eq
  have haround : ∀ stop ∈ way cwd (surroundings out),
      (staged.move (goal cwd (surroundings out) ++ [name]) (goal cwd out)).entryAt? stop =
        some .directory := by
    intro stop hstop
    have hthere := hbench.around stop hstop
    rw [hentry, if_neg, if_neg (hbench.not_below (by simp [hthere])), hbench.entry_eq hthere]
    intro hbelow
    have hdirectory := hbench.entry_eq hthere
    have hnone : staged.entryAt? stop = none := by
      by_cases hsame : stop = goal cwd out
      · rw [hsame, hfree]
      · exact hbench.grounded.eq_none_of_below (by simp [hfree]) hbelow hsame
    simp [hnone] at hdirectory
  have hgone : (staged.move (goal cwd (surroundings out) ++ [name]) (goal cwd out)).entryAt?
      (goal cwd (surroundings out) ++ [name]) = none := by
    rw [hentry, if_neg hmoved.not_below_target, if_pos List.prefix_rfl]
  have hwalk :=
    @walk_join _ _ _ _ hbench.isName hbench.fitting.hidden_fits haround .unlessSlash (by simp)
  rw [arrivalAt_of_none hgone] at hwalk
  rw [removeAll, find?, hwalk]

variable (hfitting : Fitting out staged.unusedName files)
  (htarget : ∀ file ∈ files, pathObstacle? (out.join file.path) = none)

include htarget

/-- Into a file nothing is swapped, and all that is left are directories where nothing was. -/
theorem swapAll_into_file {last : String} (hno : NoDirectory staged cwd out last)
    {content : ByteArray} (hfile : staged.entryAt? (goal cwd out) = some (.file content)) :
    ∃ (outcome : Except WriteFailure Unit) (after : FileTree), Ends (swapAll (Disk.storage cwd)
        ((surroundings out).join ⟨name⟩) ((surroundings out).join ⟨staged.unusedName⟩) out files [])
        (prepared cwd out staged).disk outcome after.disk ∧ (outcome = .ok () ↔ files = []) ∧
        after.Grounded ∧
      ∀ place, after.entryAt? place = (prepared cwd out staged).entryAt? place := by
  obtain ⟨hgrounded, -, -⟩ := hbench.ways_prepared
  cases files with
  | nil => exact ⟨.ok (), _, Ends.pure_iff.mpr ⟨rfl, rfl⟩, by simp, hgrounded, fun _ => rfl⟩
  | cons file rest =>
    have hoccupied : ∀ stop ∈ way cwd out, ∃ entry, staged.entryAt? stop = some entry ∧
        ∀ target, entry ≠ .link target := by
      intro stop hstop
      rw [hno.way_eq, List.mem_append, List.mem_singleton] at hstop
      rcases hstop with hstop | hstop
      · exact ⟨_, hbench.entry_eq (hbench.around stop hstop), by simp⟩
      · exact ⟨_, hstop ▸ hfile, by simp⟩
    have hprepared : ∀ stop ∈ way cwd out, (prepared cwd out staged).entryAt? stop =
        staged.entryAt? stop := by
      intro stop hstop
      obtain ⟨entry, hentry, -⟩ := hoccupied stop hstop
      rw [entryAt?_prepared, if_neg]
      intro hsame
      have hnone := eq_none_of_not_uses staged.not_uses_unusedName
        (show staged.unusedName ∈ goal cwd (surroundings out) ++ [staged.unusedName] by simp)
      rw [hsame, hnone] at hentry
      contradiction
    have hgoal : goal cwd out ∈ way cwd out := by simp [hno.way_eq]
    obtain ⟨failure, after, hroom, hgrows, hafter⟩ := makeRoomFor_refused
      (hbench.names file List.mem_cons_self).isName
      (htarget file List.mem_cons_self) hgrounded
      (directory_prepared out (hbench.entry_eq hbench.cwd_eq)) (fun stop hstop target hlink => by
        obtain ⟨entry, hentry, hplain⟩ := hoccupied stop hstop
        rw [hprepared stop hstop, hentry] at hlink
        exact hplain target (Option.some.inj hlink))
      hgoal ((hprepared _ hgoal).trans hfile)
    refine ⟨.error failure, after, Ends.bind_error (Ends.tryCatch_error (Ends.bind_error hroom)
      (Ends.bind_ok (Ends.lift_ok (Gives.pure_iff.mpr ⟨rfl, rfl⟩))
        (Ends.throw_iff.mpr ⟨rfl, rfl⟩))), by simp, hafter,
      fun place => (hgrows place).resolve_right fun ⟨hnone, _, hin, _⟩ => ?_⟩
    obtain ⟨entry, hentry, -⟩ := hoccupied place hin
    rw [hprepared place hin, hentry] at hnone
    contradiction

include hfitting

/-- Into a file nothing is merged. -/
theorem merge_into_file {last : String} (hno : NoDirectory staged cwd out last)
    {content : ByteArray} (hfile : staged.entryAt? (goal cwd out) = some (.file content)) :
    ∃ (outcome : Except WriteFailure Unit) (after : FileTree),
      Ends (mergeInto (Disk.storage cwd) ((surroundings out).join ⟨name⟩) out files) staged.disk
        outcome after.disk ∧
      (outcome = .ok () ↔ files = []) ∧
      (after.removeAll cwd ((surroundings out).join ⟨name⟩)).Grounded ∧
      ∀ place, (after.removeAll cwd ((surroundings out).join ⟨name⟩)).entryAt? place =
        roomy.entryAt? place := by
  obtain ⟨number, hnumber, -⟩ := staged.exists_unusedName
  obtain ⟨-, hstaging, hbackup⟩ := hbench.ways_prepared
  obtain ⟨outcome, after, hends, hok, hgrounded, hsame⟩ :=
    hbench.swapAll_into_file htarget hno hfile
  obtain ⟨hlast, hcleared⟩ := hbench.cleared ⟨number, hnumber⟩ staged.not_uses_unusedName hgrounded
    (fun stop hstop => (hsame stop).trans (hstaging stop hstop))
    (fun stop hstop => (hsame stop).trans (hbackup stop hstop)) hfitting
  refine ⟨outcome, _, hbench.mergeInto_ends hfitting hends, hok, hlast, fun place => ?_⟩
  by_cases hhides : Hides cwd out name staged.unusedName place
  · exact (hcleared place).1 hhides
  · rw [(hcleared place).2 hhides, hsame, hbench.prepared_eq_roomy hhides]

omit htarget in
/-- Installing files succeeds exactly if the output directory takes them. Then they lie in it;
otherwise everything is as it was. -/
theorem install_ends (hnothing : NothingElse cwd out name files staged)
    (htarget : pathObstacle? out = none → ∀ file ∈ files, pathObstacle? (out.join file.path) = none)
    (hdot : EndsInDot out → roomy.entryAt? (goal cwd out) = some .directory) :
    ∃ (outcome : Except WriteFailure Unit) (after : FileTree),
      Ends (install (Disk.storage cwd) ((surroundings out).join ⟨name⟩) out files) staged.disk
        outcome after.disk ∧
      (after.removeAll cwd ((surroundings out).join ⟨name⟩)).Grounded ∧
      ((outcome = .ok () ∧ Accepts cwd out files roomy ∧
          LaidIn cwd out files roomy (after.removeAll cwd ((surroundings out).join ⟨name⟩))) ∨
        ((∃ failure, outcome = .error failure) ∧ ¬ Accepts cwd out files roomy ∧
          ∀ place, (after.removeAll cwd ((surroundings out).join ⟨name⟩)).entryAt? place =
            roomy.entryAt? place)) := by
  obtain ⟨habandoned, hback⟩ := hbench.abandoned
  have hstaging :=
    @walk_of_directories staged .never cwd _ hbench.fitting.hidden_fits hbench.way_staging
  have hunreachable {obstacle : Obstacle}
      (hwalk : ∀ how, staged.walk cwd how out = .error obstacle) :
      Ends (install (Disk.storage cwd) ((surroundings out).join ⟨name⟩) out files) staged.disk
        (.error ⟨out, .obstacle obstacle⟩) staged.disk := by
    refine install_of_refused (by rw [find?, hwalk]) (Disk.attempt_error
      (fun tree => tree.rename cwd ((surroundings out).join ⟨name⟩) out) ?_)
    rw [rename, hstaging, hwalk]
  cases hpath : pathObstacle? out with
  | some obstacle =>
    exact ⟨_, staged, hunreachable fun how => walk_eq_error hpath, habandoned,
      .inr ⟨⟨_, rfl⟩, fun haccepts => by simp [haccepts.1] at hpath, hback⟩⟩
  | none =>
  have hfits := htarget hpath
  have hgoal := hbench.staged_eq (.inr rfl)
  rcases directories_or_noDirectory hbench.grounded (hbench.entry_eq hbench.cwd_eq) hpath
      (fun stop hstop => hbench.entry_eq (hbench.around stop hstop))
      (fun stop hstop => by rw [hbench.staged_eq (.inl hstop)]; exact hbench.no_links stop hstop)
      (fun hends => by rw [hgoal]; exact hdot hends) with hdirectories | ⟨last, hno⟩
  · have hroomy : ∀ stop ∈ way cwd out, roomy.entryAt? stop = some .directory :=
      fun stop hstop => (hbench.staged_eq (.inl hstop)).symm.trans (hdirectories stop hstop)
    rw [accepts_iff_of_directories hpath hroomy]
    obtain ⟨outcome, after, hmerge, hgrounded, hcases⟩ := hbench.merge_ends hfitting hfits hroomy
    refine ⟨outcome, after, install_of_taken (walk_of_directories hpath hdirectories) hmerge,
      hgrounded, ?_⟩
    rcases hcases with hmerged | ⟨hfailed, ⟨file, hfile, hcovered⟩, hsame⟩
    · exact .inl hmerged
    · exact .inr ⟨hfailed, fun hplain => hplain file hfile hcovered, hsame⟩
  rcases hno.cases with ⟨hfree, forDirectory, hwalk⟩ | ⟨content, hfile, hbranches⟩
  · rw [accepts_iff_of_free hpath hbench.roomy_grounded hbench.around hno.way_eq
      (hgoal.symm.trans hfree)]
    obtain ⟨hrenamed, hrefused⟩ := hbench.rename_ends hno (hwalk .never)
    have hnotthere : staged.find? cwd .through out = none := by rw [find?, hwalk]
    by_cases hshort : Short (goal cwd out)
    · refine ⟨.ok (), _, install_of_renamed hnotthere (hrenamed hshort), ?_, .inl ⟨rfl, hshort, ?_⟩⟩
      · rw [hbench.removeAll_moved_staging hno hfree]
        exact (hbench.movedDirectory hno hfree).grounded hbench.grounded
      · rw [hbench.removeAll_moved_staging hno hfree]
        exact hbench.laidIn_of_moved hnothing hno hfree hshort
    · exact ⟨_, staged, install_of_refused hnotthere (hrefused hshort), habandoned,
        .inr ⟨⟨_, rfl⟩, hshort, hback⟩⟩
  rw [accepts_iff_of_file hpath (by simp [hno.way_eq]) (hgoal.symm.trans hfile)]
  rcases hbranches with ⟨hbare, hwalk⟩ | ⟨hbare, hwalk⟩
  · obtain ⟨outcome, after, hmerge, hok, hgrounded, hsame⟩ :=
      hbench.merge_into_file hfitting hfits hno hfile
    refine ⟨outcome, after, install_of_taken (hwalk .through) hmerge, hgrounded, ?_⟩
    cases outcome with
    | ok done =>
      have hnil := hok.mp rfl
      exact .inl ⟨rfl, ⟨hnil, hbare⟩, by simp [hnil], fun place _ => .inl (hsame place)⟩
    | error failure =>
      exact .inr ⟨⟨failure, rfl⟩, fun haccepts => absurd (hok.mpr haccepts.1) (by simp), hsame⟩
  · exact ⟨_, staged, hunreachable hwalk, habandoned,
      .inr ⟨⟨_, rfl⟩, fun haccepts => hbare haccepts.2, hback⟩⟩

end Bench

end SchemaBindings.Bindings
