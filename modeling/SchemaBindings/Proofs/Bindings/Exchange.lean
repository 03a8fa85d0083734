import SchemaBindings.Proofs.Bindings.Outputs
import SchemaBindings.Proofs.FileTree.Named

/-!
# Exchanging files one by one

Where the directories are there, and no name is in the way as a directory, staged files are swapped
in one after the other, and each swap can be taken back. So swapping files in succeeds exactly if
none of them is to replace a directory; otherwise everything outside the hidden directory is as it
was.
-/

namespace SchemaBindings.Bindings

open SchemaBindings.FileTree

/-! ## Making room -/

/-- The directory that is to hold a name is the one that the name was joined to, whatever its text
is. -/
theorem exists_parent_join (cwd : Place) {base : Path} {name : String} (hname : IsName name)
    (hpath : pathObstacle? (base.join ⟨name⟩) = none) :
    ∃ parent, (base.join ⟨name⟩).parent? = some parent ∧
      parent.Bare ∧ way cwd parent = way cwd base ∧
      (parent.text = "" ∨ pathObstacle? parent = none) := by
  have hmoves := base.moves_join hname.not_blank hname.no_slash
  have hne : (base.join ⟨name⟩).moves ≠ [] := by simp [hmoves]
  obtain ⟨parent, hparent⟩ := Path.exists_parent? hne
  have haround := Path.around_of_parent? hparent
  obtain ⟨last, hlast⟩ := haround.moves_eq.resolve_left fun hnil => by simp [hmoves] at hnil
  have hsame : parent.moves = base.moves := by
    rw [hmoves] at hlast
    exact (List.append_inj' hlast rfl).1.symm
  refine ⟨parent, hparent, haround.bare, ?_, ?_⟩
  · rw [way, hsame, start, haround.isAbsolute_eq,
      base.isAbsolute_join (Path.isAbsolute_of_no_slash hname.no_slash), ← start, way]
  · by_cases hempty : parent.text = ""
    · exact .inl hempty
    · exact .inr (pathObstacle?_of_below hpath haround.text_below hempty)

/-- There is room for a name in a directory. -/
theorem makeRoomFor_join {tree : FileTree} {cwd : Place} {base : Path} {name : String}
    (hname : IsName name) (hpath : pathObstacle? (base.join ⟨name⟩) = none)
    (hway : ∀ stop ∈ way cwd base, tree.entryAt? stop = some .directory) :
    Ends (makeRoomFor (Disk.storage cwd) (base.join ⟨name⟩)) tree.disk (.ok ()) tree.disk := by
  obtain ⟨parent, hparent, -, hsame, hempty | hfits⟩ := exists_parent_join cwd hname hpath
  all_goals
    simp only [makeRoomFor, hparent]
    refine Ends.adapt_iff.mpr ⟨.ok (), ?_, rfl⟩
  · obtain ⟨outer, houter⟩ := parent.exists_ancestors
    rw [Storage.makeDirectories, houter, Storage.makeInnermost, if_pos (by simpa using hempty)]
    exact Ends.pure_iff.mpr ⟨rfl, rfl⟩
  · exact Disk.makeDirectories_of_directories hfits (by rwa [hsame])

/-- There is no room for a name where something other than a directory is on the way. -/
theorem makeRoomFor_refused {tree : FileTree} {cwd : Place} {base : Path} {name : String}
    (hname : IsName name) (hpath : pathObstacle? (base.join ⟨name⟩) = none)
    (hgrounded : tree.Grounded) (hcwd : tree.entryAt? cwd = some .directory)
    (hlinks : ∀ stop ∈ way cwd base, ∀ target, tree.entryAt? stop ≠ some (.link target))
    {stop : Place} (hstop : stop ∈ way cwd base) {content : ByteArray}
    (hfile : tree.entryAt? stop = some (.file content)) :
    ∃ failure after, Ends (makeRoomFor (Disk.storage cwd) (base.join ⟨name⟩)) tree.disk
        (.error failure) after.disk ∧
      tree.GrowsBy (fun stop => stop ∈ way cwd base ∧ Short stop) after ∧ after.Grounded := by
  obtain ⟨parent, hparent, hbare, hsame, hempty | hfits⟩ := exists_parent_join cwd hname hpath
  · have hmoves : parent.moves = [] := by rw [Path.moves, Path.pieces, hempty]; rfl
    rw [← hsame, way, hmoves] at hstop
    simp [passed] at hstop
  obtain ⟨outcome, after, hends, hmade⟩ :=
    Disk.makeDirectories_ends hgrounded hcwd hfits hbare (by rwa [hsame])
  rw [hsame] at hmade
  cases outcome with
  | ok done =>
    have hdirectory := hmade.directories rfl stop hstop
    simp [hmade.grows.grows.extends hfile] at hdirectory
  | error obstacle =>
    refine ⟨⟨parent, .obstacle obstacle⟩, after, ?_, hmade.grows, hmade.grounded⟩
    simp only [makeRoomFor, hparent]
    exact Ends.adapt hends _

/-! ## The paths of an exchange -/

/-- Where files are exchanged: the paths to the directory where they are staged, to the one where
what they replace is kept, and to the output directory. -/
structure Exchange where
  cwd : Place
  staging : Path
  backup : Path
  out : Path

namespace Exchange

variable (exchange : Exchange) (file : OutputFile)

/-- The path that a file is staged at. -/
def stagedPath : Path := exchange.staging.join file.path

/-- The path that what a file replaces is kept at. -/
def savedPath : Path := exchange.backup.join file.path

/-- The path that a file is swapped in at. -/
def targetPath : Path := exchange.out.join file.path

/-- The place where a file is staged. -/
def stagedPlace : Place := goal exchange.cwd exchange.staging ++ [file.path.text]

/-- The place where what a file replaces is kept. -/
def savedPlace : Place := goal exchange.cwd exchange.backup ++ [file.path.text]

/-- The place where a file is swapped in. -/
def targetPlace : Place := goal exchange.cwd exchange.out ++ [file.path.text]

/-- Whether files with short names may be exchanged along the paths. -/
structure Fit (files : List OutputFile) : Prop where
  isName : ∀ file ∈ files, IsName file.path.text
  short : ∀ file ∈ files, file.path.text.utf8ByteSize ≤ Disk.nameLimit
  nodup : (files.map fun file => file.path.text).Nodup
  staged_fits : ∀ file ∈ files, pathObstacle? (exchange.stagedPath file) = none
  saved_fits : ∀ file ∈ files, pathObstacle? (exchange.savedPath file) = none
  target_fits : ∀ file ∈ files, pathObstacle? (exchange.targetPath file) = none
  staging_ne_out : goal exchange.cwd exchange.staging ≠ goal exchange.cwd exchange.out
  backup_ne_out : goal exchange.cwd exchange.backup ≠ goal exchange.cwd exchange.out
  staging_ne_backup : goal exchange.cwd exchange.staging ≠ goal exchange.cwd exchange.backup

/-- Whether the directories of an exchange are there. -/
structure Ready (tree : FileTree) : Prop where
  grounded : tree.Grounded
  cwd_eq : tree.entryAt? exchange.cwd = some .directory
  staging : ∀ stop ∈ way exchange.cwd exchange.staging, tree.entryAt? stop = some .directory
  backup : ∀ stop ∈ way exchange.cwd exchange.backup, tree.entryAt? stop = some .directory
  out : ∀ stop ∈ way exchange.cwd exchange.out, tree.entryAt? stop = some .directory

/-- Whether a tree is another one after a file was swapped in, and what it replaced was moved
aside. -/
structure SwappedIn (tree after : FileTree) : Prop where
  grounded : after.Grounded
  entryAt?_eq : ∀ place, after.entryAt? place =
    if place = exchange.targetPlace file then tree.entryAt? (exchange.stagedPlace file)
    else if place = exchange.stagedPlace file then none
    else if place = exchange.savedPlace file then tree.entryAt? (exchange.targetPlace file)
    else tree.entryAt? place

variable {exchange file} {files : List OutputFile} {tree : FileTree}

/-- Where directories stay, an exchange stays ready. -/
theorem Ready.keeps (hready : exchange.Ready tree) {after : FileTree} (hgrounded : after.Grounded)
    (hkeeps : ∀ place, tree.entryAt? place = some .directory →
      after.entryAt? place = some .directory) :
    exchange.Ready after :=
  ⟨hgrounded, hkeeps _ hready.cwd_eq, fun stop hstop => hkeeps stop (hready.staging stop hstop),
    fun stop hstop => hkeeps stop (hready.backup stop hstop),
    fun stop hstop => hkeeps stop (hready.out stop hstop)⟩

namespace Ready

variable (hready : exchange.Ready tree)

include hready

/-- The directory where replaced files are kept is there. -/
theorem backup_eq : tree.entryAt? (goal exchange.cwd exchange.backup) = some .directory :=
  directory_goal hready.cwd_eq hready.backup

/-- The output directory is there. -/
theorem out_eq : tree.entryAt? (goal exchange.cwd exchange.out) = some .directory :=
  directory_goal hready.cwd_eq hready.out

end Ready

/-! ## Moves between the directories -/

namespace Fit

variable (hfit : exchange.Fit files)

include hfit

/-- The place where a file is staged is not the place that any file is swapped into. -/
theorem staged_ne_target (file other : OutputFile) :
    exchange.stagedPlace file ≠ exchange.targetPlace other :=
  below_ne hfit.staging_ne_out _ _

/-- The place where an old file is kept is not the place that any file is swapped into. -/
theorem saved_ne_target (file other : OutputFile) :
    exchange.savedPlace file ≠ exchange.targetPlace other :=
  below_ne hfit.backup_ne_out _ _

/-- The place where a file is staged is not the place where any old file is kept. -/
theorem staged_ne_saved (file other : OutputFile) :
    exchange.stagedPlace file ≠ exchange.savedPlace other :=
  below_ne hfit.staging_ne_backup _ _

variable (hfile : file ∈ files)

include hfile

/-- On a tree that is ready, the path of a file leads to its place, unless a link at its end is
followed. -/
theorem walk_target (hready : exchange.Ready tree) {last : LastLink} (hlast : last ≠ .through) :
    tree.walk exchange.cwd last (exchange.targetPath file) =
      .ok (tree.arrivalAt (exchange.targetPlace file)) :=
  walk_join (hfit.isName file hfile) (hfit.target_fits file hfile) hready.out
    fun h => absurd h hlast

/-- On a tree that is ready, the path of a staged file leads to the place where it is staged. -/
theorem walk_staged (hready : exchange.Ready tree) {last : LastLink} (hlast : last ≠ .through) :
    tree.walk exchange.cwd last (exchange.stagedPath file) =
      .ok (tree.arrivalAt (exchange.stagedPlace file)) :=
  walk_join (hfit.isName file hfile) (hfit.staged_fits file hfile) hready.staging
    fun h => absurd h hlast

/-- On a tree that is ready, the path that an old file is kept at leads to the place where it is
kept. -/
theorem walk_saved (hready : exchange.Ready tree) {last : LastLink} (hlast : last ≠ .through) :
    tree.walk exchange.cwd last (exchange.savedPath file) =
      .ok (tree.arrivalAt (exchange.savedPlace file)) :=
  walk_join (hfit.isName file hfile) (hfit.saved_fits file hfile) hready.backup
    fun h => absurd h hlast

/-- What a file is to replace may be moved aside. -/
theorem moved_aside (hready : exchange.Ready tree) {entry : Entry}
    (hentry : tree.entryAt? (exchange.targetPlace file) = some entry) (hplain : entry ≠ .directory)
    (hfree : tree.entryAt? (exchange.savedPlace file) = none) :
    tree.rename exchange.cwd (exchange.targetPath file) (exchange.savedPath file) =
        .ok (tree.move (exchange.targetPlace file) (exchange.savedPlace file)) ∧
      Moved tree (exchange.targetPlace file) (exchange.savedPlace file) entry
        (tree.move (exchange.targetPlace file) (exchange.savedPlace file)) := by
  have hne := (hfit.saved_ne_target file file).symm
  have hcovered : tree.entryAt? (exchange.savedPlace file) ≠ some .directory := by simp [hfree]
  exact ⟨rename_plain (hfit.walk_target hfile hready (by simp)) hentry hplain
    (hfit.walk_saved hfile hready (by simp))
    hcovered hne, moved_move hready.grounded hentry hplain
      (fits_below hready.backup_eq hcovered) hne⟩

/-- A staged file may be moved in where no directory is. -/
theorem moved_in (hready : exchange.Ready tree) {content : ByteArray}
    (hstaged : tree.entryAt? (exchange.stagedPlace file) = some (.file content))
    (hcovered : tree.entryAt? (exchange.targetPlace file) ≠ some .directory) :
    tree.rename exchange.cwd (exchange.stagedPath file) (exchange.targetPath file) =
        .ok (tree.move (exchange.stagedPlace file) (exchange.targetPlace file)) ∧
      Moved tree (exchange.stagedPlace file) (exchange.targetPlace file) (.file content)
        (tree.move (exchange.stagedPlace file) (exchange.targetPlace file)) := by
  have hne := hfit.staged_ne_target file file
  exact ⟨rename_plain (hfit.walk_staged hfile hready (by simp)) hstaged (by simp)
    (hfit.walk_target hfile hready (by simp)) hcovered hne,
    moved_move hready.grounded hstaged (by simp) (fits_below hready.out_eq hcovered) hne⟩

/-- What was moved aside may be moved back over a file. -/
theorem moved_back (hready : exchange.Ready tree) {entry : Entry}
    (hentry : tree.entryAt? (exchange.savedPlace file) = some entry) (hplain : entry ≠ .directory)
    (hcovered : tree.entryAt? (exchange.targetPlace file) ≠ some .directory) :
    tree.rename exchange.cwd (exchange.savedPath file) (exchange.targetPath file) =
        .ok (tree.move (exchange.savedPlace file) (exchange.targetPlace file)) ∧
      Moved tree (exchange.savedPlace file) (exchange.targetPlace file) entry
        (tree.move (exchange.savedPlace file) (exchange.targetPlace file)) := by
  have hne := hfit.saved_ne_target file file
  exact ⟨rename_plain (hfit.walk_saved hfile hready (by simp)) hentry hplain
    (hfit.walk_target hfile hready (by simp))
    hcovered hne, moved_move hready.grounded hentry hplain (fits_below hready.out_eq hcovered) hne⟩

end Fit

/-! ## One swap -/

/-- Whether a file is to be swapped in yet: it is staged, and nothing is kept for it. -/
structure Pending (exchange : Exchange) (file : OutputFile) (tree : FileTree) : Prop where
  staged : ∃ content, tree.entryAt? (exchange.stagedPlace file) = some (.file content)
  unsaved : tree.entryAt? (exchange.savedPlace file) = none

/-- Moving what is no directory keeps all directories. -/
theorem directory_of_moved {moved : FileTree} {source target : Place} {entry : Entry}
    (h : Moved tree source target entry moved) {place : Place}
    (hplace : tree.entryAt? place = some .directory) :
    moved.entryAt? place = some .directory := by
  rw [h.entryAt?_eq, if_neg, if_neg, hplace]
  · rintro rfl
    exact h.source_plain hplace
  · rintro rfl
    exact h.target_plain hplace

/-- Moving aside finds nothing where nothing is. -/
theorem setAside_none (hfit : exchange.Fit files) (hfile : file ∈ files)
    (hready : exchange.Ready tree) (hentry : tree.entryAt? (exchange.targetPlace file) = none) :
    Ends (setAside (Disk.storage exchange.cwd) (exchange.targetPath file) (exchange.savedPath file))
      tree.disk (.ok none) tree.disk := by
  have hkind := Disk.ownKind_missing (hfit.walk_target hfile hready (by simp)) hentry
  exact Ends.bind_ok (Ends.lift_ok hkind) (Ends.pure_iff.mpr ⟨rfl, rfl⟩)

/-- Moving aside moves what is no directory. -/
theorem setAside_some (hfit : exchange.Fit files) (hfile : file ∈ files)
    (hready : exchange.Ready tree) {entry : Entry}
    (hentry : tree.entryAt? (exchange.targetPlace file) = some entry) (hplain : entry ≠ .directory)
    (hfree : tree.entryAt? (exchange.savedPlace file) = none) :
    Ends (setAside (Disk.storage exchange.cwd) (exchange.targetPath file) (exchange.savedPath file))
      tree.disk (.ok (some (exchange.savedPath file)))
      (tree.move (exchange.targetPlace file) (exchange.savedPlace file)).disk := by
  have hkind := Disk.ownKind_ends (hfit.walk_target hfile hready (by simp)) hentry
  have hroom := makeRoomFor_join (hfit.isName file hfile) (hfit.saved_fits file hfile) hready.backup
  have hrename := Disk.attempt_ok
    (fun tree => tree.rename exchange.cwd (exchange.targetPath file) (exchange.savedPath file))
    (hfit.moved_aside hfile hready hentry hplain hfree).1
    (endsInName_join exchange.backup (hfit.isName file hfile) (hfit.short file hfile))
  have hmove : Ends (do
      makeRoomFor (Disk.storage exchange.cwd) (exchange.savedPath file)
      atPath (exchange.targetPath file)
        ((Disk.storage exchange.cwd).rename (exchange.targetPath file) (exchange.savedPath file))
      return some (exchange.savedPath file)) tree.disk (.ok (some (exchange.savedPath file)))
      (tree.move (exchange.targetPlace file) (exchange.savedPlace file)).disk :=
    Ends.bind_ok hroom (Ends.bind_ok (Ends.adapt hrename _) (Ends.pure_iff.mpr ⟨rfl, rfl⟩))
  refine Ends.bind_ok (Ends.lift_ok hkind) ?_
  cases entry with
  | directory => exact absurd rfl hplain
  | file content => exact hmove
  | link goal => exact hmove

/-- A directory is not moved aside. -/
theorem setAside_directory (hfit : exchange.Fit files) (hfile : file ∈ files)
    (hready : exchange.Ready tree)
    (hentry : tree.entryAt? (exchange.targetPlace file) = some .directory) :
    Ends (setAside (Disk.storage exchange.cwd) (exchange.targetPath file) (exchange.savedPath file))
      tree.disk (.error ⟨exchange.targetPath file, .directoryInTheWay⟩) tree.disk := by
  have hkind := Disk.ownKind_ends (hfit.walk_target hfile hready (by simp)) hentry
  exact Ends.bind_ok (Ends.lift_ok hkind) (Ends.throw_iff.mpr ⟨rfl, rfl⟩)

/-- A staged file is swapped in where no directory is. -/
theorem swapIn_ends (hfit : exchange.Fit files) (hfile : file ∈ files)
    (hready : exchange.Ready tree) (hpending : exchange.Pending file tree)
    (hcovered : tree.entryAt? (exchange.targetPlace file) ≠ some .directory) :
    ∃ after, Ends (swapIn (Disk.storage exchange.cwd) (exchange.stagedPath file)
      (exchange.targetPath file)
        (exchange.savedPath file)) tree.disk (.ok ⟨exchange.targetPath file,
        (tree.entryAt? (exchange.targetPlace file)).map fun _ => exchange.savedPath file⟩)
        after.disk ∧
      exchange.SwappedIn file tree after := by
  obtain ⟨content, hstaged⟩ := hpending.staged
  have hroom := makeRoomFor_join (hfit.isName file hfile) (hfit.target_fits file hfile) hready.out
  have hname : Disk.endsInName (exchange.targetPath file) = true :=
    endsInName_join _ (hfit.isName file hfile) (hfit.short file hfile)
  have hin {aside moved : FileTree}
      (h : aside.rename exchange.cwd (exchange.stagedPath file) (exchange.targetPath file) =
        .ok moved) :=
    Disk.attempt_ok
      (fun tree => tree.rename exchange.cwd (exchange.stagedPath file) (exchange.targetPath file))
      h hname
  cases hentry : tree.entryAt? (exchange.targetPlace file) with
  | none =>
    obtain ⟨hrename, hmoved⟩ := hfit.moved_in hfile hready hstaged hcovered
    refine ⟨_, ?_, hmoved.grounded, fun place => ?_⟩
    · exact Ends.bind_ok hroom (Ends.bind_ok (setAside_none hfit hfile hready hentry)
        (Ends.bind_ok (Ends.tryCatch_ok (Ends.adapt (hin hrename) _))
          (Ends.pure_iff.mpr ⟨rfl, rfl⟩)))
    · rw [hmoved.entryAt?_eq, hstaged, hentry]
      split_ifs with htarget hsource hsaved
      · rfl
      · rfl
      · rw [hsaved, hpending.unsaved]
      · rfl
  | some entry =>
    have hplain : entry ≠ .directory :=
      fun hdirectory => hcovered (hentry.trans (congrArg some hdirectory))
    obtain ⟨-, haside⟩ := hfit.moved_aside hfile hready hentry hplain hpending.unsaved
    have hasideready :=
      hready.keeps haside.grounded fun place hplace => directory_of_moved haside hplace
    obtain ⟨hrename, hmoved⟩ := hfit.moved_in hfile hasideready
      (by rw [haside.entryAt?_eq, if_neg (hfit.staged_ne_saved file file),
        if_neg (hfit.staged_ne_target file file), hstaged])
      (by rw [haside.entryAt?_eq, if_neg (hfit.saved_ne_target file file).symm, if_pos rfl]; simp)
    refine ⟨_, ?_, hmoved.grounded, fun place => ?_⟩
    · exact Ends.bind_ok hroom
        (Ends.bind_ok (setAside_some hfit hfile hready hentry hplain hpending.unsaved)
        (Ends.bind_ok (Ends.tryCatch_ok (Ends.adapt (hin hrename) _))
          (Ends.pure_iff.mpr ⟨rfl, rfl⟩)))
    · rw [hmoved.entryAt?_eq, haside.entryAt?_eq, hstaged, hentry]
      split_ifs <;> rfl

/-- Where a directory is, nothing is swapped in. -/
theorem swapIn_refused (hfit : exchange.Fit files) (hfile : file ∈ files)
    (hready : exchange.Ready tree)
    (hcovered : tree.entryAt? (exchange.targetPlace file) = some .directory) :
    Ends (swapIn (Disk.storage exchange.cwd) (exchange.stagedPath file) (exchange.targetPath file)
      (exchange.savedPath file)) tree.disk (.error ⟨exchange.targetPath file, .directoryInTheWay⟩)
      tree.disk :=
  Ends.bind_ok (makeRoomFor_join (hfit.isName file hfile) (hfit.target_fits file hfile) hready.out)
    (Ends.bind_error (setAside_directory hfit hfile hready hcovered))

/-! ## Taking a swap back -/

/-- Taking a swap back empties the place where the file was swapped in and that where what it
replaced was kept, and puts back what was kept. -/
theorem undo_gives (hfit : exchange.Fit files) (hfile : file ∈ files) (hready : exchange.Ready tree)
    {content : ByteArray}
    (htarget : tree.entryAt? (exchange.targetPlace file) = some (.file content))
    (hsaved : tree.entryAt? (exchange.savedPlace file) ≠ some .directory) :
    ∃ undone : FileTree, Gives (undo (Disk.storage exchange.cwd) ⟨exchange.targetPath file,
        (tree.entryAt? (exchange.savedPlace file)).map fun _ => exchange.savedPath file⟩)
        tree.disk () undone.disk ∧
      undone.Grounded ∧ ∀ place, undone.entryAt? place =
        if place = exchange.targetPlace file then tree.entryAt? (exchange.savedPlace file)
        else if place = exchange.savedPlace file then none else tree.entryAt? place := by
  cases hentry : tree.entryAt? (exchange.savedPlace file) with
  | none =>
    have hremove := removeFile_plain (hfit.walk_target hfile hready (by simp)) htarget (by simp)
    have hnamed : exchange.targetPlace file ≠ [] := by simp [targetPlace]
    refine ⟨_, Disk.settle_ok (fun tree => tree.removeFile exchange.cwd (exchange.targetPath file))
      hremove, hready.grounded.remove hnamed, fun place => ?_⟩
    rw [entryAt?_remove_plain hready.grounded htarget (by simp)]
    split_ifs with hplace hkept
    · rfl
    · rw [hkept, hentry]
    · rfl
  | some entry =>
    have hplain : entry ≠ .directory :=
      fun hdirectory => hsaved (hentry.trans (congrArg some hdirectory))
    obtain ⟨hrename, hmoved⟩ := hfit.moved_back hfile hready hentry hplain (by simp [htarget])
    exact ⟨_, Disk.settle_ok
      (fun tree => tree.rename exchange.cwd (exchange.savedPath file) (exchange.targetPath file))
      hrename, hmoved.grounded, hmoved.entryAt?_eq⟩

/-! ## All swaps -/

/-- Whether a tree is another one after files were swapped in: outside of the places of these files
nothing changed. -/
structure AllSwapped (exchange : Exchange) (files : List OutputFile) (tree after : FileTree) :
    Prop where
  ready : exchange.Ready after
  target_eq : ∀ file ∈ files, after.entryAt? (exchange.targetPlace file) =
    tree.entryAt? (exchange.stagedPlace file)
  others : ∀ place,
    (∀ file ∈ files, place ≠ exchange.targetPlace file ∧ place ≠ exchange.stagedPlace file ∧
    place ≠ exchange.savedPlace file) → after.entryAt? place = tree.entryAt? place

/-- Whether taking swaps back gives back a tree from one that differs from another one in staged
files alone. -/
def Undoes (exchange : Exchange) (files : List OutputFile) (base : FileTree) (swaps : List Swap)
    (tree : FileTree) :
    Prop :=
  ∀ later, exchange.Ready later →
    (∀ place, (∀ file ∈ files, place ≠ exchange.stagedPlace file) →
      later.entryAt? place = tree.entryAt? place) →
    ∃ undone : FileTree, Gives (swaps.forM (undo (Disk.storage exchange.cwd)))
        later.disk () undone.disk ∧
      exchange.Ready undone ∧
      ∀ place, (∀ file ∈ files, place ≠ exchange.stagedPlace file) →
        undone.entryAt? place = base.entryAt? place

/-- Where nothing was swapped in, nothing is to be taken back. -/
theorem undoes_nil (exchange : Exchange) (files : List OutputFile) (tree : FileTree) :
    exchange.Undoes files tree [] tree :=
  fun later hready hsame => ⟨later, Gives.pure_iff.mpr ⟨rfl, rfl⟩, hready, hsame⟩

/-- After a swap that keeps directories, an exchange is ready. -/
theorem SwappedIn.ready {after : FileTree} (hswapped : exchange.SwappedIn file tree after)
    (hready : exchange.Ready tree) (hpending : exchange.Pending file tree)
    (hcovered : tree.entryAt? (exchange.targetPlace file) ≠ some .directory) :
    exchange.Ready after := by
  obtain ⟨content, hstaged⟩ := hpending.staged
  refine hready.keeps hswapped.grounded fun place hplace => ?_
  rw [hswapped.entryAt?_eq, if_neg, if_neg, if_neg, hplace]
  · rintro rfl
    simp [hpending.unsaved] at hplace
  · rintro rfl
    simp [hstaged] at hplace
  · rintro rfl
    exact hcovered hplace

/-- Where a swap and those before it are to be taken back, it is taken back first. -/
theorem Undoes.cons (hfit : exchange.Fit files) (hfile : file ∈ files) {base : FileTree}
    {swaps : List Swap} (hundoes : exchange.Undoes files base swaps tree) {after : FileTree}
    (hswapped : exchange.SwappedIn file tree after) (hpending : exchange.Pending file tree)
    (hcovered : tree.entryAt? (exchange.targetPlace file) ≠ some .directory) :
    exchange.Undoes files base (⟨exchange.targetPath file,
      (tree.entryAt? (exchange.targetPlace file)).map fun _ => exchange.savedPath file⟩ :: swaps)
      after := by
  intro later hready hlater
  obtain ⟨content, hstaged⟩ := hpending.staged
  have htargetloose : ∀ other ∈ files, exchange.targetPlace file ≠ exchange.stagedPlace other :=
    fun other _ => (hfit.staged_ne_target other file).symm
  have hsavedloose : ∀ other ∈ files, exchange.savedPlace file ≠ exchange.stagedPlace other :=
    fun other _ => (hfit.staged_ne_saved other file).symm
  have htarget : later.entryAt? (exchange.targetPlace file) = some (.file content) := by
    rw [hlater _ htargetloose, hswapped.entryAt?_eq, if_pos rfl, hstaged]
  have hsaved : later.entryAt? (exchange.savedPlace file) =
      tree.entryAt? (exchange.targetPlace file) := by
    rw [hlater _ hsavedloose, hswapped.entryAt?_eq, if_neg (hfit.saved_ne_target file file),
      if_neg (hsavedloose file hfile), if_pos rfl]
  obtain ⟨undone, hundo, hgrounded, hentry⟩ :=
    undo_gives hfit hfile hready htarget (by rwa [hsaved])
  rw [hsaved] at hundo hentry
  have hundoneready : exchange.Ready undone := by
    refine hready.keeps hgrounded fun place hplace => ?_
    rw [hentry, if_neg, if_neg, hplace]
    · rintro rfl
      exact hcovered (hsaved.symm.trans hplace)
    · rintro rfl
      simp [htarget] at hplace
  obtain ⟨last, hrest, hlastready, hlast⟩ := hundoes undone hundoneready fun place hplace => by
    rw [hentry, hlater place hplace, hswapped.entryAt?_eq]
    split_ifs with hone htwo hthree
    · rw [hone]
    · rw [htwo, hpending.unsaved]
    · exact absurd hthree (hplace file hfile)
    · rfl
  exact ⟨last, Gives.bind_iff.mpr ⟨(), undone.disk, hundo, hrest⟩, hlastready, hlast⟩

/-- Files that come after a swap are still to be swapped in. -/
theorem SwappedIn.pending (hfit : exchange.Fit files) {after : FileTree}
    (hswapped : exchange.SwappedIn file tree after) {other : OutputFile}
    (hne : other.path.text ≠ file.path.text) (hpending : exchange.Pending other tree) :
    exchange.Pending other after ∧
      after.entryAt? (exchange.stagedPlace other) = tree.entryAt? (exchange.stagedPlace other) ∧
      after.entryAt? (exchange.targetPlace other) = tree.entryAt? (exchange.targetPlace other) := by
  have hname {place : Place} : place ++ [other.path.text] ≠
      place ++ [file.path.text] := fun hsame =>
    hne (by simpa using hsame)
  have hstagedne : exchange.stagedPlace other ≠ exchange.stagedPlace file := hname
  have hsavedne : exchange.savedPlace other ≠ exchange.savedPlace file := hname
  have htargetne : exchange.targetPlace other ≠ exchange.targetPlace file := hname
  have hstaged : after.entryAt? (exchange.stagedPlace other) =
      tree.entryAt? (exchange.stagedPlace other) := by
    rw [hswapped.entryAt?_eq, if_neg (hfit.staged_ne_target other file), if_neg hstagedne,
      if_neg (hfit.staged_ne_saved other file)]
  refine ⟨⟨?_, ?_⟩, hstaged, ?_⟩
  · obtain ⟨content, hcontent⟩ := hpending.staged
    exact ⟨content, hstaged.trans hcontent⟩
  · rw [hswapped.entryAt?_eq, if_neg (hfit.saved_ne_target other file),
      if_neg (hfit.staged_ne_saved file other).symm, if_neg hsavedne, hpending.unsaved]
  · rw [hswapped.entryAt?_eq, if_neg htargetne, if_neg (hfit.staged_ne_target file other).symm,
      if_neg (hfit.saved_ne_target file other).symm]

/-- Files are swapped in one by one, unless one of them is to replace a directory: then all swaps
are taken back. -/
theorem swapAll_ends (hfit : exchange.Fit files) {pending : List OutputFile}
    (hsuffix : pending <:+ files) (hready : exchange.Ready tree)
    (hpending : ∀ file ∈ pending, exchange.Pending file tree) {base : FileTree} {swaps : List Swap}
    (hundoes : exchange.Undoes files base swaps tree) :
    ((∀ file ∈ pending, tree.entryAt? (exchange.targetPlace file) ≠ some .directory) ∧ ∃ after,
      Ends (swapAll (Disk.storage exchange.cwd) exchange.staging exchange.backup exchange.out
        pending swaps) tree.disk (.ok ()) after.disk ∧ exchange.AllSwapped pending tree after) ∨
    ((∃ file ∈ pending, tree.entryAt? (exchange.targetPlace file) = some .directory) ∧
      ∃ failure after, Ends (swapAll (Disk.storage exchange.cwd) exchange.staging exchange.backup
        exchange.out pending swaps) tree.disk (.error failure) after.disk ∧ exchange.Ready after ∧
      ∀ place, (∀ file ∈ files, place ≠ exchange.stagedPlace file) →
        after.entryAt? place = base.entryAt? place) := by
  induction pending generalizing tree swaps with
  | nil => exact .inl ⟨by simp, tree, Ends.pure_iff.mpr ⟨rfl, rfl⟩, hready, by simp, fun _ _ => rfl⟩
  | cons file rest ih =>
    have hfile : file ∈ files := hsuffix.subset List.mem_cons_self
    have hnext := hpending file List.mem_cons_self
    by_cases hcovered : tree.entryAt? (exchange.targetPlace file) = some .directory
    · obtain ⟨undone, hundone, hundoneready, hsame⟩ := hundoes tree hready fun _ _ => rfl
      refine .inr ⟨⟨file, List.mem_cons_self, hcovered⟩,
        ⟨exchange.targetPath file, .directoryInTheWay⟩, undone, ?_, hundoneready, hsame⟩
      exact Ends.bind_error (Ends.tryCatch_error (swapIn_refused hfit hfile hready hcovered)
        (Ends.bind_ok (Ends.lift_ok hundone) (Ends.throw_iff.mpr ⟨rfl, rfl⟩)))
    obtain ⟨swapped, hswap, hswapped⟩ := swapIn_ends hfit hfile hready hnext hcovered
    have hnodup : ∀ other ∈ rest, other.path.text ≠ file.path.text := by
      have hnames := hfit.nodup.sublist (hsuffix.sublist.map _)
      rw [List.map_cons, List.nodup_cons] at hnames
      exact fun other hother hsame => hnames.1 (hsame ▸ List.mem_map_of_mem hother)
    have hlater := fun other hother => hswapped.pending hfit (hnodup other hother)
      (hpending other (List.mem_cons_of_mem _ hother))
    rcases ih ((List.suffix_cons file rest).trans hsuffix) (hswapped.ready hready hnext hcovered)
        (fun other hother => (hlater other hother).1)
        (hundoes.cons hfit hfile hswapped hnext hcovered) with
      ⟨hfree, after, hends, hall⟩ | ⟨⟨other, hother, hdirectory⟩, failure, after, hends, hafter⟩
    · refine .inl ⟨List.forall_mem_cons.mpr ⟨hcovered, fun other hother => ?_⟩, after,
        Ends.bind_ok (Ends.tryCatch_ok hswap) hends, hall.ready,
        List.forall_mem_cons.mpr ⟨?_, fun other hother => ?_⟩, fun place hplace => ?_⟩
      · rw [← (hlater other hother).2.2]
        exact hfree other hother
      · rw [hall.others _ fun other hother => ?_, hswapped.entryAt?_eq, if_pos rfl]
        refine ⟨fun hsame => hnodup other hother ?_, (hfit.staged_ne_target other file).symm,
          (hfit.saved_ne_target other file).symm⟩
        simpa [targetPlace] using hsame.symm
      · rw [hall.target_eq other hother, (hlater other hother).2.1]
      · obtain ⟨⟨htarget, hstaged, hsaved⟩, hothers⟩ := List.forall_mem_cons.mp hplace
        rw [hall.others place hothers, hswapped.entryAt?_eq, if_neg htarget,
          if_neg hstaged, if_neg hsaved]
    · refine .inr ⟨⟨other, List.mem_cons_of_mem _ hother, ?_⟩, failure, after,
        Ends.bind_ok (Ends.tryCatch_ok hswap) hends, hafter⟩
      rw [← (hlater other hother).2.2, hdirectory]

end Exchange

end SchemaBindings.Bindings
