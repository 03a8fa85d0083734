import SchemaBindings.Proofs.Bindings.Rollback
import SchemaBindings.Proofs.Bindings.Rooms
import SchemaBindings.Proofs.Bindings.Writing

/-!
# Directories that a failed write leaves

When writing into a directory fails, what was swapped in is taken back, but the directories that
were made for it are not. So they are left for every file that had no directory and was swapped in
before the one that failed. Where all files that were tried had a directory, everything is as it
was.
-/

namespace SchemaBindings.Bindings

open SchemaBindings.FileTree

variable {cwd : Place} {around out : Path} {name : String} {links : Nat} {reached : Place}
  {files : List OutputFile} {before : FileTree} {disk after : Disk}

/-! ## Staging -/

/-- Staging a file changes nothing outside of the hidden directory. -/
theorem outside_of_stage {file : OutputFile} (hplain : file.path.Plain)
    (hstaging : Staging cwd around name links reached disk.tree)
    (hcwd : disk.tree.entryAt? cwd = some .directory) {outcome : Except WriteFailure Unit}
    (h : Ends (stage (Disk.storage cwd) (around.join ⟨name⟩) file) disk outcome after)
    {place : Place} (hplace : ¬ reached ++ [name] <+: place) :
    after.tree.entryAt? place = disk.tree.entryAt? place := by
  have hmade := roomMade_of_hidden hstaging.hidden (.refl _) hplain fun place goal hunder _ =>
    hstaging.no_links place goal hunder
  obtain ⟨-, -, mid, hroom, hend⟩ := stage_cases hplain hstaging hcwd hmade h
  have hmid : mid.entryAt? place = disk.tree.entryAt? place := by
    rcases hroom place with hsame | ⟨-, -, hunder⟩
    · exact hsame
    · exact absurd hunder hplace
  rcases hend with ⟨hsame, -⟩ | ⟨-, -, -, hentry⟩
  · rw [hsame, hmid]
  · rw [hentry, if_neg fun hsame : place = _ => hplace (hsame ▸ List.prefix_append _ _), hmid]

/-- Staging files changes nothing outside of the hidden directory. -/
theorem outside_of_stageAll (hplain : ∀ file ∈ files, file.path.Plain)
    (hstaging : Staging cwd around name links reached disk.tree)
    (hcwd : disk.tree.entryAt? cwd = some .directory) {outcome : Except WriteFailure Unit}
    (h : Ends (files.forM (stage (Disk.storage cwd) (around.join ⟨name⟩))) disk outcome after)
    {place : Place} (hplace : ¬ reached ++ [name] <+: place) :
    after.tree.entryAt? place = disk.tree.entryAt? place := by
  induction files generalizing disk with
  | nil =>
    obtain ⟨-, rfl⟩ := Ends.pure_iff.mp h
    rfl
  | cons file rest ih =>
    rw [List.forall_mem_cons] at hplain
    have hrun : Ends (stage (Disk.storage cwd) (around.join ⟨name⟩) file >>= fun _ =>
        rest.forM (stage (Disk.storage cwd) (around.join ⟨name⟩))) disk outcome after := h
    rcases Ends.bind_iff.mp hrun with ⟨done, between, hfirst, hrest⟩ | ⟨e, -, hfirst⟩
    · obtain ⟨hstep, -, -⟩ := stageStep_of_stage hplain.1 hstaging hcwd hfirst
      rw [ih hplain.2 hstep.staging (hstep.kept.keeps.evolves.directory hcwd) hrest,
        outside_of_stage hplain.1 hstaging hcwd hfirst hplace]
    · exact outside_of_stage hplain.1 hstaging hcwd hfirst hplace

/-- Whether a tree is another one outside of a hidden directory, and nothing was where that is. -/
structure SameOutside (hidden : Place) (before after : FileTree) : Prop where
  entryAt?_eq : ∀ place, ¬ hidden <+: place → after.entryAt? place = before.entryAt? place
  free : ∀ place, hidden <+: place → before.entryAt? place = none

/-- Outside of a hidden directory, directories and links stay. -/
theorem SameOutside.keeps {hidden : Place} {after : FileTree}
    (h : SameOutside hidden before after) :
    before.Keeps after :=
  fun place hleads =>
    h.entryAt?_eq place fun hunder => not_leads_of_eq_none (h.free place hunder) hleads

/-- Where there were no links, staging brings none. -/
theorem SameOutside.linkFree {tree : FileTree} (h : SameOutside (reached ++ [name]) before tree)
    (hstaging : Staging cwd around name links reached tree) (hbefore : before.LinkFree) :
    tree.LinkFree := by
  intro place goal hlink
  by_cases hunder : reached ++ [name] <+: place
  · exact hstaging.no_links place goal hunder hlink
  · exact hbefore place goal ((h.entryAt?_eq place hunder).symm.trans hlink)

/-! ## What is left -/

/-- Whether a directory that is left at a place may have been made for a file: none was there to
hold it, and where there are no links, the place is on the way to the file. -/
def LeftFor (cwd : Place) (out : Path) (before : FileTree) (file : OutputFile) (place : Place) :
    Prop :=
  ¬ HasRoom cwd before (out.join file.path) ∧
    (before.LinkFree → out.Forward → place <+: placeOf cwd out ++ file.names)

/-- Whether a place is around that of a file, where there are no links. -/
def PlaceAround (cwd : Place) (out : Path) (before : FileTree) (file : OutputFile) (place : Place) :
    Prop :=
  before.LinkFree ∧ out.Forward ∧ place <+: placeOf cwd out ++ file.names ∧
    place ≠ placeOf cwd out ++ file.names

/-- What a failed write leaves of the files that it tried: everything is as it was, but for
directories for files that had none. Where there are no links, those around the files in front of
the last one are there. -/
structure Leftovers (cwd : Place) (out : Path) (tried : List OutputFile) (before after : FileTree) :
    Prop where
  kept : ∀ place, after.entryAt? place = before.entryAt? place ∨
    (before.entryAt? place = none ∧ after.entryAt? place = some .directory ∧
      ∃ file ∈ tried, LeftFor cwd out before file place)
  left : (∀ number, ∀ file ∈ tried, hiddenName number ∉ file.names) →
    ∀ file ∈ tried.dropLast, ∀ place, PlaceAround cwd out before file place →
      after.entryAt? place = some .directory

/-- Where nothing has changed, nothing is left. -/
theorem leftovers_nil {after : FileTree}
    (h : ∀ place, after.entryAt? place = before.entryAt? place) :
    Leftovers cwd out [] before after :=
  ⟨fun place => .inl (h place), fun _ _ hfile => absurd hfile List.not_mem_nil⟩

/-- Where all files that were tried had a directory, everything is as it was. -/
theorem Leftovers.entryAt?_eq {tried : List OutputFile} {after : FileTree}
    (h : Leftovers cwd out tried before after)
    (hroom : ∀ file ∈ tried, HasRoom cwd before (out.join file.path)) (place : Place) :
    after.entryAt? place = before.entryAt? place := by
  rcases h.kept place with hsame | ⟨-, -, file, hfile, hnone, -⟩
  · exact hsame
  · exact absurd (hroom file hfile) hnone

/-- Where the output directory is and a hidden one was not, a place around a file is not in the
hidden one, unless the file goes by its name. -/
theorem PlaceAround.not_below {tree : FileTree} {file : OutputFile} {place : Place}
    (h : PlaceAround cwd out before file place)
    (hdirectory : tree.entryAt? (placeOf cwd out) = some .directory)
    (hfree : ∀ other, reached ++ [name] <+: other → tree.entryAt? other = none)
    (hname : name ∉ file.names) :
    ¬ reached ++ [name] <+: place := by
  intro hunder
  have hnot : ¬ reached ++ [name] <+: placeOf cwd out :=
    fun hbelow => by simp [hfree _ hbelow] at hdirectory
  obtain ⟨steps, hsteps⟩ :=
    (List.prefix_or_prefix_of_prefix (hunder.trans h.2.2.1) (List.prefix_append _ _)).resolve_left
    hnot
  rcases List.eq_nil_or_concat steps with rfl | ⟨front, last, rfl⟩
  · exact hnot (by rw [← hsteps, List.append_nil])
  · rw [List.concat_eq_append, ← List.append_assoc] at hsteps
    obtain rfl : last = name := (List.cons.inj (List.append_inj' hsteps rfl).2).1
    have hbelow := hunder.trans h.2.2.1
    rw [← hsteps, List.append_assoc, List.prefix_append_right_inj] at hbelow
    exact hname (hbelow.subset (by simp))

/-! ## Merging -/

/-- Swaps make directories where their files had none, and in the directory for what they
replace. -/
theorem Merging.Ready.makes {merging : Merging} {base : FileTree}
    (hready : merging.Ready files base) (hkeeps : before.Keeps base)
    (hlinks : before.LinkFree → base.LinkFree) :
    merging.Makes files base
      (fun file place => merging.backupPlace <+: place ∨
        LeftFor merging.cwd merging.out before file place)
      (PlaceAround merging.cwd merging.out before) := by
  refine ⟨fun hpending hfree directory hparent outer houter grown place forDirectory hgrows hwalk =>
    .inr ⟨?_, ?_⟩, fun hpending hfree => ?_, fun hpending hfree hswapped place hplace => ?_⟩
  · intro hroom
    exact (hroom.keeps hkeeps).roomMade hpending.replaces directory hparent outer houter grown place
      forDirectory hgrows hwalk
  · intro hbefore hforward
    obtain ⟨htarget, hplace⟩ := hready.target_place hforward hpending.mem
    have hmade := roomMade_of_linkFree merging.cwd (hfree (hlinks hbefore)) htarget
    exact hplace ▸ hmade directory hparent outer houter grown place forDirectory hgrows hwalk
  · have hmade := roomMade_of_hidden hready.backup hpending.replaces (hready.plain _ hpending.mem)
      (hpending.no_links _ List.mem_cons_self)
    exact hmade.mono fun place hunder => .inl hunder
  · obtain ⟨hbefore, hforward, hbelow, hne⟩ := hplace
    obtain ⟨mid, -, hplaced⟩ :=
      hswapped.placed_target hready hforward (hfree (hlinks hbefore)) hpending
    obtain ⟨content, -, hfile⟩ := hplaced.target_eq
    exact hplaced.grounded.directory_of_below hbelow (Ne.symm hne) (hfile ▸ Option.some_ne_none _)

variable {failure : WriteFailure} {number : Nat}

/-- Clearing away a hidden directory in which nothing has failed but what came before leaves
nothing. -/
theorem leftovers_of_sameOutside {tree : FileTree}
    (hsame : SameOutside (reached ++ [name]) before tree)
    (hhidden : Hidden cwd around name links reached tree) :
    Leftovers cwd out [] before (tree.removeAll cwd (around.join ⟨name⟩)) := by
  refine leftovers_nil fun place => ?_
  rw [hhidden.entryAt?_removeAll]
  split
  · next hunder => exact (hsame.free place hunder).symm
  · next houtside => exact hsame.entryAt?_eq place houtside

/-- What a merge that fails leaves, once the staging directory is cleared away. -/
theorem leftovers_of_mergeInto
    (hstaged : Staged cwd (surroundings out) (hiddenName number) links reached files disk.tree)
    (hcwd : disk.tree.entryAt? cwd = some .directory)
    (hsame : SameOutside (reached ++ [hiddenName number]) before disk.tree)
    (hout : before.LinkFree → out.Forward → before.entryAt? (placeOf cwd out) = some .directory)
    (h : Ends (mergeInto (Disk.storage cwd) ((surroundings out).join ⟨hiddenName number⟩) out files)
      disk (.error failure) after)
    (hnotes : after.notes = disk.notes) :
    ∃ tried, tried <+: files ∧
      Leftovers cwd out tried before
        (after.tree.removeAll cwd ((surroundings out).join ⟨hiddenName number⟩)) := by
  obtain ⟨hsettled, hseen⟩ := Prod.mk.inj hnotes
  have hkeptafter := (regained_of_mergeInto hstaged hcwd h hsettled).kept hseen
  have hgrounded := hstaged.staging.grounded
  rcases mergeInto_error_cases hstaged hcwd h with
    ⟨hunchanged, -⟩ | ⟨between, swapped, hnew, hbetween, hready, hswaps, hremoved, hnoted⟩
  · exact ⟨[], List.nil_prefix, hunchanged ▸ leftovers_of_sameOutside hsame hstaged.staging.hidden⟩
  have hmakes := hready.makes
    (fun place hleads => (hnew.grows.keeps place (by rwa [Leads, hsame.keeps place hleads])).trans
    (hsame.keeps place hleads)) fun hbefore =>
      (hsame.linkFree hstaged.staging hbefore).grows hnew.grows
  obtain ⟨hsettled, hseen⟩ := Prod.mk.inj (hnoted.symm.trans (hnotes.trans hbetween.symm))
  obtain ⟨seen, happend, hspared⟩ := hready.spared_of_swapAll hmakes hswaps hsettled
  obtain rfl := List.append_left_eq_self.mp (happend.symm.trans hseen)
  obtain ⟨hspared, tried, htried, hmade⟩ := hspared Merging.noLinks_nil
  have hkept := hspared.kept fun _ => List.not_mem_nil
  have hafter : ∀ {place : Place}, ¬ reached ++ [hiddenName number] <+: place →
      ¬ reached ++ [disk.tree.unusedName] <+: place →
      (after.tree.removeAll cwd ((surroundings out).join ⟨hiddenName number⟩)).entryAt? place =
        swapped.tree.entryAt? place := by
    intro place hstaging hbackup
    rw [(hstaged.staging.hidden.keeps hkeptafter.keeps).entryAt?_removeAll,
      if_neg hstaging, hremoved, (hnew.hidden.keeps hkept.keeps).entryAt?_removeAll, if_neg hbackup]
  refine ⟨tried, htried, fun place => ?_, fun hfresh file hfile place hplace => ?_⟩
  · by_cases hstaging : reached ++ [hiddenName number] <+: place
    · rw [(hstaged.staging.hidden.keeps hkeptafter.keeps).entryAt?_removeAll, if_pos hstaging,
        hsame.free place hstaging]
      exact .inl rfl
    rw [← hsame.entryAt?_eq place hstaging]
    by_cases hbackup : reached ++ [disk.tree.unusedName] <+: place
    · rw [(hstaged.staging.hidden.keeps hkeptafter.keeps).entryAt?_removeAll,
        if_neg hstaging, hremoved, (hnew.hidden.keeps hkept.keeps).entryAt?_removeAll,
        if_pos hbackup, hnew.free_below hgrounded hbackup]
      exact .inl rfl
    have hbetween : between.tree.entryAt? place = disk.tree.entryAt? place := by
      rw [hnew.entryAt?_eq, if_neg fun heq : place = _ => hbackup (heq ▸ List.prefix_rfl)]
    rw [hafter hstaging hbackup, ← hbetween]
    rcases hkept place with heq | ⟨hnone, hdirectory⟩ | ⟨hloose, -⟩
    · exact .inl heq
    · rcases hmade.spreads.made place hdirectory with hbefore | ⟨file, hfile, hunder | hleft⟩
      · simp [hnone] at hbefore
      · exact absurd hunder hbackup
      · exact .inr ⟨hnone, hdirectory, file, hfile, hleft⟩
    · exact absurd hloose.below (not_or.mpr ⟨hstaging, hbackup⟩)
  · have hdirectory := hout hplace.1 hplace.2.1
    have hmem := List.mem_of_mem_dropLast hfile
    have hstaging := hplace.not_below hdirectory hsame.free (hfresh _ file hmem)
    have hbackup := hplace.not_below (hsame.keeps.evolves.directory hdirectory)
      (fun other hunder => hnew.free_below hgrounded hunder) (hfresh _ file hmem)
    rw [hafter hstaging hbackup]
    exact hmade.left file hfile place hplace

/-- What installing that fails leaves, once the staging directory is cleared away. -/
theorem leftovers_of_install
    (hstaged : Staged cwd (surroundings out) (hiddenName number) links reached files disk.tree)
    (hcwd : disk.tree.entryAt? cwd = some .directory)
    (hsame : SameOutside (reached ++ [hiddenName number]) before disk.tree)
    (hout : before.LinkFree → out.Forward → before.entryAt? (placeOf cwd out) = some .directory)
    (h : Ends (install (Disk.storage cwd) ((surroundings out).join ⟨hiddenName number⟩) out files)
      disk (.error failure) after)
    (hnotes : after.notes = disk.notes) :
    ∃ tried, tried <+: files ∧
      Leftovers cwd out tried before
        (after.tree.removeAll cwd ((surroundings out).join ⟨hiddenName number⟩)) := by
  rcases install_cases h with ⟨between, htree, hbetween, -, hmerge⟩ | ⟨hok, -⟩ |
    ⟨other, -, hunchanged, -⟩
  · rw [← htree] at hstaged hcwd hsame
    exact leftovers_of_mergeInto hstaged hcwd hsame hout hmerge (hnotes.trans hbetween.symm)
  · exact nomatch hok
  · exact ⟨[], List.nil_prefix, hunchanged ▸ leftovers_of_sameOutside hsame hstaged.staging.hidden⟩

/-! ## The whole run -/

/-- If writing into a directory fails, nothing that was to be undone was refused and nothing was
overlooked, as nothing is where no failure was to come, then everything is as it was, but for
directories that were made for the files up to the one that failed. Those for the files in front of
it are left. So where each file had a directory that was to hold it, nothing is left. -/
theorem leftovers_of_writeOut_error (cwd : Place) (out : Path) (files : List EmittedFile)
    (disk after : Disk) (hgrounded : disk.tree.Grounded)
    (hcwd : disk.tree.entryAt? cwd = some .directory)
    (hplain : ∀ file ∈ files, (Path.mk file.path).Plain)
    (hout : ∃ place, disk.tree.find? cwd .through out = some (place, .directory))
    (failure : WriteFailure)
    (h : (writeOut (Disk.storage cwd) out files).run disk = (.error failure, after))
    (hsettled : after.unsettled = disk.unsettled)
    (hseen : disk.failures = [] ∨ after.overlooked = disk.overlooked) :
    (∃ tried, tried <+: outputFiles files ∧ Leftovers cwd out tried disk.tree after.tree) ∧
      ((∀ file ∈ outputFiles files, HasRoom cwd disk.tree (out.join file.path)) →
        ∀ place, after.tree.entryAt? place = disk.tree.entryAt? place) := by
  suffices hleft : ∃ tried, tried <+: outputFiles files ∧
      Leftovers cwd out tried disk.tree after.tree by
    obtain ⟨tried, htried, hleftovers⟩ := hleft
    exact ⟨⟨tried, htried, hleftovers⟩, fun hroom =>
      hleftovers.entryAt?_eq fun file hfile => hroom file (htried.subset hfile)⟩
  rcases writeOut_cases hgrounded hcwd (not_free_around hout) h with ⟨-, -, hwidened⟩ |
    ⟨name, links, reached, roomy, prepared, installed, result, hprepared, hlog, hrun,
      hremoved, hnoted, hresult⟩
  · exact ⟨[], List.nil_prefix,
      leftovers_nil fun place => (hwidened.grows place).resolve_right fun hmade => hmade.2.2⟩
  have hroomy : ∀ place, roomy.entryAt? place = disk.tree.entryAt? place := fun place =>
    (hprepared.room place).resolve_right fun hmade => hmade.2.2
  have hnew := hprepared.hidden
  obtain ⟨number, rfl⟩ : ∃ number, name = hiddenName number := ⟨_, hprepared.name_eq⟩
  have hstaging := staging_of_newHidden hprepared.grounded hnew
  have hcwdprepared := hnew.grows.extends (hprepared.room.grows.extends hcwd)
  have hplainoutputs : ∀ output ∈ outputFiles files, output.path.Plain :=
    fun output => plain_of_mem_outputFiles hplain
  have hnodup := outputFiles_names_nodup hplain
  have hfree : ∀ place, reached ++ [hiddenName number] <+: place →
      disk.tree.entryAt? place = none := fun place hunder =>
    (hroomy place).symm.trans (hnew.free_below hprepared.grounded hunder)
  have hprepared : ∀ place, ¬ reached ++ [hiddenName number] <+: place →
      prepared.tree.entryAt? place = disk.tree.entryAt? place := by
    intro place houtside
    rw [hnew.entryAt?_eq, if_neg fun heq : place = _ => houtside (heq ▸ List.prefix_rfl), hroomy]
  rw [hremoved]
  rcases Ends.bind_iff.mp hrun with ⟨done, between, hstage, hinstall⟩ | ⟨other, -, hstage⟩
  · obtain ⟨hstep, hbetween, -⟩ := stageAll_cases hplainoutputs hnodup hstaging hcwdprepared hstage
    have hstaged := staged_of_stageAll hplainoutputs hnodup hstaging hcwdprepared hstage
    have hoverlooked : after.overlooked = disk.overlooked :=
      hseen.elim (fun hnone => overlooked_of_writeOut hnone h) id
    have hnotes : after.notes = disk.notes := Prod.ext hsettled hoverlooked
    have hlogs : installed.notes = between.notes := by rw [← hnoted, hnotes, hbetween, hlog]
    have hsame : SameOutside (reached ++ [hiddenName number]) disk.tree between.tree :=
      ⟨fun place houtside =>
        (outside_of_stageAll hplainoutputs hstaging hcwdprepared hstage houtside).trans
          (hprepared place houtside), hfree⟩
    have hdirectory : disk.tree.LinkFree → out.Forward →
        disk.tree.entryAt? (placeOf cwd out) = some .directory := by
      intro hlinks hforward
      obtain ⟨place, hfound⟩ := hout
      have hwalk := find?_eq_some.mp hfound
      have hplace : place = placeOf cwd out := hlinks.place_eq hforward hwalk
      exact hplace ▸ sound_of_walk hgrounded hcwd hwalk
    cases result with
    | ok done => exact nomatch hresult
    | error other =>
      exact leftovers_of_install hstaged (hstep.kept.keeps.evolves.directory hcwdprepared) hsame
        hdirectory hinstall hlogs
  · have hstep := (stageAll_cases hplainoutputs hnodup hstaging hcwdprepared hstage).1
    have hsame : SameOutside (reached ++ [hiddenName number]) disk.tree installed.tree :=
      ⟨fun place houtside =>
        (outside_of_stageAll hplainoutputs hstaging hcwdprepared hstage houtside).trans
          (hprepared place houtside), hfree⟩
    exact ⟨[], List.nil_prefix, leftovers_of_sameOutside hsame hstep.staging.hidden⟩

/-- A tree in which a file below a new directory can be written, and one in the place of a directory
cannot. -/
def crowdedTree : FileTree :=
  ⟨[(["gen"], .directory), (["gen", "b"], .directory)]⟩

/-- The directory for the first file is made and left. -/
theorem writeOut_crowdedTree :
    let run :=
      (writeOut (Disk.storage []) ⟨"gen"⟩ [⟨"a/x", "new"⟩, ⟨"b", "new"⟩]).run crowdedTree.disk
    run.1 = .error ⟨⟨"gen/b"⟩, .directoryInTheWay⟩ ∧ run.2.notes = ([], []) ∧
      run.2.tree.entryAt? ["gen", "a"] = some .directory := by
  have hrun :
      let run :=
        (writeOut (Disk.storage []) ⟨"gen"⟩ [⟨"a/x", "new"⟩, ⟨"b", "new"⟩]).run crowdedTree.disk
      run.1 = .error ⟨⟨"gen/b"⟩, .directoryInTheWay⟩ ∧ run.2.notes = ([], []) ∧
        (run.2.tree.entryAt? ["gen", "a"]).map Entry.kind = some .directory := by
    simp only [writeOut, outputFiles_nested, Disk.storage, Disk.look, Disk.inspect, FileTree.lookAt,
      FileTree.makeDirectory, FileTree.write, FileTree.rename, FileTree.removeFile,
      FileTree.removeAll, FileTree.find?, FileTree.walk, FileTree.read, walkFrom_eq_walkSteps]
    decide +kernel
  obtain ⟨hfailed, hnotes, hkind⟩ := hrun
  obtain ⟨entry, hentry, hdirectory⟩ := Option.map_eq_some_iff.mp hkind
  cases entry with
  | directory => exact ⟨hfailed, hnotes, hentry⟩
  | file content => contradiction
  | link goal => contradiction

/-- The output directory is there. -/
theorem find?_crowdedTree : crowdedTree.find? [] .through ⟨"gen"⟩ = some (["gen"], .directory) := by
  rw [find?_eq_some, walk_eq_ok_iff, walkFrom_eq_walkSteps]
  exact ⟨by decide +kernel, rfl⟩

/-- A write into a directory fails and leaves a directory that was not there. -/
theorem exists_directory_left :
    let run :=
      (writeOut (Disk.storage []) ⟨"gen"⟩ [⟨"a/x", "new"⟩, ⟨"b", "new"⟩]).run crowdedTree.disk
    crowdedTree.find? [] .through ⟨"gen"⟩ = some (["gen"], .directory) ∧
      run.1 = .error ⟨⟨"gen/b"⟩, .directoryInTheWay⟩ ∧ run.2.unsettled = [] ∧
      crowdedTree.entryAt? ["gen", "a"] = none ∧
      run.2.tree.entryAt? ["gen", "a"] = some .directory := by
  intro run
  obtain ⟨hfailed, hnotes, hleft⟩ := writeOut_crowdedTree
  exact ⟨find?_crowdedTree, hfailed, (Prod.mk.inj hnotes).1, rfl, hleft⟩

/-- The theorem applies to it, for some of the two files. -/
theorem leftovers_crowdedTree :
    let run :=
      (writeOut (Disk.storage []) ⟨"gen"⟩ [⟨"a/x", "new"⟩, ⟨"b", "new"⟩]).run crowdedTree.disk
    run.1 = .error ⟨⟨"gen/b"⟩, .directoryInTheWay⟩ ∧
      ∃ tried, tried <+: outputFiles [⟨"a/x", "new"⟩, ⟨"b", "new"⟩] ∧
        Leftovers [] ⟨"gen"⟩ tried crowdedTree run.2.tree := by
  intro run
  obtain ⟨hfailed, hnotes, -⟩ := writeOut_crowdedTree
  have hgrounded : crowdedTree.Grounded := by
    refine grounded_of_entries ?_
    simp [crowdedTree, entryAt?, List.lookup]
  have hplain : ∀ file ∈ [EmittedFile.mk "a/x" "new", EmittedFile.mk "b" "new"],
      (Path.mk file.path).Plain := by
    decide +kernel
  exact ⟨hfailed,
    (leftovers_of_writeOut_error [] ⟨"gen"⟩ _ crowdedTree.disk run.2 hgrounded rfl hplain
      ⟨_, find?_crowdedTree⟩ _ (Prod.ext hfailed rfl) (Prod.mk.inj hnotes).1 (.inl rfl)).1⟩

end SchemaBindings.Bindings
