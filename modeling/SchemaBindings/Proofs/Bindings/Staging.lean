import SchemaBindings.Proofs.Bindings.Outputs
import SchemaBindings.Proofs.FileTree.Hidden

/-!
# Staging files

Files are first written in a hidden directory. Outside of it only directories are added. Inside, no
links come to be, so every file is written at its own names, where no other one is.
-/

namespace SchemaBindings.Bindings

open SchemaBindings.FileTree

variable {cwd : Place} {disk after : Disk}

/-! ## Making room -/

/-- Whether room may be made for something by directories at certain places only. -/
def RoomMade (cwd : Place) (made : Place → Prop) (path : Path) (tree : FileTree) : Prop :=
  ∀ directory, path.parent? = some directory →
    ∀ around ∈ directory.ancestors, ∀ grown place forDirectory, tree.Grows grown →
      grown.walk cwd .never around = .ok (.free place forDirectory) → made place

/-- Where room may be made in a tree, it may be in a tree that has grown. -/
theorem RoomMade.grows {made : Place → Prop} {path : Path} {tree grown : FileTree}
    (h : RoomMade cwd made path tree) (hgrows : tree.Grows grown) : RoomMade cwd made path grown :=
  fun directory hparent around haround other place forDirectory hother =>
    h directory hparent around haround other place forDirectory (hgrows.trans hother)

/-- Where room may be made at certain places, it may be at more. -/
theorem RoomMade.mono {made more : Place → Prop} {path : Path} {tree : FileTree}
    (h : RoomMade cwd made path tree) (hmore : ∀ place, made place → more place) :
    RoomMade cwd more path tree :=
  fun directory hparent around haround grown place forDirectory hgrows hwalk =>
    hmore place (h directory hparent around haround grown place forDirectory hgrows hwalk)

/-- Making room for something adds directories where walks along the paths around it end. -/
theorem widened_of_makeRoomFor {made : Place → Prop} {path : Path} (hgrounded : disk.tree.Grounded)
    (hcwd : disk.tree.entryAt? cwd = some .directory) (hmade : RoomMade cwd made path disk.tree)
    {outcome : Except WriteFailure Unit}
    (h : Ends (makeRoomFor (Disk.storage cwd) path) disk outcome after) :
    Disk.Widened made disk after := by
  unfold makeRoomFor at h
  split at h
  · next directory hparent =>
    obtain ⟨first, hfirst, -⟩ := Ends.adapt_iff.mp h
    exact Disk.widened_of_makeDirectories hgrounded hcwd (hmade directory hparent) hfirst
  · obtain ⟨-, rfl⟩ := Ends.pure_iff.mp h
    exact .refl made hgrounded

/-- Room may be made anywhere. -/
theorem roomMade_anywhere (cwd : Place) (path : Path) (tree : FileTree) :
    RoomMade cwd (fun _ => True) path tree :=
  fun _ _ _ _ _ _ _ _ _ => trivial

/-- Clearing away after a program comes out as the program does. -/
theorem clearing_cases {α : Type} {directory : Path}
    {program : ExceptT WriteFailure (StateM Disk) α} {outcome : Except WriteFailure α}
    (h : Ends (clearing (Disk.storage cwd) directory program) disk outcome after) :
    ∃ between, Ends program disk outcome between ∧
      after.tree = between.tree.removeAll cwd directory ∧
      after.notes = between.notes := by
  have hrun : Gives
      (program.run >>= fun outcome => (Disk.storage cwd).removeAll directory >>=
        fun _ => pure outcome)
      disk outcome after := h
  obtain ⟨result, between, hprogram, hrest⟩ := Gives.bind_iff.mp hrun
  obtain ⟨done, cleared, hclear, hpure⟩ := Gives.bind_iff.mp hrest
  obtain ⟨rfl, rfl⟩ := Gives.pure_iff.mp hpure
  exact ⟨between, hprogram, Disk.removeAll_cases hclear⟩

/-! ## One file -/

/-- Whether the last piece of a path is a name. -/
def EndsInName (path : Path) : Prop :=
  ∃ name, path.pieces.getLast? = some name ∧ name ≠ "" ∧ name ≠ "." ∧ name ≠ ".."

/-- What staging relies on: the hidden directory is found, and holds no links. -/
structure Staging (cwd : Place) (around : Path) (name : String) (links : Nat) (reached : Place)
    (tree : FileTree) : Prop where
  grounded : tree.Grounded
  hidden : Hidden cwd around name links reached tree
  no_links : ∀ place goal, reached ++ [name] <+: place → tree.entryAt? place ≠ some (.link goal)

variable {around : Path} {name : String} {links : Nat} {reached : Place}

/-- Where nothing but directories is added, staging may go on. -/
theorem Staging.grows {tree grown : FileTree}
    (hstaging : Staging cwd around name links reached tree) (hgrows : tree.Grows grown)
    (hgrounded : grown.Grounded) : Staging cwd around name links reached grown := by
  refine ⟨hgrounded, hstaging.hidden.keeps hgrows.keeps, fun place goal hunder hlink => ?_⟩
  rcases hgrows place with hsame | ⟨-, hdirectory, -⟩
  · exact hstaging.no_links place goal hunder (hsame ▸ hlink)
  · simp [hdirectory] at hlink

/-- In a new hidden directory, staging may begin. -/
theorem staging_of_newHidden {before made : FileTree} (hgrounded : before.Grounded)
    (hnew : NewHidden cwd around name links reached before made) :
    Staging cwd around name links reached made := by
  refine ⟨hnew.grounded, hnew.hidden, fun place goal hunder hlink => ?_⟩
  by_cases hsame : place = reached ++ [name]
  · simp [hsame, hnew.hidden.entry_eq] at hlink
  · simp [hnew.eq_none_of_below hgrounded hunder hsame] at hlink

/-- Below a hidden directory without links, a walk along a path ends at the names of the path. -/
theorem Staging.place_eq {tree : FileTree} (hstaging : Staging cwd around name links reached tree)
    {path : Path} (hplain : path.Plain) {last : LastLink} {arrival : Arrival}
    (h : tree.walk cwd last ((around.join ⟨name⟩).join path) = .ok arrival) :
    tree.walkFrom last links reached (name :: path.pieces) = .ok arrival ∧
      arrival.place = reached ++ [name] ++ path.names :=
  hstaging.hidden.place_eq (Keeps.refl tree).evolves hplain
    (fun place goal hunder _ => hstaging.no_links place goal hunder) h

/-- What staging a file does to a tree. -/
structure StageStep (cwd : Place) (around : Path) (name : String) (links : Nat) (reached : Place)
    (files : List OutputFile) (before after : FileTree) : Prop where
  staging : Staging cwd around name links reached after
  kept : before.Kept (reached ++ [name] <+: ·) after
  others : ∀ place content, (∀ file ∈ files, place ≠ reached ++ [name] ++ file.names) →
    before.entryAt? place = some (.file content) → after.entryAt? place = some (.file content)

/-- Staging a file makes room for it, and writes it at its names in the hidden directory, or
fails. -/
theorem stage_cases {made : Place → Prop} {file : OutputFile} (hplain : file.path.Plain)
    (hstaging : Staging cwd around name links reached disk.tree)
    (hcwd : disk.tree.entryAt? cwd = some .directory)
    (hmade : RoomMade cwd made ((around.join ⟨name⟩).join file.path) disk.tree)
    {outcome : Except WriteFailure Unit}
    (h : Ends (stage (Disk.storage cwd) (around.join ⟨name⟩) file) disk outcome after) :
    after.notes = disk.notes ∧ after.tree.Grounded ∧ ∃ mid, disk.tree.GrowsBy made mid ∧
      ((after.tree = mid ∧ outcome ≠ .ok ()) ∨
        (outcome = .ok () ∧ EndsInName file.path ∧ ¬ mid.Leads (reached ++ [name] ++ file.names) ∧
          ∀ place, after.tree.entryAt? place =
            if place = reached ++ [name] ++ file.names then some (.file file.content.toUTF8)
            else mid.entryAt? place)) := by
  rcases Ends.bind_iff.mp h with ⟨done, between, hroom, hwrite⟩ | ⟨e, rfl, hroom⟩
  swap
  · have hwidened := widened_of_makeRoomFor hstaging.grounded hcwd hmade hroom
    exact ⟨hwidened.notes_eq, hwidened.grounded, after.tree, hwidened.grows, .inl ⟨rfl, nofun⟩⟩
  have hwidened := widened_of_makeRoomFor hstaging.grounded hcwd hmade hroom
  have hgrounded := hwidened.grounded
  obtain ⟨first, hattempt, rfl⟩ := Ends.adapt_iff.mp hwrite
  obtain ⟨hnotes, ⟨rfl, hchange⟩ | ⟨obstacle, rfl, hsame⟩⟩ := Disk.write_cases hattempt
  swap
  · exact ⟨hnotes.trans hwidened.notes_eq, hsame ▸ hgrounded, between.tree, hwidened.grows,
      .inl ⟨hsame, nofun⟩⟩
  obtain ⟨arrival, hwalk, hfile, hput⟩ := write_eq_ok hchange
  have hbetween := hstaging.grows hwidened.grows.grows hgrounded
  have hsound := sound_of_walk hgrounded (hwidened.grows.grows.keeps.evolves.directory hcwd) hwalk
  obtain ⟨hfrom, hend⟩ := hbetween.place_eq hplain hwalk
  have hplace : arrival.place = reached ++ [name] ++ file.names := hend
  have hleads : ¬ between.tree.Leads arrival.place := by
    cases arrival with
    | free place forDirectory => exact not_leads_of_eq_none hsound.1
    | taken place entry =>
      cases entry with
      | file content => exact not_leads_of_file hsound
      | directory => exact hfile.elim
      | link goal => exact hfile.elim
  have hfits := fits_of_sound hgrounded hsound fun hdirectory => hleads (.inl hdirectory)
  rw [hplace] at hput hleads hfits
  refine ⟨hnotes.trans hwidened.notes_eq, ?_, between.tree, hwidened.grows,
    .inr ⟨rfl, ?_, hleads, ?_⟩⟩
  · rw [hput]
    exact hgrounded.put hfits.named hfits.parent fun hdirectory => absurd hdirectory hfits.plain
  · obtain ⟨last, hlast, hlastname⟩ := getLast?_of_forFile hfrom hfile
    obtain ⟨piece, rest, hpieces⟩ := List.exists_cons_of_ne_nil file.path.pieces_ne_nil
    rw [hpieces, List.getLast?_cons_cons, ← hpieces] at hlast
    exact ⟨last, hlast, hlastname⟩
  · rw [hput]
    exact entryAt?_put_eq between.tree hfits.named _

/-- Staging a file changes nothing but its own place in the hidden directory, up to directories that
are made. -/
theorem stageStep_of_stage {file : OutputFile} (hplain : file.path.Plain)
    (hstaging : Staging cwd around name links reached disk.tree)
    (hcwd : disk.tree.entryAt? cwd = some .directory) {outcome : Except WriteFailure Unit}
    (h : Ends (stage (Disk.storage cwd) (around.join ⟨name⟩) file) disk outcome after) :
    StageStep cwd around name links reached [file] disk.tree after.tree ∧ after.notes = disk.notes ∧
      (outcome = .ok () → EndsInName file.path ∧
        after.tree.entryAt? (reached ++ [name] ++ file.names) =
          some (.file file.content.toUTF8)) := by
  obtain ⟨hnotes, hgrounded, mid, hroom, ⟨hsame, hfailed⟩ | ⟨-, hends, hleads, hentry⟩⟩ :=
    stage_cases hplain hstaging hcwd (roomMade_anywhere cwd _ disk.tree) h
  · have hgrows := hroom.grows
    rw [hsame] at hgrounded ⊢
    exact ⟨⟨hstaging.grows hgrows hgrounded, hgrows.kept _,
      fun place content _ hfile => hgrows.extends hfile⟩, hnotes, fun hok => absurd hok hfailed⟩
  · have hkept : mid.Kept (reached ++ [name] <+: ·) after.tree := by
      intro place
      rw [KeptAt, hentry]
      split
      · next hsame => exact .inr (.inr ⟨hsame ▸ List.prefix_append _ _, hsame ▸ hleads⟩)
      · exact .inl rfl
    have hall := (hroom.grows.kept _).trans hkept
    refine ⟨⟨⟨hgrounded, hstaging.hidden.keeps hall.keeps, ?_⟩, hall, ?_⟩, hnotes,
      fun _ => ⟨hends, ?_⟩⟩
    · intro place goal hunder hlink
      rw [hentry] at hlink
      split at hlink
      · simp at hlink
      · exact hstaging.no_links place goal hunder (hroom.grows.eq_some_of_plain hlink (by simp))
    · intro place content hothers hfile
      rw [hentry, if_neg (hothers file List.mem_cons_self)]
      exact hroom.grows.extends hfile
    · rw [hentry, if_pos rfl]

/-! ## All files -/

/-- Staging files adds directories, and writes each file at its names in the hidden directory, up to
the one that fails. -/
theorem stageAll_cases {files : List OutputFile} (hplain : ∀ file ∈ files, file.path.Plain)
    (hnodup : (files.map OutputFile.names).Nodup)
    (hstaging : Staging cwd around name links reached disk.tree)
    (hcwd : disk.tree.entryAt? cwd = some .directory) {outcome : Except WriteFailure Unit}
    (h : Ends (files.forM (stage (Disk.storage cwd) (around.join ⟨name⟩))) disk outcome after) :
    StageStep cwd around name links reached files disk.tree after.tree ∧ after.notes = disk.notes ∧
      (outcome = .ok () → ∀ file ∈ files, EndsInName file.path ∧
        after.tree.entryAt? (reached ++ [name] ++ file.names) =
          some (.file file.content.toUTF8)) := by
  induction files generalizing disk with
  | nil =>
    obtain ⟨-, rfl⟩ := Ends.pure_iff.mp h
    exact ⟨⟨hstaging, fun _ => .inl rfl, fun _ _ _ hfile => hfile⟩, rfl, by simp⟩
  | cons file rest ih =>
    rw [List.map_cons, List.nodup_cons] at hnodup
    have hrun : Ends (stage (Disk.storage cwd) (around.join ⟨name⟩) file >>= fun _ =>
        rest.forM (stage (Disk.storage cwd) (around.join ⟨name⟩))) disk outcome after := h
    rcases Ends.bind_iff.mp hrun with ⟨done, between, hfirst, hrest⟩ | ⟨e, rfl, hfirst⟩
    · obtain ⟨hstep, hnotes, hwritten⟩ :=
        stageStep_of_stage (hplain file List.mem_cons_self) hstaging hcwd hfirst
      obtain ⟨hsteps, hnotesrest, hrestwritten⟩ := ih
        (fun other hother => hplain other (List.mem_cons_of_mem _ hother))
        hnodup.2 hstep.staging (hstep.kept.keeps.evolves.directory hcwd) hrest
      refine ⟨⟨hsteps.staging, hstep.kept.trans hsteps.kept, fun place content hothers hfile => ?_⟩,
        hnotesrest.trans hnotes, fun hok other hother => ?_⟩
      · have hplaces := List.forall_mem_cons.mp hothers
        exact hsteps.others place content hplaces.2
          (hstep.others place content (by simpa using hplaces.1) hfile)
      · rcases List.mem_cons.mp hother with rfl | hother
        · obtain ⟨hends, hentry⟩ := hwritten rfl
          refine ⟨hends, hsteps.others _ _ (fun later hlater hsame => hnodup.1 ?_) hentry⟩
          rw [List.append_cancel_left hsame]
          exact List.mem_map_of_mem hlater
        · exact hrestwritten hok other hother
    · obtain ⟨hstep, hnotes, -⟩ :=
        stageStep_of_stage (hplain file List.mem_cons_self) hstaging hcwd hfirst
      refine ⟨⟨hstep.staging, hstep.kept, fun place content hothers hfile => ?_⟩, hnotes,
        nofun⟩
      exact hstep.others place content (by simpa using (List.forall_mem_cons.mp hothers).1) hfile

/-- Whether all files have been staged. -/
structure Staged (cwd : Place) (around : Path) (name : String) (links : Nat) (reached : Place)
    (files : List OutputFile) (tree : FileTree) : Prop where
  staging : Staging cwd around name links reached tree
  plain : ∀ file ∈ files, file.path.Plain
  endsInName : ∀ file ∈ files, EndsInName file.path
  nodup : (files.map OutputFile.names).Nodup
  entry_eq : ∀ file ∈ files, tree.entryAt? (reached ++ [name] ++ file.names) =
    some (.file file.content.toUTF8)

/-- Staging that succeeds stages all files. -/
theorem staged_of_stageAll {files : List OutputFile} (hplain : ∀ file ∈ files, file.path.Plain)
    (hnodup : (files.map OutputFile.names).Nodup)
    (hstaging : Staging cwd around name links reached disk.tree)
    (hcwd : disk.tree.entryAt? cwd = some .directory)
    (h : Ends (files.forM (stage (Disk.storage cwd) (around.join ⟨name⟩))) disk (.ok ()) after) :
    Staged cwd around name links reached files after.tree := by
  obtain ⟨hstep, -, hwritten⟩ := stageAll_cases hplain hnodup hstaging hcwd h
  exact ⟨hstep.staging, hplain, fun file hfile => (hwritten rfl file hfile).1, hnodup,
    fun file hfile => (hwritten rfl file hfile).2⟩

/-! ## Installing -/

/-- Installing merges files into what is there, or moves the hidden directory as a whole, or fails
to. -/
theorem install_cases {out staging : Path} {files : List OutputFile}
    {outcome : Except WriteFailure Unit}
    (h : Ends (install (Disk.storage cwd) staging out files) disk outcome after) :
    (∃ between, between.tree = disk.tree ∧ between.notes = disk.notes ∧
        (disk.tree.find? cwd .through out).isSome ∧
        Ends (mergeInto (Disk.storage cwd) staging out files) between outcome after) ∨
      (outcome = .ok () ∧ after.notes = disk.notes ∧
        disk.tree.rename cwd staging out = .ok after.tree) ∨
      ∃ failure, outcome = .error failure ∧ after.tree = disk.tree ∧ after.notes = disk.notes := by
  obtain ⟨there, asked, hasked, hrest⟩ := Ends.lift_bind_iff.mp h
  obtain ⟨hsame, hthere⟩ := Disk.isThere_cases hasked
  cases there with
  | true => exact .inl ⟨asked, hsame.tree_eq, hsame.notes_eq, hthere rfl, hrest⟩
  | false =>
    obtain ⟨result, renamed, hrename, hrest⟩ := Ends.lift_bind_iff.mp hrest
    obtain ⟨hnotes, ⟨rfl, hchange⟩ | ⟨obstacle, rfl, htree⟩⟩ := Disk.rename_cases hrename
    · obtain ⟨rfl, rfl⟩ := Ends.pure_iff.mp hrest
      exact .inr (.inl ⟨rfl, hnotes.trans hsame.notes_eq, hsame.tree_eq ▸ hchange⟩)
    · obtain ⟨directory, between, hdirectory, hrest⟩ := Ends.lift_bind_iff.mp hrest
      obtain ⟨hagain, hdirectory⟩ := Disk.isDirectory_cases hdirectory
      have htrees := hagain.tree_eq.trans (htree.trans hsame.tree_eq)
      have hnotes := hagain.notes_eq.trans (hnotes.trans hsame.notes_eq)
      cases directory with
      | true =>
        refine .inl ⟨between, htrees, hnotes, ?_, hrest⟩
        obtain ⟨found, hfound, -⟩ := Option.map_eq_some_iff.mp (hdirectory rfl)
        rw [htree, hsame.tree_eq] at hfound
        exact Option.isSome_of_eq_some hfound
      | false =>
        obtain ⟨rfl, rfl⟩ := Ends.throw_iff.mp hrest
        exact .inr (.inr ⟨_, rfl, htrees, hnotes⟩)

/-! ## The whole run -/

/-- Whether a tree is another one after the directories around an output directory were made, and a
hidden directory beside it. -/
structure Prepared (cwd : Place) (made : Place → Prop) (around : Path) (name : String) (links : Nat)
    (reached : Place) (before roomy after : FileTree) : Prop where
  room : before.GrowsBy made roomy
  grounded : roomy.Grounded
  name_eq : name = roomy.unusedName
  hidden : NewHidden cwd around name links reached roomy after

/-- Writing makes room at most and fails, or stages and installs in a hidden directory and clears
that away. -/
theorem writeOut_cases {made : Place → Prop} {out : Path} {files : List EmittedFile}
    (hgrounded : disk.tree.Grounded) (hcwd : disk.tree.entryAt? cwd = some .directory)
    (hmade : ∀ around ∈ (surroundings out).ancestors,
      ∀ grown place forDirectory, disk.tree.Grows grown →
        grown.walk cwd .never around = .ok (.free place forDirectory) → made place)
    {outcome : Except WriteFailure Nat}
    (h : Ends (writeOut (Disk.storage cwd) out files) disk outcome after) :
    (∃ failure, outcome = .error failure ∧ Disk.Widened made disk after) ∨
      ∃ (name : String) (links : Nat) (reached : Place) (roomy : FileTree)
        (prepared installed : Disk) (result : Except WriteFailure Unit),
        Prepared cwd made (surroundings out) name links reached disk.tree roomy prepared.tree ∧
        prepared.notes = disk.notes ∧
        Ends ((outputFiles files).forM (stage (Disk.storage cwd)
          ((surroundings out).join ⟨name⟩)) >>= fun _ =>
          install (Disk.storage cwd) ((surroundings out).join ⟨name⟩) out (outputFiles files))
            prepared result
          installed ∧
        after.tree = installed.tree.removeAll cwd ((surroundings out).join ⟨name⟩) ∧
        after.notes = installed.notes ∧
        outcome = result.map fun _ => (outputFiles files).length := by
  rcases Ends.bind_iff.mp h with ⟨done, roomy, hroom, hrest⟩ | ⟨failure, rfl, hroom⟩
  swap
  · obtain ⟨first, hfirst, -⟩ := Ends.adapt_iff.mp hroom
    exact .inl ⟨failure, rfl, Disk.widened_of_makeDirectories hgrounded hcwd hmade hfirst⟩
  obtain ⟨first, hfirst, -⟩ := Ends.adapt_iff.mp hroom
  have hwidened := Disk.widened_of_makeDirectories hgrounded hcwd hmade hfirst
  have hcwdroomy := hwidened.grows.grows.extends hcwd
  rcases Ends.bind_iff.mp hrest with ⟨staging, prepared, hhidden, hrest⟩ | ⟨failure, rfl, hhidden⟩
  swap
  · obtain ⟨second, hsecond, herror⟩ := Ends.adapt_iff.mp hhidden
    obtain ⟨hnotes, ⟨obstacle, rfl, hsame⟩ | ⟨links, reached, rfl, -⟩⟩ :=
      Disk.makeHidden_cases hwidened.grounded hcwdroomy hsecond
    · exact .inl ⟨failure, rfl, hsame ▸ hwidened.grows, hsame ▸ hwidened.grounded,
        hnotes.trans hwidened.notes_eq⟩
    · exact nomatch herror
  obtain ⟨second, hsecond, hok⟩ := Ends.adapt_iff.mp hhidden
  obtain ⟨hnotes, ⟨obstacle, rfl, -⟩ | ⟨links, reached, rfl, hnew⟩⟩ :=
    Disk.makeHidden_cases hwidened.grounded hcwdroomy hsecond
  · exact nomatch hok
  obtain rfl := Except.ok.inj hok
  have hprepared : Prepared cwd made (surroundings out) roomy.tree.unusedName links
      reached disk.tree roomy.tree prepared.tree := ⟨hwidened.grows, hwidened.grounded, rfl, hnew⟩
  have hlog := hnotes.trans hwidened.notes_eq
  rcases Ends.bind_iff.mp hrest with ⟨done, cleared, hclearing, hreturn⟩ | ⟨failure, rfl, hclearing⟩
  · obtain ⟨rfl, rfl⟩ := Ends.pure_iff.mp hreturn
    obtain ⟨installed, hinstall, hremoved, hnoted⟩ := clearing_cases hclearing
    exact .inr ⟨roomy.tree.unusedName, links, reached, roomy.tree, prepared, installed,
      .ok (), hprepared, hlog, hinstall, hremoved, hnoted, rfl⟩
  · obtain ⟨installed, hinstall, hremoved, hnoted⟩ := clearing_cases hclearing
    exact .inr ⟨roomy.tree.unusedName, links, reached, roomy.tree, prepared, installed,
      .error failure, hprepared, hlog, hinstall, hremoved, hnoted, rfl⟩

end SchemaBindings.Bindings
