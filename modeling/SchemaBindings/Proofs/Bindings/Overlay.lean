import SchemaBindings.Proofs.Bindings.Merging

/-!
# Files laid over a tree

Where there are no links, staging lays files over the tree at the hidden directory, and merging lays
them over it at the output directory. Laying files over a tree one by one lays all of them over it,
as long as no names start with those of another file.
-/

namespace SchemaBindings.Bindings

open SchemaBindings.FileTree

/-! ## Overlays -/

/-- Whether what is at a place is what was there, once files are laid over a tree at a directory: a
file at its names, a directory around it, where nothing else was, and everything else as it was. -/
structure OverlaidAt (directory : Place) (files : List OutputFile) (before after : FileTree)
    (place : Place) : Prop where
  file_eq : ∀ file ∈ files, place = directory ++ file.names →
    after.entryAt? place = some (.file file.content.toUTF8)
  directory_eq : (∀ file ∈ files, place ≠ directory ++ file.names) →
    (place <+: directory ∨ ∃ file ∈ files, place <+: directory ++ file.names) →
      after.entryAt? place = some .directory ∧
      ∀ entry, before.entryAt? place = some entry → entry = .directory
  other_eq : ¬ place <+: directory → (∀ file ∈ files, ¬ place <+: directory ++ file.names) →
    after.entryAt? place = before.entryAt? place

/-- Whether a tree is another one with files laid over it at a directory. -/
def Overlaid (directory : Place) (files : List OutputFile) (before after : FileTree) : Prop :=
  ∀ place, OverlaidAt directory files before after place

/-- Whether no file is in the place of a directory around another one. -/
def Apart (files : List OutputFile) : Prop :=
  files.Pairwise fun file other => ¬ file.names <+: other.names ∧ ¬ other.names <+: file.names

instance (files : List OutputFile) : Decidable (Apart files) :=
  inferInstanceAs (Decidable (files.Pairwise _))

variable {directory place : Place} {files rest : List OutputFile} {file : OutputFile}
  {before between after tree : FileTree}

/-- Laying no files over a tree changes nothing. -/
theorem overlaidAt_nil (hgrounded : tree.Grounded)
    (hdirectory : tree.entryAt? directory = some .directory) :
    OverlaidAt directory [] tree tree place := by
  refine ⟨nofun, fun _ haround => ?_, fun _ _ => rfl⟩
  have hthere : tree.entryAt? place = some .directory := by
    obtain hbelow | ⟨file, hfile, -⟩ := haround
    · exact hgrounded.directory_at_or_above hbelow hdirectory
    · contradiction
  exact ⟨hthere, fun entry hentry => Option.some.inj (hentry.symm.trans hthere)⟩

/-- A file that is put in, with nothing else but directories around it, is laid over a tree. -/
theorem overlaidAt_of_file (hgrounded : after.Grounded)
    (hfile : after.entryAt? (directory ++ file.names) = some (.file file.content.toUTF8))
    (hstays : place ≠ directory ++ file.names → ∀ entry, before.entryAt? place = some entry →
      after.entryAt? place = some entry)
    (hother : ¬ place <+: directory ++ file.names → after.entryAt? place = before.entryAt? place) :
    OverlaidAt directory [file] before after place := by
  refine ⟨fun other hmem hplace => ?_,
    fun hne haround => ?_, fun _ hbelow => hother (hbelow file List.mem_cons_self)⟩
  · obtain rfl := List.mem_singleton.mp hmem
    rw [hplace, hfile]
  · have hbelow : place <+: directory ++ file.names := by
      obtain hbelow | ⟨other, hmem, hbelow⟩ := haround
      · exact hbelow.trans (List.prefix_append _ _)
      · rwa [List.mem_singleton.mp hmem] at hbelow
    have hplace := hne file List.mem_cons_self
    have hthere := hgrounded.directory_of_below hbelow hplace.symm (hfile ▸ Option.some_ne_none _)
    exact ⟨hthere,
      fun entry hentry => Option.some.inj ((hstays hplace entry hentry).symm.trans hthere)⟩

/-- No steps lead from a directory up to it. -/
theorem eq_nil_of_append_below {steps : Place} (h : directory ++ steps <+: directory) :
    steps = [] :=
  List.prefix_nil.mp ((List.prefix_append_right_inj directory).mp (by rwa [List.append_nil]))

/-- Laying one file over a tree and then others lays all of them over it. -/
theorem OverlaidAt.cons (hnames : file.names ≠ [])
    (hapart : ∀ other ∈ rest, ¬ file.names <+: other.names)
    (hfirst : OverlaidAt directory [file] before between place)
    (hrest : OverlaidAt directory rest between after place) :
    OverlaidAt directory (file :: rest) before after place := by
  refine ⟨fun other hother hplace => ?_, fun hne haround => ?_, fun hdirectory hbelow => ?_⟩
  · rcases List.mem_cons.mp hother with rfl | hother
    · have houtside : ¬ place <+: directory :=
        fun hbelow => hnames (eq_nil_of_append_below (hplace ▸ hbelow))
      rw [hrest.other_eq houtside, hfirst.file_eq other List.mem_cons_self hplace]
      intro later hlater hbelow
      rw [hplace, List.prefix_append_right_inj] at hbelow
      exact hapart later hlater hbelow
    · exact hrest.file_eq other hother hplace
  · rw [List.forall_mem_cons] at hne
    by_cases hlater : place <+: directory ∨ ∃ other ∈ rest, place <+: directory ++ other.names
    · obtain ⟨hthere, hbetween⟩ := hrest.directory_eq hne.2 hlater
      refine ⟨hthere, fun entry hentry => ?_⟩
      by_cases hfile : place <+: directory ∨ place <+: directory ++ file.names
      · exact (hfirst.directory_eq (by simpa using hne.1) (by simpa using hfile)).2 entry hentry
      · rw [not_or] at hfile
        refine hbetween entry ?_
        rw [hfirst.other_eq hfile.1 (by simpa using hfile.2), hentry]
    · rw [not_or, not_exists] at hlater
      rw [hrest.other_eq hlater.1 fun other hother hbelow => hlater.2 other ⟨hother, hbelow⟩]
      refine hfirst.directory_eq (by simpa using hne.1) (.inr ⟨file, List.mem_cons_self, ?_⟩)
      obtain hbelow | ⟨other, hother, hbelow⟩ := haround
      · exact absurd hbelow hlater.1
      · rcases List.mem_cons.mp hother with rfl | hother
        · exact hbelow
        · exact absurd ⟨hother, hbelow⟩ (hlater.2 other)
  · rw [List.forall_mem_cons] at hbelow
    rw [hrest.other_eq hdirectory hbelow.2, hfirst.other_eq hdirectory (by simpa using hbelow.1)]

/-- Overlays go by the files alone, and by what is at a place. -/
theorem OverlaidAt.of_eq {others : List OutputFile} {earlier later : FileTree}
    (hfiles : ∀ file, file ∈ others ↔ file ∈ files)
    (hbefore : ¬ place <+: directory → before.entryAt? place = earlier.entryAt? place)
    (hstays : ∀ entry, earlier.entryAt? place = some entry → before.entryAt? place = some entry)
    (hafter : after.entryAt? place = later.entryAt? place)
    (h : OverlaidAt directory files before after place) :
    OverlaidAt directory others earlier later place := by
  refine ⟨fun file hmem hplace => ?_, fun hne haround => ?_, fun hdirectory hbelow => ?_⟩
  · rw [← hafter]
    exact h.file_eq file ((hfiles file).mp hmem) hplace
  · rw [← hafter]
    have hall : place <+: directory ∨ ∃ file ∈ files, place <+: directory ++ file.names := by
      refine haround.imp_right fun hsome => ?_
      obtain ⟨file, hmem, hbelow⟩ := hsome
      exact ⟨file, (hfiles file).mp hmem, hbelow⟩
    obtain ⟨hthere, hfree⟩ :=
      h.directory_eq (fun file hmem => hne file ((hfiles file).mpr hmem)) hall
    exact ⟨hthere, fun entry hentry => hfree entry (hstays entry hentry)⟩
  · rw [← hafter, ← hbefore hdirectory]
    exact h.other_eq hdirectory fun file hmem => hbelow file ((hfiles file).mpr hmem)

/-- Laying files over a tree again changes nothing. -/
theorem Overlaid.again {again : FileTree} (hfirst : Overlaid directory files before after)
    (hsecond : Overlaid directory files after again) (place : Place) :
    again.entryAt? place = after.entryAt? place := by
  by_cases hfile : ∃ file ∈ files, place = directory ++ file.names
  · obtain ⟨file, hmem, hplace⟩ := hfile
    rw [(hsecond place).file_eq file hmem hplace, (hfirst place).file_eq file hmem hplace]
  · have hne : ∀ file ∈ files, place ≠ directory ++ file.names :=
      fun file hmem hplace => hfile ⟨file, hmem, hplace⟩
    by_cases haround : place <+: directory ∨ ∃ file ∈ files, place <+: directory ++ file.names
    · rw [((hsecond place).directory_eq hne haround).1, ((hfirst place).directory_eq hne haround).1]
    · rw [not_or, not_exists] at haround
      exact (hsecond place).other_eq haround.1 fun file hmem hbelow => haround.2 file ⟨hmem, hbelow⟩

/-! ## Staging as an overlay -/

section LinkFree

variable {cwd : Place} {around : Path} {name : String} {links : Nat} {reached : Place}
  {disk last : Disk}

/-- Where there are no links, room is made for something above its place only. -/
theorem roomMade_of_linkFree (cwd : Place) (hlinks : tree.LinkFree) {path : Path}
    (hforward : path.Forward) :
    RoomMade cwd (· <+: placeOf cwd path) path tree := by
  intro parent hparent around haround grown place forDirectory hgrows hwalk
  have hway := (Path.onTheWay_of_mem_ancestors haround).trans (Path.onTheWay_parent hparent)
  have hplace : place = placeOf cwd around :=
    (hlinks.grows hgrows).place_eq (hway.forward hforward) hwalk
  have hne : around.text ≠ "" := by
    intro hempty
    have hobstacle := (walk_eq_ok_iff.mp hwalk).1
    simp [pathObstacle?, hempty] at hobstacle
  exact hplace ▸ placeOf_below hway hne

/-- Where there are no links, a hidden directory is at the place that its path stands for. -/
theorem place_of_hidden (hlinks : tree.LinkFree) (hforward : around.Forward)
    (hhidden : Hidden cwd around name links reached tree) :
    placeOf cwd (around.join ⟨name⟩) = reached ++ [name] := by
  exact (hlinks.place_eq (hhidden.isName.forward_join hforward) (hhidden.walk_eq .never)).symm

/-- The place of a path below a hidden directory. -/
theorem place_below_hidden (hlinks : tree.LinkFree) (hforward : around.Forward)
    (hhidden : Hidden cwd around name links reached tree) {path : Path} (hplain : path.Plain) :
    ((around.join ⟨name⟩).join path).Forward ∧
      placeOf cwd ((around.join ⟨name⟩).join path) = reached ++ [name] ++ path.names := by
  refine ⟨(hhidden.isName.forward_join hforward).join hplain.forward hplain.isAbsolute_eq, ?_⟩
  rw [placeOf_join _ hplain.isAbsolute_eq, place_of_hidden hlinks hforward hhidden]

/-- Where there are no links, staging lays files over the tree at the hidden directory. -/
theorem overlaid_of_stageAll (hlinks : disk.tree.LinkFree) (hforward : around.Forward)
    (hplain : ∀ file ∈ files, file.path.Plain) (hapart : Apart files)
    (hstaging : Staging cwd around name links reached disk.tree)
    (hcwd : disk.tree.entryAt? cwd = some .directory)
    (h : Ends (files.forM (stage (Disk.storage cwd) (around.join ⟨name⟩))) disk (.ok ()) last) :
    Overlaid (reached ++ [name]) files disk.tree last.tree ∧ last.tree.LinkFree := by
  induction files generalizing disk with
  | nil =>
    obtain ⟨-, rfl⟩ := Ends.pure_iff.mp h
    exact ⟨fun place => overlaidAt_nil hstaging.grounded hstaging.hidden.entry_eq, hlinks⟩
  | cons file rest ih =>
    rw [Apart, List.pairwise_cons] at hapart
    rw [List.forall_mem_cons] at hplain
    have hrun : Ends (stage (Disk.storage cwd) (around.join ⟨name⟩) file >>= fun _ =>
        rest.forM (stage (Disk.storage cwd) (around.join ⟨name⟩))) disk (.ok ()) last := h
    rcases Ends.bind_iff.mp hrun with ⟨done, between, hfirst, hrest⟩ | ⟨e, herror, -⟩
    swap
    · exact nomatch herror
    obtain ⟨hpath, hplace⟩ := place_below_hidden hlinks hforward hstaging.hidden hplain.1
    have hmade := roomMade_of_linkFree cwd hlinks hpath
    obtain ⟨-, hgrounded, mid, hroom, ⟨-, hfailed⟩ | ⟨-, hends, -, hentry⟩⟩ :=
      stage_cases hplain.1 hstaging hcwd hmade hfirst
    · exact absurd rfl hfailed
    have hstep := (stageStep_of_stage hplain.1 hstaging hcwd hfirst).1
    have hlinksmid := hlinks.grows hroom.grows
    have hlinksbetween : between.tree.LinkFree := by
      intro place goal hlink
      rw [hentry] at hlink
      split at hlink
      · simp at hlink
      · exact hlinksmid place goal hlink
    have hone : Overlaid (reached ++ [name]) [file] disk.tree between.tree := by
      intro place
      refine overlaidAt_of_file hgrounded (by rw [hentry, if_pos rfl]) (fun hne entry hold => ?_)
        fun houtside => ?_
      · rw [hentry, if_neg hne]
        exact hroom.grows.extends hold
      rw [hentry, if_neg fun hsame : place = _ => houtside (hsame ▸ List.prefix_rfl)]
      rcases hroom place with hsame | ⟨-, -, hbelow⟩
      · exact hsame
      · rw [hplace] at hbelow
        exact absurd hbelow houtside
    obtain ⟨hothers, hlinksafter⟩ := ih hlinksbetween hplain.2 hapart.2 hstep.staging
      (hstep.kept.keeps.evolves.directory hcwd) hrest
    refine ⟨fun place => (hone place).cons hends.names_ne_nil ?_ (hothers place), hlinksafter⟩
    exact fun other hother => (hapart.1 other hother).1

end LinkFree

/-! ## Merging as an overlay -/

/-- Whether a name is on the way neither to a directory nor to any of some files below it. -/
def Clear (name : String) (directory : Place) (files : List OutputFile) : Prop :=
  name ∉ directory ∧ ∀ file ∈ files, name ∉ file.names

namespace Clear

variable {name : String} {reached : Place} (hclear : Clear name directory files)

include hclear

/-- A directory whose name is on no way holds no directory around any of the files. -/
theorem not_below_directory : ¬ reached ++ [name] <+: directory :=
  fun hbelow => hclear.1 (hbelow.subset (by simp))

/-- A directory whose name is on no way holds none of the files. -/
theorem not_below_file (hfile : file ∈ files) :
    ¬ reached ++ [name] <+: directory ++ file.names := by
  intro hbelow
  have hname : name ∈ directory ++ file.names := hbelow.subset (by simp)
  exact (List.mem_append.mp hname).elim hclear.1 (hclear.2 file hfile)

/-- Where nothing is in a directory whose name is on no way, neither before nor afterwards, nothing
is laid over it. -/
theorem overlaidAt (hunder : reached ++ [name] <+: place) (hbefore : before.entryAt? place = none)
    (hafter : after.entryAt? place = none) : OverlaidAt directory files before after place := by
  refine ⟨fun file hfile hplace => ?_, fun _ haround => ?_, fun _ _ => by rw [hbefore, hafter]⟩
  · exact absurd (hplace ▸ hunder) (hclear.not_below_file hfile)
  · obtain hbelow | ⟨file, hfile, hbelow⟩ := haround
    · exact absurd (hunder.trans hbelow) hclear.not_below_directory
    · exact absurd (hunder.trans hbelow) (hclear.not_below_file hfile)

end Clear

namespace Merging

variable {merging : Merging} {base : FileTree} {made : Place → Prop} {disk last : Disk}

/-- The directory that files are merged into. -/
def outPlace (merging : Merging) : Place := placeOf merging.cwd merging.out

/-- The path of a file to be merged leads to its names below the output directory. -/
theorem Ready.target_place (hready : merging.Ready files base) (hout : merging.out.Forward)
    (hfile : file ∈ files) :
    (merging.targetPath file).Forward ∧
      placeOf merging.cwd (merging.targetPath file) = merging.outPlace ++ file.names := by
  have hplain := hready.plain file hfile
  exact ⟨hout.join hplain.forward hplain.isAbsolute_eq, placeOf_join _ hplain.isAbsolute_eq⟩

/-- The path that what a file replaces is kept at leads to the place for it. -/
theorem Ready.saved_place (hready : merging.Ready files base) (hlinks : base.LinkFree)
    (haround : merging.around.Forward) (hfile : file ∈ files) :
    (merging.savedPath file).Forward ∧
    placeOf merging.cwd (merging.savedPath file) = merging.savedPlace file :=
  place_below_hidden hlinks haround hready.backup (hready.plain file hfile)

/-- Where there are no links, a file is placed at its names below the output directory. -/
theorem SwappedIn.placed_target (hready : merging.Ready files base) (hout : merging.out.Forward)
    (hlinks : tree.LinkFree) (hpending : merging.Pending files base (file :: rest) tree)
    {swap : Swap} {seen : List (Place × Kind)}
    (hswapped : merging.SwappedIn made file tree swap seen after) :
    ∃ mid, tree.GrowsBy made mid ∧
      merging.Placed file mid after (merging.outPlace ++ file.names) := by
  obtain ⟨mid, arrival, hroom, -, hwalk, hplaced⟩ := hswapped.placed hready
  obtain ⟨hforward, htarget⟩ := hready.target_place hout hpending.mem
  have hplace : arrival.place = merging.outPlace ++ file.names :=
    ((hlinks.grows hroom.grows).place_eq hforward hwalk).trans htarget
  exact ⟨mid, hroom, hplace ▸ hplaced⟩

/-- The swap of a file outside of the staging directory leaves the other files staged. -/
theorem SwappedIn.staged_eq (hready : merging.Ready files base) (hout : merging.out.Forward)
    (hclear : Clear merging.staging merging.outPlace files) (hlinks : tree.LinkFree)
    (hpending : merging.Pending files base (file :: rest) tree) {swap : Swap}
    {seen : List (Place × Kind)} (hswapped : merging.SwappedIn made file tree swap seen after)
    {other : OutputFile} (hother : other ∈ rest) {entry : Entry}
    (hentry : tree.entryAt? (merging.stagedPlace other) = some entry) :
    after.entryAt? (merging.stagedPlace other) = some entry := by
  obtain ⟨mid, hroom, hplaced⟩ := hswapped.placed_target hready hout hlinks hpending
  have hbelow : merging.stagingPlace <+: merging.stagedPlace other := List.prefix_append _ _
  have htarget : merging.stagedPlace other ≠ merging.outPlace ++ file.names := fun hsame =>
    hclear.not_below_file hpending.mem (hsame ▸ hbelow)
  have hstaged : merging.stagedPlace other ≠ merging.stagedPlace file := fun hsame =>
    hpending.names_ne hready hother (List.append_cancel_left hsame)
  rw [hplaced.entryAt?_eq _ htarget hstaged (hready.saved_ne_staged file other).symm]
  exact hroom.grows.extends hentry

/-- Where there are no links, the swap of a file lays it over the tree, outside of the hidden
directories. -/
theorem SwappedIn.overlaidAt (hready : merging.Ready files base) (hout : merging.out.Forward)
    (hlinks : tree.LinkFree) (hpending : merging.Pending files base (file :: rest) tree)
    (hcontent : tree.entryAt? (merging.stagedPlace file) = some (.file file.content.toUTF8))
    (hmade : ∀ other, made other → other <+: merging.outPlace ++ file.names ∨
      other <+: merging.savedPlace file)
    {swap : Swap} {seen : List (Place × Kind)}
    (hswapped : merging.SwappedIn made file tree swap seen after)
    (hstaging : ¬ merging.stagingPlace <+: place) (hbackup : ¬ merging.backupPlace <+: place) :
    OverlaidAt merging.outPlace [file] tree after place := by
  obtain ⟨mid, hroom, hplaced⟩ := hswapped.placed_target hready hout hlinks hpending
  obtain ⟨content, hstaged, hfile⟩ := hplaced.target_eq
  rw [hroom.grows.extends hcontent, Option.some_inj] at hstaged
  have hsaved : ¬ merging.savedPlace file = place :=
    fun hsame => hbackup (hsame ▸ backupPlace_below file)
  have hmid : place ≠ merging.outPlace ++ file.names →
      after.entryAt? place = mid.entryAt? place := fun hne =>
    hplaced.entryAt?_eq place hne (fun hsame => hstaging (hsame ▸ List.prefix_append _ _))
      (Ne.symm hsaved)
  refine overlaidAt_of_file hplaced.grounded (hstaged ▸ hfile) (fun hne entry hold => ?_)
    fun houtside => ?_
  · rw [hmid hne]
    exact hroom.grows.extends hold
  rw [hmid fun hsame => houtside (hsame ▸ List.prefix_rfl)]
  rcases hroom place with hsame | ⟨hnone, -, hnew⟩
  · exact hsame
  · obtain hbelow | hbelow := hmade place hnew
    · exact absurd hbelow houtside
    · have habove : place <+: merging.backupPlace :=
        (List.prefix_or_prefix_of_prefix hbelow (backupPlace_below file)).resolve_right hbackup
      have hthere : tree.entryAt? merging.backupPlace = some .directory :=
        hpending.replaces.evolves.directory hready.backup.entry_eq
      rw [hpending.grounded.directory_at_or_above habove hthere] at hnone
      contradiction

/-- Where there are no links, merging lays files over the tree, outside of the hidden
directories. -/
theorem Pending.overlaid_of_swapAll (hready : merging.Ready files base) (hbaselinks : base.LinkFree)
    (hout : merging.out.Forward) (haround : merging.around.Forward)
    (hdirectory : base.entryAt? merging.outPlace = some .directory)
    (hclear : Clear merging.staging merging.outPlace files) {pending : List OutputFile}
    (hpending : merging.Pending files base pending disk.tree) (hlinks : disk.tree.LinkFree)
    (hcontents : ∀ file ∈ pending, disk.tree.entryAt? (merging.stagedPlace file) =
      some (.file file.content.toUTF8))
    {swaps : List Swap}
    (h : Ends (swapAll (Disk.storage merging.cwd) merging.stagingPath merging.backupPath merging.out
      pending swaps) disk (.ok ()) last) :
    merging.Pending files base [] last.tree ∧ last.tree.LinkFree ∧
      ∀ place, ¬ merging.stagingPlace <+: place →
      ¬ merging.backupPlace <+: place →
      OverlaidAt merging.outPlace pending disk.tree last.tree place := by
  induction pending generalizing disk swaps with
  | nil =>
    obtain ⟨-, rfl⟩ := Ends.pure_iff.mp h
    exact ⟨hpending, hlinks, fun place _ _ =>
      overlaidAt_nil hpending.grounded (hpending.replaces.evolves.directory hdirectory)⟩
  | cons file rest ih =>
    obtain ⟨swap, between, hswap, hrest⟩ | ⟨_, _, herror, -⟩ := swapAll_cons_cases h
    swap
    · exact nomatch herror
    obtain ⟨htargetforward, htarget⟩ := hready.target_place hout hpending.mem
    obtain ⟨hsavedforward, hsaved⟩ := hready.saved_place hbaselinks haround hpending.mem
    have htargetroom :=
      (roomMade_of_linkFree merging.cwd hlinks htargetforward).mono fun other hbelow =>
      (.inl (htarget ▸ hbelow) : other <+: merging.outPlace ++ file.names ∨
        other <+: merging.savedPlace file)
    have hsavedroom :=
      (roomMade_of_linkFree merging.cwd hlinks hsavedforward).mono fun other hbelow =>
      (.inr (hsaved ▸ hbelow) : other <+: merging.outPlace ++ file.names ∨
        other <+: merging.savedPlace file)
    obtain ⟨seen, -, -, ⟨a, hsame, -, hswapped⟩ | ⟨_, herror, _⟩⟩ :=
      swapIn_cases hpending.grounded (hpending.cwd_eq hready) htargetroom hsavedroom hswap
    swap
    · exact nomatch herror
    have hin := hpending.swappedIn hready hswapped
    rw [List.forall_mem_cons] at hcontents
    have hone : ∀ place, ¬ merging.stagingPlace <+: place → ¬ merging.backupPlace <+: place →
        OverlaidAt merging.outPlace [file] disk.tree between.tree
          place := fun place hstaging hbackup =>
      hin.overlaidAt hready hout hlinks hpending hcontents.1 (fun _ hmade => hmade) hstaging hbackup
    have hstill : ∀ other ∈ rest,
        between.tree.entryAt? (merging.stagedPlace other) = some (.file other.content.toUTF8) :=
      fun other hother => hin.staged_eq hready hout hclear hlinks hpending hother
        (hcontents.2 other hother)
    obtain ⟨hend, hlinksend, hothers⟩ :=
      ih (hin.rest_pending hready hpending) (hin.linkFree hlinks) hstill hrest
    refine ⟨hend, hlinksend, fun place hstaging hbackup =>
      (hone place hstaging hbackup).cons (hready.endsInName file hpending.mem).names_ne_nil ?_
        (hothers place hstaging hbackup)⟩
    exact fun other hother => hpending.not_names_below hready hother

end Merging

end SchemaBindings.Bindings
