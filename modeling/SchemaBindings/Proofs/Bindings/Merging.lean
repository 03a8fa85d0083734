import SchemaBindings.Proofs.Bindings.Swapping
import SchemaBindings.Proofs.FileTree.LinkFree

/-!
# Merging staged files

While staged files are swapped in, two hidden directories stand side by side: one with the files
that are still to be swapped in, and one for what they replace. Links on the way to the output
directory may lead a swap into either of them. So all that is known of a tree in between is what the
swaps to come rely on.
-/

namespace SchemaBindings.Bindings

open SchemaBindings.FileTree

/-- A path that ends in a name has names. -/
theorem EndsInName.names_ne_nil {path : Path} (h : EndsInName path) : path.names ≠ [] := by
  obtain ⟨name, hlast, hempty, hdot, hdots⟩ := h
  have hname := pieceName?_eq_some (not_or.mpr ⟨hempty, hdot⟩) hdots
  rw [path.names_eq]
  exact List.ne_nil_of_mem (List.mem_filterMap.mpr ⟨name, List.mem_of_getLast? hlast, hname⟩)

/-- Below any path, a relative one that ends in a name ends in no slash. -/
theorem EndsInName.getLast?_join {path : Path} (h : EndsInName path)
    (hrelative : path.isAbsolute = false) (base : Path) :
    (base.join path).pieces.getLast? ≠ some "" := by
  obtain ⟨name, hlast, hempty, -⟩ := h
  rw [Path.pieces_join base hrelative, List.getLast?_append_of_ne_nil _ path.pieces_ne_nil, hlast]
  simpa using hempty

/-- Whether directories stay as they are, and links stay too or become files. -/
def Replaces (before after : FileTree) : Prop :=
  ∀ place, before.Leads place → after.entryAt? place = before.entryAt? place ∨
    (before.entryAt? place ≠ some .directory ∧
      ∃ content, after.entryAt? place = some (.file content))

/-- Where links become files, a tree evolves. -/
theorem Replaces.evolves {before after : FileTree} (h : Replaces before after) :
    before.Evolves after := by
  intro place hleads
  rcases h place hleads with hsame | ⟨hne, content, hfile⟩
  · exact .inl hsame
  · exact .inr ⟨hne, not_leads_of_file hfile⟩

/-! ## Places of a merge -/

/-- Where files are merged: the path to the output directory, and the names of two hidden
directories within the one that a path leads to, which walks along the path come to with so many
links to go. -/
structure Merging where
  cwd : Place
  out : Path
  around : Path
  links : Nat
  reached : Place
  staging : String
  backup : String

namespace Merging

variable (merging : Merging)

/-- The directory of the files to be swapped in. -/
def stagingPlace : Place := merging.reached ++ [merging.staging]

/-- The directory for what is replaced. -/
def backupPlace : Place := merging.reached ++ [merging.backup]

/-- The place where a file is staged. -/
def stagedPlace (file : OutputFile) : Place := merging.stagingPlace ++ file.names

/-- The place where what a file replaces is kept. -/
def savedPlace (file : OutputFile) : Place := merging.backupPlace ++ file.names

/-- The path to the hidden directory of the files to be swapped in. -/
def stagingPath : Path := merging.around.join ⟨merging.staging⟩

/-- The path to the hidden directory for what is replaced. -/
def backupPath : Path := merging.around.join ⟨merging.backup⟩

/-- The path that a file is staged at. -/
def stagedPath (file : OutputFile) : Path := merging.stagingPath.join file.path

/-- The path that what a file replaces is kept at. -/
def savedPath (file : OutputFile) : Path := merging.backupPath.join file.path

/-- The path that a file is swapped in at. -/
def targetPath (file : OutputFile) : Path := merging.out.join file.path

/-- What a merge relies on in the tree that it starts from. -/
structure Ready (files : List OutputFile) (base : FileTree) : Prop where
  grounded : base.Grounded
  cwd_eq : base.entryAt? merging.cwd = some .directory
  staging : Hidden merging.cwd merging.around merging.staging merging.links merging.reached base
  backup : Hidden merging.cwd merging.around merging.backup merging.links merging.reached base
  ne : merging.staging ≠ merging.backup
  staged : ∀ file ∈ files, ∃ content, base.entryAt? (merging.stagedPlace file) =
    some (.file content)
  unused : ∀ place, merging.backupPlace <+: place → place ≠ merging.backupPlace →
    base.entryAt? place = none
  plain : ∀ file ∈ files, file.path.Plain
  endsInName : ∀ file ∈ files, EndsInName file.path
  nodup : (files.map OutputFile.names).Nodup

/-- What the swaps of the files to come rely on: they are still staged, and there are no links where
they are to put what they replace. -/
structure Pending (files : List OutputFile) (base : FileTree) (pending : List OutputFile)
    (tree : FileTree) : Prop where
  suffix : pending <:+ files
  grounded : tree.Grounded
  replaces : Replaces base tree
  staged : ∀ file ∈ pending, ∃ content, tree.entryAt? (merging.stagedPlace file) =
    some (.file content)
  no_links : ∀ file ∈ pending, ∀ place goal, merging.backupPlace <+: place →
    place <+: merging.savedPlace file →
    tree.entryAt? place ≠ some (.link goal)

variable {merging} {files pending rest : List OutputFile} {file : OutputFile} {base tree : FileTree}

/-- What a file replaces is kept below the directory for that. -/
theorem backupPlace_below (file : OutputFile) : merging.backupPlace <+: merging.savedPlace file :=
  List.prefix_append _ _

/-- No file is staged where replaced files are kept. -/
theorem Ready.not_below_staged (hready : merging.Ready files base) (file : OutputFile) :
    ¬ merging.backupPlace <+: merging.stagedPlace file := by
  intro hbelow
  rw [stagedPlace, stagingPlace, backupPlace, List.append_assoc, List.prefix_append_right_inj,
    List.singleton_append, List.cons_prefix_cons] at hbelow
  exact hready.ne hbelow.1.symm

/-- What a file replaces is kept where no file is staged. -/
theorem Ready.saved_ne_staged (hready : merging.Ready files base) (file other : OutputFile) :
    merging.savedPlace file ≠ merging.stagedPlace other :=
  fun hsame => hready.not_below_staged other (hsame ▸ backupPlace_below file)

/-- At first nothing is kept in the place of what a file replaces. -/
theorem Ready.saved_eq_none (hready : merging.Ready files base) (hfile : file ∈ files) :
    base.entryAt? (merging.savedPlace file) = none := by
  refine hready.unused _ (backupPlace_below file)
    fun hsame => (hready.endsInName file hfile).names_ne_nil ?_
  simpa [savedPlace, OutputFile.names] using hsame

/-- A merge starts with all files to be swapped in. -/
theorem Ready.all_pending (hready : merging.Ready files base) :
    merging.Pending files base files base := by
  refine ⟨List.suffix_rfl, hready.grounded, fun _ _ => .inl rfl, hready.staged, ?_⟩
  intro file hfile place goal hunder hbelow hlink
  by_cases hsame : place = merging.backupPlace
  · rw [hsame, backupPlace, hready.backup.entry_eq] at hlink
    simp at hlink
  · rw [hready.unused place hunder hsame] at hlink
    contradiction

namespace Pending

/-- What is pending in a merge stays so after the tree has grown. -/
theorem grows {grown : FileTree} (hpending : merging.Pending files base pending tree)
    (hgrows : tree.Grows grown) (hgrounded : grown.Grounded) :
    merging.Pending files base pending grown := by
  refine ⟨hpending.suffix, hgrounded, fun place hleads => ?_, fun file hfile => ?_,
    fun file hfile place goal hunder hbelow hlink => ?_⟩
  · rcases hpending.replaces place hleads with hsame | ⟨hne, content, hcontent⟩
    · rw [hgrows.keeps place (by rwa [Leads, hsame])]
      exact .inl hsame
    · exact .inr ⟨hne, content, hgrows.extends hcontent⟩
  · obtain ⟨content, hcontent⟩ := hpending.staged file hfile
    exact ⟨content, hgrows.extends hcontent⟩
  · exact hpending.no_links file hfile place goal hunder hbelow
      (hgrows.eq_some_of_plain hlink (by simp))

variable (hready : merging.Ready files base)
  (hpending : merging.Pending files base (file :: rest) tree)

include hpending

/-- The next file is one of those that are merged. -/
theorem mem : file ∈ files :=
  hpending.suffix.subset List.mem_cons_self

/-- The place for what the next file replaces holds no link and no directory that a walk could go on
from. -/
theorem not_leads_saved (hplain : tree.entryAt? (merging.savedPlace file) ≠ some .directory) :
    ¬ tree.Leads (merging.savedPlace file) := by
  rintro (hdirectory | ⟨goal, hlink⟩)
  · exact hplain hdirectory
  · exact hpending.no_links file List.mem_cons_self _ goal (backupPlace_below file)
      List.prefix_rfl hlink

include hready

/-- The next file has other names than those that come after it. -/
theorem names_ne {other : OutputFile} (hother : other ∈ rest) : other.names ≠ file.names := by
  have hnodup := (hpending.suffix.sublist.map OutputFile.names).nodup hready.nodup
  rw [List.map_cons, List.nodup_cons] at hnodup
  exact fun hsame => hnodup.1 (hsame ▸ List.mem_map_of_mem hother)

/-- The next file is staged in no directory of one that comes after it. -/
theorem not_names_below {other : OutputFile} (hother : other ∈ rest) :
    ¬ file.names <+: other.names := by
  intro hbelow
  obtain ⟨content, hcontent⟩ := hpending.staged file List.mem_cons_self
  obtain ⟨later, hlater⟩ := hpending.staged other (List.mem_cons_of_mem _ hother)
  have hne : merging.stagedPlace other ≠ merging.stagedPlace file := fun hsame =>
    hpending.names_ne hready hother (List.append_cancel_left hsame)
  have hdirectory : tree.entryAt? (merging.stagedPlace file) = some .directory :=
    hpending.grounded.directory_of_below
      ((List.prefix_append_right_inj merging.stagingPlace).mpr hbelow) hne
      (hlater ▸ Option.some_ne_none _)
  simp [hcontent] at hdirectory

end Pending

/-! ## From staging to merging -/

/-- Once all files are staged and a second hidden directory is made, they can be merged. -/
theorem ready_of_staged {cwd : Place} {around : Path} (out : Path) {staging backup : String}
    {links fewer : Nat} {reached other : Place} {made : FileTree}
    (hstaged : Staged cwd around staging links reached files tree)
    (hcwd : tree.entryAt? cwd = some .directory)
    (hnew : NewHidden cwd around backup fewer other tree made) :
    fewer = links ∧ other = reached ∧
      Ready ⟨cwd, out, around, links, reached, staging, backup⟩ files made := by
  have hhidden := hstaged.staging.hidden
  obtain ⟨rfl, rfl⟩ := Prod.mk.inj (Option.some.inj (hnew.follow_eq.symm.trans hhidden.follow_eq))
  refine ⟨rfl, rfl, hnew.grounded, hnew.grows.extends hcwd, hhidden.keeps hnew.grows.keeps,
    hnew.hidden, ?_, fun file hfile => ⟨_, hnew.grows.extends (hstaged.entry_eq file hfile)⟩,
    fun place hunder hne => hnew.eq_none_of_below hstaged.staging.grounded hunder hne,
    hstaged.plain, hstaged.endsInName, hstaged.nodup⟩
  intro hsame
  have hfree := hnew.free
  rw [← show staging = backup from hsame, hhidden.entry_eq] at hfree
  contradiction

/-! ## Moving aside -/

/-- Whether what was at the end of the path of a file has been moved to where it is kept, in terms
of places. -/
structure MovedAside (made : Place → Prop) (file : OutputFile) (place : Place) (entry : Entry)
    (before mid aside : FileTree) : Prop where
  room : before.GrowsBy made mid
  grounded : mid.Grounded
  target_eq : mid.walk merging.cwd .never (merging.targetPath file) = .ok (.taken place entry)
  saved_eq : ∃ arrival, mid.walk merging.cwd .never (merging.savedPath file) = .ok arrival ∧
    arrival.place = merging.savedPlace file
  moved : Moved mid place (merging.savedPlace file) entry aside

variable {made : Place → Prop}

/-- Where links on the way to what the next file replaces stay away, that is where its path
leads. -/
theorem Pending.saved_place_eq (hready : merging.Ready files base)
    (hpending : merging.Pending files base (file :: rest) tree) {arrival : Arrival}
    (h : tree.walk merging.cwd .never (merging.savedPath file) = .ok arrival) :
    arrival.place = merging.savedPlace file :=
  (hready.backup.place_eq hpending.replaces.evolves (hready.plain file hpending.mem)
    (hpending.no_links file List.mem_cons_self) h).2

/-- At the end of the path of the next file, a link is treated alike with or without care for
slashes. -/
theorem Pending.walk_target (hready : merging.Ready files base)
    (hpending : merging.Pending files base (file :: rest) tree) (other : FileTree) :
    other.walk merging.cwd .unlessSlash (merging.targetPath file) =
      other.walk merging.cwd .never (merging.targetPath file) :=
  walk_unlessSlash ((hready.endsInName file hpending.mem).getLast?_join
    (hready.plain file hpending.mem).isAbsolute_eq merging.out)

/-- The working directory stays. -/
theorem Pending.cwd_eq (hready : merging.Ready files base)
    (hpending : merging.Pending files base pending tree) :
    tree.entryAt? merging.cwd = some .directory :=
  hpending.replaces.evolves.directory hready.cwd_eq

/-- What is set aside is moved to the place where it is kept. -/
theorem Pending.movedAside (hready : merging.Ready files base)
    (hpending : merging.Pending files base (file :: rest) tree) {place : Place} {entry : Entry}
    {mid aside : FileTree}
    (haside : SetAside merging.cwd made (merging.targetPath file) (merging.savedPath file)
      place entry tree mid aside) :
    merging.MovedAside made file place entry tree mid aside := by
  have hmid := hpending.grows haside.room.grows haside.grounded
  have htarget := haside.walk_eq
  rw [hmid.walk_target hready] at htarget
  obtain ⟨arrival, hwalk, hmoved⟩ := moved_of_rename haside.grounded (hmid.cwd_eq hready)
    htarget haside.plain haside.rename_eq
  have hplace := hmid.saved_place_eq hready hwalk
  exact ⟨haside.room, haside.grounded, htarget, ⟨arrival, hwalk, hplace⟩, hplace ▸ hmoved⟩

/-- After moving aside, other places are as they were. -/
theorem MovedAside.entryAt?_eq {place : Place} {entry : Entry} {before mid aside : FileTree}
    (haside : merging.MovedAside made file place entry before mid aside) {other : Place}
    (hplace : other ≠ place) (hsaved : other ≠ merging.savedPlace file) :
    aside.entryAt? other = mid.entryAt? other := by
  rw [haside.moved.entryAt?_eq, if_neg hsaved, if_neg hplace]

/-- What was moved aside leads no walk on from where it was. -/
theorem MovedAside.not_leads {place : Place} {entry : Entry} {before mid aside : FileTree}
    (haside : merging.MovedAside made file place entry before mid aside)
    (hne : place ≠ merging.savedPlace file) :
    ¬ aside.Leads place := by
  refine not_leads_of_eq_none ?_
  rw [haside.moved.entryAt?_eq, if_neg hne, if_pos rfl]

/-- Where what is moved aside is there afterwards, it was before. -/
theorem MovedAside.evolves (hready : merging.Ready files base)
    (hpending : merging.Pending files base (file :: rest) tree) {place : Place} {entry : Entry}
    {mid aside : FileTree} (haside : merging.MovedAside made file place entry tree mid aside) :
    base.Evolves aside ∧ mid.Evolves aside := by
  have hmid := hpending.grows haside.room.grows haside.grounded
  have hplain := haside.moved.source_plain
  have hsaved : ¬ mid.Leads (merging.savedPlace file) :=
    hmid.not_leads_saved haside.moved.target_plain
  have hlater : mid.Evolves aside := by
    intro other hleads
    have hother : other ≠ merging.savedPlace file := fun hsame => hsaved (hsame ▸ hleads)
    by_cases hplace : other = place
    · exact .inr ⟨hplace ▸ hplain, hplace ▸ haside.not_leads (hplace ▸ hother)⟩
    · exact .inl (haside.entryAt?_eq hplace hother)
  refine ⟨fun other hleads => ?_, hlater⟩
  rcases hmid.replaces other hleads with hsame | ⟨hne, content, hcontent⟩
  · rcases hlater other (by rwa [Leads, hsame]) with heq | ⟨hne, hnot⟩
    · exact .inl (heq.trans hsame)
    · exact .inr ⟨hsame ▸ hne, hnot⟩
  · refine .inr ⟨hne, ?_⟩
    have hother : other ≠ merging.savedPlace file := by
      rintro rfl
      exact not_leads_of_eq_none (hready.saved_eq_none hpending.mem) hleads
    by_cases hplace : other = place
    · exact hplace ▸ haside.not_leads (hplace ▸ hother)
    · exact not_leads_of_file ((haside.entryAt?_eq hplace hother).trans hcontent)

/-! ## Moving in -/

/-- Where nothing that is staged has become a link, the path that a file is staged at leads to its
place. -/
theorem Ready.staged_place_eq (hready : merging.Ready files base) (hfile : file ∈ files)
    (hevolves : base.Evolves tree)
    (hlink : ∀ goal, tree.entryAt? (merging.stagedPlace file) ≠ some (.link goal))
    {arrival : Arrival} (h : tree.walk merging.cwd .never (merging.stagedPath file) = .ok arrival) :
    arrival.place = merging.stagedPlace file := by
  refine (hready.staging.place_eq hevolves (hready.plain file hfile)
    (fun place goal hunder hbelow => ?_) h).2
  by_cases hsame : place = merging.stagedPlace file
  · exact hsame ▸ hlink goal
  · obtain ⟨content, hcontent⟩ := hready.staged file hfile
    have hdirectory :=
      hready.grounded.directory_of_below hbelow (Ne.symm hsame) (hcontent ▸ Option.some_ne_none _)
    simp [hevolves.directory hdirectory]

/-- A rename that succeeds has found something. -/
theorem walk_of_rename {cwd : Place} {source target : Path} {renamed : FileTree}
    (h : tree.rename cwd source target = .ok renamed) :
    ∃ place entry, tree.walk cwd .never source = .ok (.taken place entry) := by
  unfold rename at h
  split at h
  · next hsource htarget => exact ⟨_, _, hsource⟩
  · next hsource htarget => exact ⟨_, _, hsource⟩
  all_goals contradiction

/-- Moving the next file in moves it from where it is staged. -/
theorem Pending.moved_in (hready : merging.Ready files base)
    (hpending : merging.Pending files base (file :: rest) tree) {cleared swapped : FileTree}
    (hgrounded : cleared.Grounded) (hevolves : base.Evolves cleared)
    (hstaged : cleared.entryAt? (merging.stagedPlace file) = none ∨
      cleared.entryAt? (merging.stagedPlace file) = tree.entryAt? (merging.stagedPlace file))
    (h : cleared.rename merging.cwd (merging.stagedPath file) (merging.targetPath file) =
      .ok swapped) :
    ∃ content arrival, tree.entryAt? (merging.stagedPlace file) = some (.file content) ∧
      cleared.walk merging.cwd .never (merging.targetPath file) = .ok arrival ∧
      Moved cleared (merging.stagedPlace file) arrival.place (.file content) swapped := by
  obtain ⟨content, hcontent⟩ := hpending.staged file List.mem_cons_self
  obtain ⟨place, entry, hwalk⟩ := walk_of_rename h
  have hcwd := hevolves.directory hready.cwd_eq
  have hplace : place = merging.stagedPlace file := by
    refine hready.staged_place_eq hpending.mem hevolves (fun goal hlink => ?_) hwalk
    rcases hstaged with hnone | hsame
    · simp [hnone] at hlink
    · simp [hsame, hcontent] at hlink
  have hentry : cleared.entryAt? (merging.stagedPlace file) = some entry :=
    hplace ▸ sound_of_walk hgrounded hcwd hwalk
  obtain rfl : entry = .file content := by
    rcases hstaged with hnone | hsame
    · simp [hnone] at hentry
    · rwa [hsame, hcontent, Option.some_inj, eq_comm] at hentry
  obtain ⟨arrival, htarget, hmoved⟩ := moved_of_rename hgrounded hcwd hwalk (by simp) h
  exact ⟨content, arrival, hcontent, htarget, hplace ▸ hmoved⟩

/-- Whether a tree is another one after the swap of a file that overlooked certain things, in terms
of places. -/
inductive SwappedIn (made : Place → Prop) (file : OutputFile) (before : FileTree) :
    Swap → List (Place × Kind) → FileTree → Prop where
  | added {mid after : FileTree} {place : Place} {forDirectory : Bool} {content : ByteArray}
      (hroom : before.GrowsBy made mid) (hgrounded : mid.Grounded)
      (htarget : mid.walk merging.cwd .never (merging.targetPath file) =
        .ok (.free place forDirectory))
      (hmoved : Moved mid (merging.stagedPlace file) place (.file content) after) :
      SwappedIn made file before ⟨merging.targetPath file, none⟩ [] after
  | covered {mid after : FileTree} {place : Place} {entry : Entry} {content : ByteArray}
      (hroom : before.GrowsBy made mid) (hgrounded : mid.Grounded)
      (htarget : mid.walk merging.cwd .never (merging.targetPath file) = .ok (.taken place entry))
      (hmoved : Moved mid (merging.stagedPlace file) place (.file content) after) :
      SwappedIn made file before ⟨merging.targetPath file, none⟩ [(place, entry.kind)] after
  | replaced {mid aside after : FileTree} {place : Place} {entry : Entry} {content : ByteArray}
      (haside : merging.MovedAside made file place entry before mid aside)
      (hmoved : Moved aside (merging.stagedPlace file) place (.file content) after) :
      SwappedIn made file before ⟨merging.targetPath file, some (merging.savedPath file)⟩ [] after

/-- A swap of the next file swaps it in between the places of its paths. -/
theorem Pending.swappedIn (hready : merging.Ready files base)
    (hpending : merging.Pending files base (file :: rest) tree) {swap : Swap}
    {seen : List (Place × Kind)} {after : FileTree}
    (h : Swapped merging.cwd made (merging.stagedPath file) (merging.targetPath file)
      (merging.savedPath file) tree swap seen after) :
    merging.SwappedIn made file tree swap seen after := by
  cases h with
  | @added mid _ hroom hgrounded hfree hin =>
    have hmid := hpending.grows hroom.grows hgrounded
    obtain ⟨content, arrival, -, htarget, hmoved⟩ := hmid.moved_in hready hgrounded
      hmid.replaces.evolves (.inr rfl) hin
    cases arrival with
    | free place forDirectory => exact .added hroom hgrounded htarget hmoved
    | taken place entry =>
      rw [← hmid.walk_target hready] at htarget
      rw [find?_eq_some.mpr htarget] at hfree
      contradiction
  | @covered mid _ place entry hroom hgrounded hthere hin =>
    have hmid := hpending.grows hroom.grows hgrounded
    obtain ⟨content, arrival, -, htarget, hmoved⟩ := hmid.moved_in hready hgrounded
      hmid.replaces.evolves (.inr rfl) hin
    have hwalk := find?_eq_some.mp hthere
    rw [hmid.walk_target hready, htarget] at hwalk
    obtain rfl := Except.ok.inj hwalk
    exact .covered hroom hgrounded htarget hmoved
  | @replaced mid aside _ place entry haside hin =>
    have haside := hpending.movedAside hready haside
    have hmid := hpending.grows haside.room.grows haside.grounded
    obtain ⟨hbase, hlater⟩ := haside.evolves hready hpending
    have hstaged : aside.entryAt? (merging.stagedPlace file) = none ∨
        aside.entryAt? (merging.stagedPlace file) = mid.entryAt? (merging.stagedPlace file) := by
      rw [haside.moved.entryAt?_eq, if_neg (hready.saved_ne_staged file file).symm]
      split
      · exact .inl rfl
      · exact .inr rfl
    obtain ⟨content, arrival, -, htarget, hmoved⟩ :=
      hmid.moved_in hready haside.moved.grounded hbase hstaged hin
    obtain rfl : arrival.place = place := walk_place_eq_of_evolves hlater haside.target_eq htarget
    exact .replaced haside hmoved

/-- What a swap does to the tree that has room for it. -/
structure Placed (file : OutputFile) (mid after : FileTree) (place : Place) : Prop where
  plain : mid.entryAt? place ≠ some .directory
  grounded : after.Grounded
  target_eq : ∃ content, mid.entryAt? (merging.stagedPlace file) = some (.file content) ∧
    after.entryAt? place = some (.file content)
  staged_eq : merging.stagedPlace file ≠ place → after.entryAt? (merging.stagedPlace file) = none
  entryAt?_eq : ∀ other, other ≠ place → other ≠ merging.stagedPlace file →
    other ≠ merging.savedPlace file →
    after.entryAt? other = mid.entryAt? other

/-- A file that was moved in where nothing was moved aside is placed. -/
theorem placed_of_added {mid after : FileTree} {place : Place} {content : ByteArray}
    (hmoved : Moved mid (merging.stagedPlace file) place (.file content) after) :
    merging.Placed file mid after place := by
  refine ⟨hmoved.target_plain, hmoved.grounded, ⟨content, hmoved.source_eq, ?_⟩,
    fun hne => ?_, fun other hplace hstaged _ => ?_⟩
  · rw [hmoved.entryAt?_eq, if_pos rfl]
  · rw [hmoved.entryAt?_eq, if_neg hne, if_pos rfl]
  · rw [hmoved.entryAt?_eq, if_neg hplace, if_neg hstaged]

/-- A file that was moved in for what had been moved aside is placed. -/
theorem MovedAside.placed (hready : merging.Ready files base) {place : Place} {entry : Entry}
    {before mid aside after : FileTree} {content : ByteArray}
    (haside : merging.MovedAside made file place entry before mid aside)
    (hmoved : Moved aside (merging.stagedPlace file) place (.file content) after) :
    merging.Placed file mid after place := by
  have hplaced := placed_of_added hmoved
  obtain ⟨found, hfound, htarget⟩ := hplaced.target_eq
  have hstaged : mid.entryAt? (merging.stagedPlace file) = some (.file found) := by
    rw [haside.moved.entryAt?_eq, if_neg (hready.saved_ne_staged file file).symm] at hfound
    split at hfound
    · contradiction
    · exact hfound
  refine ⟨haside.moved.source_plain, hplaced.grounded, ⟨found, hstaged, htarget⟩, hplaced.staged_eq,
    fun other hplace hother hsaved => ?_⟩
  rw [hplaced.entryAt?_eq other hplace hother hsaved, haside.entryAt?_eq hplace hsaved]

/-- Once a file is placed, those that come after it are still to be swapped in. -/
theorem Placed.rest_pending (hready : merging.Ready files base)
    (hpending : merging.Pending files base (file :: rest) tree) {after : FileTree} {place : Place}
    (hplaced : merging.Placed file tree after place) : merging.Pending files base rest after := by
  have hlater : ∀ other ∈ rest, other ∈ file :: rest :=
    fun other hother => List.mem_cons_of_mem _ hother
  obtain ⟨content, -, hcontent⟩ := hplaced.target_eq
  refine ⟨(List.suffix_cons file rest).trans hpending.suffix, hplaced.grounded,
    fun other hleads => ?_,
    fun other hother => ?_, fun other hother link goal hunder hbelow hlink => ?_⟩
  · by_cases hplace : other = place
    · subst hplace
      refine .inr ⟨fun hdirectory => hplaced.plain ?_, content, hcontent⟩
      exact hpending.replaces.evolves.directory hdirectory
    · have hstaged : other ≠ merging.stagedPlace file := by
        rintro rfl
        obtain ⟨old, hold⟩ := hready.staged file hpending.mem
        exact not_leads_of_file hold hleads
      have hsaved : other ≠ merging.savedPlace file := by
        rintro rfl
        exact not_leads_of_eq_none (hready.saved_eq_none hpending.mem) hleads
      rw [hplaced.entryAt?_eq other hplace hstaged hsaved]
      exact hpending.replaces other hleads
  · by_cases hplace : merging.stagedPlace other = place
    · exact ⟨content, hplace ▸ hcontent⟩
    · have hstaged : merging.stagedPlace other ≠ merging.stagedPlace file := fun hsame =>
        hpending.names_ne hready hother (List.append_cancel_left hsame)
      rw [hplaced.entryAt?_eq _ hplace hstaged (hready.saved_ne_staged file other).symm]
      exact hpending.staged other (hlater other hother)
  · by_cases hplace : link = place
    · simp [hplace, hcontent] at hlink
    · have hstaged : link ≠ merging.stagedPlace file :=
        fun hsame => hready.not_below_staged file (hsame ▸ hunder)
      have hsaved : link ≠ merging.savedPlace file := by
        rintro rfl
        exact hpending.not_names_below hready hother
          ((List.prefix_append_right_inj merging.backupPlace).mp hbelow)
      rw [hplaced.entryAt?_eq link hplace hstaged hsaved] at hlink
      exact hpending.no_links other (hlater other hother) link goal hunder hbelow hlink

/-- A swap makes room and places the file at the end of its path. -/
theorem SwappedIn.placed (hready : merging.Ready files base) {swap : Swap}
    {seen : List (Place × Kind)} {after : FileTree}
    (hswapped : merging.SwappedIn made file tree swap seen after) :
    ∃ mid arrival, tree.GrowsBy made mid ∧ mid.Grounded ∧
      mid.walk merging.cwd .never (merging.targetPath file) = .ok arrival ∧
      merging.Placed file mid after arrival.place := by
  cases hswapped with
  | @added mid _ place forDirectory content hroom hgrounded htarget hmoved =>
    exact ⟨mid, .free place forDirectory, hroom, hgrounded, htarget, placed_of_added hmoved⟩
  | @covered mid _ place entry content hroom hgrounded htarget hmoved =>
    exact ⟨mid, .taken place entry, hroom, hgrounded, htarget, placed_of_added hmoved⟩
  | @replaced mid _ _ place entry content haside hmoved =>
    exact ⟨mid, .taken place entry, haside.room, haside.grounded, haside.target_eq,
      haside.placed hready hmoved⟩

/-- After a swap of the next file, those that come after it are still to be swapped in. -/
theorem SwappedIn.rest_pending (hready : merging.Ready files base)
    (hpending : merging.Pending files base (file :: rest) tree) {swap : Swap}
    {seen : List (Place × Kind)} {after : FileTree}
    (hswapped : merging.SwappedIn made file tree swap seen after) :
    merging.Pending files base rest after := by
  obtain ⟨mid, arrival, hroom, hgrounded, -, hplaced⟩ := hswapped.placed hready
  exact hplaced.rest_pending hready (hpending.grows hroom.grows hgrounded)

/-- A swap brings no links. -/
theorem SwappedIn.linkFree {swap : Swap} {seen : List (Place × Kind)} {after : FileTree}
    (hswapped : merging.SwappedIn made file tree swap seen after) (hlinks : tree.LinkFree) :
    after.LinkFree := by
  cases hswapped with
  | added hroom hgrounded htarget hmoved => exact (hlinks.grows hroom.grows).moved hmoved
  | covered hroom hgrounded htarget hmoved => exact (hlinks.grows hroom.grows).moved hmoved
  | replaced haside hmoved =>
    exact ((hlinks.grows haside.room.grows).moved haside.moved).moved hmoved

end Merging

end SchemaBindings.Bindings
