import SchemaBindings.Proofs.FileTree.Runs
import SchemaBindings.Proofs.FileTree.Walks

/-!
# What changes of a disk do to its tree

A change that fails leaves the tree as it is. One that succeeds puts one entry or moves one, and
keeps trees grounded. Making directories only adds directories where nothing was.
-/

namespace SchemaBindings

/-! ## Relations between trees -/

namespace FileTree

/-- Whether a tree is another one with more directories, at certain places where nothing was. -/
def GrowsBy (made : Place → Prop) (before after : FileTree) : Prop :=
  ∀ place, after.entryAt? place = before.entryAt? place ∨
    (before.entryAt? place = none ∧ after.entryAt? place = some .directory ∧ made place)

/-- Whether a tree is another one with more directories where nothing was. -/
def Grows (before after : FileTree) : Prop :=
  before.GrowsBy (fun _ => True) after

/-- Whether what is at a place is what was there, or a directory where nothing was. If the place is
loose, anything may stand in for a file or for nothing. -/
def KeptAt (loose : Place → Prop) (before after : FileTree) (place : Place) : Prop :=
  after.entryAt? place = before.entryAt? place ∨
    (before.entryAt? place = none ∧ after.entryAt? place = some .directory) ∨
    (loose place ∧ ¬ before.Leads place)

/-- Whether a tree is another one with more directories where nothing was, except for loose
places. -/
def Kept (loose : Place → Prop) (before after : FileTree) : Prop :=
  ∀ place, before.KeptAt loose after place

/-- A tree grows by nothing to itself. -/
theorem GrowsBy.refl (made : Place → Prop) (tree : FileTree) : tree.GrowsBy made tree :=
  fun _ => .inl rfl

/-- A tree that grows twice by entries at some places has grown by entries at these places. -/
theorem GrowsBy.trans {made : Place → Prop} {before between after : FileTree}
    (hfirst : before.GrowsBy made between) (hsecond : between.GrowsBy made after) :
    before.GrowsBy made after := by
  intro place
  rcases hsecond place with hsame | ⟨hnone, hdirectory, hmade⟩
  · rw [hsame]
    exact hfirst place
  · rcases hfirst place with hsame | ⟨-, hbetween, -⟩
    · exact .inr ⟨hsame ▸ hnone, hdirectory, hmade⟩
    · rw [hnone] at hbetween
      contradiction

/-- What grows at certain places grows. -/
theorem GrowsBy.grows {made : Place → Prop} {before after : FileTree}
    (h : before.GrowsBy made after) :
    before.Grows after := by
  intro place
  rcases h place with hsame | ⟨hnone, hdirectory, -⟩
  · exact .inl hsame
  · exact .inr ⟨hnone, hdirectory, trivial⟩

/-- What grows is kept. -/
theorem Grows.kept {before after : FileTree} (h : before.Grows after) (loose : Place → Prop) :
    before.Kept loose after := by
  intro place
  rcases h place with hsame | ⟨hnone, hdirectory, -⟩
  · exact .inl hsame
  · exact .inr (.inl ⟨hnone, hdirectory⟩)

/-- Whether a tree has all directories of another one, and more at certain places only. -/
structure Spreads (made : Place → Prop) (before after : FileTree) : Prop where
  kept : ∀ place, before.entryAt? place = some .directory → after.entryAt? place = some .directory
  made : ∀ place, after.entryAt? place = some .directory → before.entryAt? place = some .directory ∨
    made place

/-- A tree spreads to itself. -/
theorem Spreads.refl (made : Place → Prop) (tree : FileTree) : tree.Spreads made tree :=
  ⟨fun _ h => h, fun _ h => .inl h⟩

/-- A tree that spreads twice at some places has spread at these places. -/
theorem Spreads.trans {made : Place → Prop} {before between after : FileTree}
    (hfirst : before.Spreads made between) (hsecond : between.Spreads made after) :
    before.Spreads made after :=
  ⟨fun place h => hsecond.kept place (hfirst.kept place h),
    fun place h => (hsecond.made place h).elim (hfirst.made place) .inr⟩

/-- A tree that spreads at some places spreads at more of them. -/
theorem Spreads.mono {made more : Place → Prop} {before after : FileTree}
    (h : before.Spreads made after) (hmore : ∀ place, made place → more place) :
    before.Spreads more after :=
  ⟨h.kept, fun place hplace => (h.made place hplace).imp_right (hmore place)⟩

/-- What grows at certain places has more directories there. -/
theorem GrowsBy.spreads {made : Place → Prop} {before after : FileTree}
    (h : before.GrowsBy made after) :
    before.Spreads made after := by
  refine ⟨fun place hplace => ?_, fun place hplace => ?_⟩
  · rcases h place with hsame | ⟨hnone, -⟩
    · exact hsame.trans hplace
    · simp [hnone] at hplace
  · rcases h place with hsame | ⟨-, -, hmade⟩
    · exact .inl (hsame.symm.trans hplace)
    · exact .inr hmade

/-- Moving a file or a link moves no directory. -/
theorem Moved.spreads {tree moved : FileTree} {source target : Place} {entry : Entry}
    (hmoved : Moved tree source target entry moved) (made : Place → Prop) :
    tree.Spreads made moved := by
  have hsame : ∀ place, moved.entryAt? place = some .directory ↔
      tree.entryAt? place = some .directory := by
    intro place
    rw [hmoved.entryAt?_eq]
    split
    · next htarget =>
      exact iff_of_false (by simpa using hmoved.plain) (htarget ▸ hmoved.target_plain)
    · split
      · next hsource => exact iff_of_false (by simp) (hsource ▸ hmoved.source_plain)
      · exact Iff.rfl
  exact ⟨fun place => (hsame place).mpr, fun place h => .inl ((hsame place).mp h)⟩

/-- Emptying a place of a file or a link takes no directory away. -/
theorem spreads_of_emptied {before after : FileTree} {place : Place}
    (hplain : before.entryAt? place ≠ some .directory)
    (h : ∀ other, after.entryAt? other = if other = place then none else before.entryAt? other)
    (made : Place → Prop) :
    before.Spreads made after := by
  refine ⟨fun other hother => ?_, fun other hother => .inl ?_⟩
  · rwa [h, if_neg fun hsame : other = place => hplain (hsame ▸ hother)]
  · rw [h] at hother
    split at hother
    · contradiction
    · exact hother

/-- Where nothing is, no walk goes on. -/
theorem not_leads_of_eq_none {tree : FileTree} {place : Place} (h : tree.entryAt? place = none) :
    ¬ tree.Leads place := by
  simp [Leads, h]

/-- Where a file is, no walk goes on. -/
theorem not_leads_of_file {tree : FileTree} {place : Place} {content : ByteArray}
    (h : tree.entryAt? place = some (.file content)) : ¬ tree.Leads place := by
  simp [Leads, h]

/-- Where a walk may go on, what is kept is the same. -/
theorem KeptAt.eq_of_leads {loose : Place → Prop} {before after : FileTree} {place : Place}
    (h : before.KeptAt loose after place) (hleads : before.Leads place) :
    after.entryAt? place = before.entryAt? place := by
  rcases h with hsame | ⟨hnone, -⟩ | ⟨-, hnot⟩
  · exact hsame
  · exact absurd hleads (not_leads_of_eq_none hnone)
  · exact absurd hleads hnot

/-- What is kept at a place by two changes is kept there by both of them together. -/
theorem KeptAt.trans {loose : Place → Prop} {before between after : FileTree} {place : Place}
    (hfirst : before.KeptAt loose between place) (hsecond : between.KeptAt loose after place) :
    before.KeptAt loose after place := by
  rcases hfirst with hsame | ⟨hnone, hdirectory⟩ | hloose
  · rw [KeptAt, ← hsame, Leads, ← hsame]
    exact hsecond
  · right; left
    rw [hsecond.eq_of_leads (.inl hdirectory)]
    exact ⟨hnone, hdirectory⟩
  · exact .inr (.inr hloose)

/-- What is kept at a place is kept there with more exceptions. -/
theorem KeptAt.mono {loose more : Place → Prop} {before after : FileTree} {place : Place}
    (h : before.KeptAt loose after place) (hmore : loose place → more place) :
    before.KeptAt more after place := by
  rcases h with hsame | hnew | ⟨hloose, hnot⟩
  · exact .inl hsame
  · exact .inr (.inl hnew)
  · exact .inr (.inr ⟨hmore hloose, hnot⟩)

/-- What is kept keeps its directories and links. -/
theorem Kept.keeps {loose : Place → Prop} {before after : FileTree} (h : before.Kept loose after) :
    before.Keeps after :=
  fun place hleads => (h place).eq_of_leads hleads

/-- What keeps its directories and links is kept, if anything may become of the rest. -/
theorem Keeps.kept {before after : FileTree} (h : before.Keeps after) :
    before.Kept (fun _ => True) after := by
  intro place
  by_cases hleads : before.Leads place
  · exact .inl (h place hleads)
  · exact .inr (.inr ⟨trivial, hleads⟩)

/-- What is kept by two changes is kept by both of them together. -/
theorem Kept.trans {loose : Place → Prop} {before between after : FileTree}
    (hfirst : before.Kept loose between) (hsecond : between.Kept loose after) :
    before.Kept loose after :=
  fun place => (hfirst place).trans (hsecond place)

/-- What is kept is kept with more exceptions. -/
theorem Kept.mono {loose more : Place → Prop} {before after : FileTree}
    (h : before.Kept loose after) (hmore : ∀ place, loose place → more place) :
    before.Kept more after :=
  fun place => (h place).mono (hmore place)

/-- Whether what is at a place is kept, or it was a file, the place is lost, and nothing is there
any more. -/
def SparedAt (loose lost : Place → Prop) (before after : FileTree) (place : Place) : Prop :=
  before.KeptAt loose after place ∨
    (lost place ∧ (∃ content, before.entryAt? place = some (.file content)) ∧
      after.entryAt? place = none)

/-- Whether a tree is another one with more directories where nothing was, except for loose places,
and without the files at lost places. -/
def Spared (loose lost : Place → Prop) (before after : FileTree) : Prop :=
  ∀ place, before.SparedAt loose lost after place

/-- What is kept is spared, whatever is lost. -/
theorem Kept.spared {loose : Place → Prop} {before after : FileTree} (h : before.Kept loose after)
    (lost : Place → Prop) :
    before.Spared loose lost after :=
  fun place => .inl (h place)

/-- Where a walk may go on, what is spared is the same. -/
theorem SparedAt.eq_of_leads {loose lost : Place → Prop} {before after : FileTree} {place : Place}
    (h : before.SparedAt loose lost after place) (hleads : before.Leads place) :
    after.entryAt? place = before.entryAt? place := by
  rcases h with hkept | ⟨-, ⟨content, hfile⟩, -⟩
  · exact hkept.eq_of_leads hleads
  · exact absurd hleads (not_leads_of_file hfile)

/-- What is kept and then spared is spared. -/
theorem KeptAt.trans_spared {loose lost : Place → Prop} {before between after : FileTree}
    {place : Place} (hfirst : before.KeptAt loose between place)
    (hsecond : between.SparedAt loose lost after place) :
    before.SparedAt loose lost after place := by
  rcases hsecond with hkept | ⟨hlost, ⟨content, hfile⟩, hgone⟩
  · exact .inl (hfirst.trans hkept)
  · rcases hfirst with hsame | ⟨-, hdirectory⟩ | hloose
    · exact .inr ⟨hlost, ⟨content, hsame ▸ hfile⟩, hgone⟩
    · simp [hdirectory] at hfile
    · exact .inl (.inr (.inr hloose))

/-- What is spared at a place is spared there with more exceptions. -/
theorem SparedAt.mono {loose more lost gone : Place → Prop} {before after : FileTree}
    {place : Place} (h : before.SparedAt loose lost after place) (hmore : loose place → more place)
    (hgone : lost place → gone place) :
    before.SparedAt more gone after place :=
  h.imp (fun hkept => hkept.mono hmore) fun ⟨hlost, hfile⟩ => ⟨hgone hlost, hfile⟩

/-- What is spared is spared with more exceptions. -/
theorem Spared.mono {loose more lost gone : Place → Prop} {before after : FileTree}
    (h : before.Spared loose lost after) (hmore : ∀ place, loose place → more place)
    (hgone : ∀ place, lost place → gone place) :
    before.Spared more gone after :=
  fun place => (h place).mono (hmore place) (hgone place)

/-- What is kept and then spared is spared. -/
theorem Kept.trans_spared {loose lost : Place → Prop} {before between after : FileTree}
    (hfirst : before.Kept loose between) (hsecond : between.Spared loose lost after) :
    before.Spared loose lost after :=
  fun place => (hfirst place).trans_spared (hsecond place)

/-- What is spared is kept if nothing is lost. -/
theorem Spared.kept {loose lost : Place → Prop} {before after : FileTree}
    (h : before.Spared loose lost after) (hnone : ∀ place, ¬ lost place) :
    before.Kept loose after :=
  fun place => (h place).resolve_right fun hgone => hnone place hgone.1

/-- What is spared keeps its directories and links. -/
theorem Spared.keeps {loose lost : Place → Prop} {before after : FileTree}
    (h : before.Spared loose lost after) :
    before.Keeps after :=
  fun place hleads => (h place).eq_of_leads hleads

/-- Where a tree grows, everything stays. -/
theorem Grows.extends {before after : FileTree} (h : before.Grows after) {place : Place}
    {entry : Entry} (hentry : before.entryAt? place = some entry) :
    after.entryAt? place = some entry := by
  rcases h place with hsame | ⟨hnone, -⟩
  · rw [hsame, hentry]
  · rw [hnone] at hentry
    contradiction

/-- Where a tree grows, what is there and is no directory was there. -/
theorem Grows.eq_some_of_plain {before after : FileTree} (h : before.Grows after) {place : Place}
    {entry : Entry} (hentry : after.entryAt? place = some entry) (hplain : entry ≠ .directory) :
    before.entryAt? place = some entry := by
  rcases h place with hsame | ⟨-, hdirectory, -⟩
  · rw [← hsame, hentry]
  · rw [hdirectory] at hentry
    exact absurd (Option.some.inj hentry).symm hplain

/-- Where a tree grows and nothing is, nothing was. -/
theorem Grows.eq_none {before after : FileTree} (h : before.Grows after) {place : Place}
    (hnone : after.entryAt? place = none) : before.entryAt? place = none := by
  rcases h place with hsame | ⟨hbefore, -⟩
  · rw [← hsame, hnone]
  · exact hbefore

/-- What grows keeps its directories and links. -/
theorem Grows.keeps {before after : FileTree} (h : before.Grows after) : before.Keeps after :=
  (h.kept fun _ => False).keeps

/-! ## Single changes -/

/-- Making a directory puts one at a free place. -/
theorem makeDirectory_eq_ok {tree made : FileTree} {cwd : Place} {path : Path}
    (h : tree.makeDirectory cwd path = .ok made) :
    ∃ place forDirectory, tree.walk cwd .never path = .ok (.free place forDirectory) ∧
      made = tree.put place .directory := by
  unfold makeDirectory at h
  split at h
  · next place forDirectory hwalk => exact ⟨place, forDirectory, hwalk, (Except.ok.inj h).symm⟩
  · contradiction
  · contradiction

/-- Writing puts a file where the walk ends, at a free place or over another file. -/
theorem write_eq_ok {tree written : FileTree} {cwd : Place} {path : Path} {content : ByteArray}
    (h : tree.write cwd path content = .ok written) :
    ∃ arrival, tree.walk cwd .through path = .ok arrival ∧ arrival.ForFile ∧
      written = tree.put arrival.place (.file content) := by
  unfold write at h
  split at h
  · next place hwalk => exact ⟨_, hwalk, rfl, (Except.ok.inj h).symm⟩
  · contradiction
  · next place old hwalk => exact ⟨_, hwalk, trivial, (Except.ok.inj h).symm⟩
  · contradiction
  · contradiction

/-- A place where a walk ends, and where no directory is, fits a file. -/
theorem fits_of_sound {tree : FileTree} (hgrounded : tree.Grounded) {arrival : Arrival}
    (h : arrival.Sound tree) (hplain : tree.entryAt? arrival.place ≠ some .directory) :
    tree.Fits arrival.place := by
  cases arrival with
  | free place forDirectory => exact ⟨h.2.1, h.2.2, hplain⟩
  | taken place entry =>
    refine ⟨?_, hgrounded.directory_dropLast ?_, hplain⟩
    · rintro rfl
      exact hplain rfl
    · rw [Arrival.place_taken, show tree.entryAt? place = some entry from h]
      exact Option.some_ne_none _

/-- Renaming a file or a link moves it from where the walk along its path ends to where the other
one does. -/
theorem moved_of_rename {tree renamed : FileTree} (hgrounded : tree.Grounded) {cwd : Place}
    (hcwd : tree.entryAt? cwd = some .directory) {source target : Path} {place : Place}
    {entry : Entry} (hsource : tree.walk cwd .never source = .ok (.taken place entry))
    (hplain : entry ≠ .directory) (h : tree.rename cwd source target = .ok renamed) :
    ∃ arrival, tree.walk cwd .never target = .ok arrival ∧
      Moved tree place arrival.place entry renamed := by
  have hentry : tree.entryAt? place = some entry := sound_of_walk hgrounded hcwd hsource
  cases htarget : tree.walk cwd .never target with
  | error obstacle =>
    unfold rename at h
    rw [hsource, htarget] at h
    cases entry <;> contradiction
  | ok arrival =>
    have hfile : tree.renameFile place arrival = .ok renamed := by
      unfold rename at h
      rw [hsource, htarget] at h
      cases entry with
      | directory => exact absurd rfl hplain
      | file content => exact h
      | link goal => exact h
    have hsound := sound_of_walk hgrounded hcwd htarget
    refine ⟨arrival, rfl, ?_⟩
    cases arrival with
    | free free forDirectory =>
      have hnone : tree.entryAt? free = none := hsound.1
      cases forDirectory with
      | true => contradiction
      | false =>
        obtain rfl := Except.ok.inj hfile
        refine moved_move hgrounded hentry hplain
          (fits_of_sound hgrounded hsound (by simp [hnone])) ?_
        rintro rfl
        rw [hnone] at hentry
        contradiction
    | taken other covered =>
      have hcovered : tree.entryAt? other = some covered := hsound
      have hmoved (hne : covered ≠ .directory)
          (hif : (if place = other then .ok tree else .ok (tree.move place other) : Except
            Obstacle FileTree) = .ok renamed) :
          Moved tree place other entry renamed := by
        split at hif
        · next hsame =>
          obtain rfl := Except.ok.inj hif
          obtain rfl := hsame
          exact moved_self hgrounded hentry hplain
        · next hother =>
          obtain rfl := Except.ok.inj hif
          exact moved_move hgrounded hentry hplain
            (fits_of_sound hgrounded hsound (by simpa [hcovered])) hother
      cases covered with
      | directory => contradiction
      | file content => exact hmoved (by simp) hfile
      | link goal => exact hmoved (by simp) hfile

/-- Renaming a directory moves it to where the walk along the other path ends, unless it is
there. -/
theorem movedDirectory_of_rename {tree renamed : FileTree} (hgrounded : tree.Grounded) {cwd : Place}
    (hcwd : tree.entryAt? cwd = some .directory) {source target : Path} {place : Place}
    (hsource : tree.walk cwd .never source = .ok (.taken place .directory)) (hnamed : place ≠ [])
    (h : tree.rename cwd source target = .ok renamed) :
    ∃ arrival, tree.walk cwd .never target = .ok arrival ∧
      (arrival.place ≠ place → MovedDirectory tree place arrival.place renamed) := by
  have hentry : tree.entryAt? place = some .directory := sound_of_walk hgrounded hcwd hsource
  cases htarget : tree.walk cwd .never target with
  | error obstacle =>
    unfold rename at h
    rw [hsource, htarget] at h
    contradiction
  | ok arrival =>
    have hrename : tree.renameDirectory place arrival = .ok renamed := by
      unfold rename at h
      rwa [hsource, htarget] at h
    have hsound := sound_of_walk hgrounded hcwd htarget
    refine ⟨arrival, rfl, fun hne => ?_⟩
    cases arrival with
    | free free forDirectory =>
      simp only [renameDirectory] at hrename
      split at hrename
      · contradiction
      · next hapart =>
        rw [List.isPrefixOf_iff_prefix] at hapart
        refine ⟨hentry, hnamed, hsound.2.1, hsound.2.2, fun other hbelow hother => ?_, hapart,
          (Except.ok.inj hrename).symm⟩
        exact hgrounded.eq_none_of_below (by simp [hsound.1]) hbelow hother
    | taken other covered =>
      cases covered with
      | file content => contradiction
      | link goal => contradiction
      | directory =>
        simp only [renameDirectory] at hrename
        split at hrename
        · next hsame => exact absurd hsame.symm hne
        split at hrename
        · contradiction
        · next hapart =>
          rw [List.isPrefixOf_iff_prefix] at hapart
          split at hrename
          · next hempty =>
            have hnone : ∀ lower, other <+: lower → lower ≠ other → tree.entryAt? lower = none :=
              fun lower hbelow hlower => eq_none_of_below_isEmpty hempty hbelow hlower
            have hother : other ≠ [] := by
              rintro rfl
              rw [hnone place List.nil_prefix hnamed] at hentry
              contradiction
            exact ⟨hentry, hnamed, hother, hgrounded.directory_dropLast
              (hsound ▸ Option.some_ne_none _), hnone, hapart, (Except.ok.inj hrename).symm⟩
          · contradiction

/-- Removing a file empties the place where the walk along its path ends, and no other. -/
theorem removeFile_eq_ok {tree removed : FileTree} (hgrounded : tree.Grounded) {cwd : Place}
    (hcwd : tree.entryAt? cwd = some .directory) {path : Path}
    (h : tree.removeFile cwd path = .ok removed) :
    ∃ place entry, tree.walk cwd .unlessSlash path = .ok (.taken place entry) ∧ entry ≠ .directory ∧
      removed.Grounded ∧
      ∀ other, removed.entryAt? other = if other = place then none else tree.entryAt? other := by
  unfold removeFile at h
  split at h
  · contradiction
  · next place entry hplain hwalk =>
    obtain rfl := Except.ok.inj h
    have hentry : tree.entryAt? place = some entry := sound_of_walk hgrounded hcwd hwalk
    have hne : entry ≠ .directory := fun heq => hplain heq
    have hnamed : place ≠ [] := by
      rintro rfl
      exact hne (Option.some.inj hentry).symm
    exact ⟨place, entry, hwalk, hne, hgrounded.remove hnamed,
      entryAt?_remove_plain hgrounded hentry hne⟩
  · contradiction
  · contradiction

/-- Looking at what is at a path itself tells where the walk along the path ends and what is there,
if anything is. -/
theorem lookAt_cases (tree : FileTree) (cwd : Place) (path : Path) :
    (∃ place entry, tree.find? cwd .unlessSlash path = some (place, entry) ∧
        tree.lookAt cwd path = .ok (place, entry.kind)) ∨
      (tree.find? cwd .unlessSlash path = none ∧
        ∃ obstacle, tree.lookAt cwd path = .error obstacle) := by
  rw [find?, lookAt]
  cases tree.walk cwd .unlessSlash path with
  | error obstacle => exact .inr ⟨rfl, obstacle, rfl⟩
  | ok arrival =>
    cases arrival with
    | taken place entry => exact .inl ⟨place, entry, rfl, rfl⟩
    | free place forDirectory => exact .inr ⟨rfl, _, rfl⟩

end FileTree

/-! ## Changes of a disk -/

namespace Disk

variable {disk after : Disk}

/-- What was noted on a disk. -/
def notes (disk : Disk) : List Path × List (Place × Kind) :=
  (disk.unsettled, disk.overlooked)

/-- Whether a disk is another one up to the failures to come. -/
structure Unchanged (disk after : Disk) : Prop where
  tree_eq : after.tree = disk.tree
  notes_eq : after.notes = disk.notes

/-- A question is answered from the tree and changes nothing. -/
theorem asks_iff {α : Type} {question : FileTree → α} {answer : α} :
    Gives (asks question) disk answer after ↔ answer = question disk.tree ∧ after = disk := by
  change (question disk.tree, disk) = (answer, after) ↔ _
  rw [Prod.mk.injEq, eq_comm, @eq_comm _ disk]

/-- To ask whether it is the turn of a failure takes the turn and changes nothing else. -/
theorem unchanged_of_fails {answer : Bool} (h : Gives fails disk answer after) :
    Unchanged disk after := by
  obtain ⟨-, rfl⟩ := Prod.mk.inj h
  exact ⟨rfl, rfl⟩

/-- Trying a change makes it, or fails and leaves the tree as it is. -/
theorem attempt_cases {path : Path} {change : FileTree → Except Obstacle FileTree}
    {outcome : Except Obstacle Unit} (h : Ends (attempt path change) disk outcome after) :
    after.notes = disk.notes ∧ ((outcome = .ok () ∧ change disk.tree = .ok after.tree) ∨
      ∃ obstacle, outcome = .error obstacle ∧ after.tree = disk.tree) := by
  have hrun : attempt path change disk = (outcome, after) := h
  unfold attempt at hrun
  split at hrun
  · obtain ⟨rfl, rfl⟩ := Prod.mk.inj hrun
    exact ⟨rfl, .inr ⟨_, rfl, rfl⟩⟩
  · split at hrun
    · next tree hchange =>
      split at hrun
      · obtain ⟨rfl, rfl⟩ := Prod.mk.inj hrun
        exact ⟨rfl, .inl ⟨rfl, hchange⟩⟩
      · obtain ⟨rfl, rfl⟩ := Prod.mk.inj hrun
        exact ⟨rfl, .inr ⟨_, rfl, rfl⟩⟩
    · obtain ⟨rfl, rfl⟩ := Prod.mk.inj hrun
      exact ⟨rfl, .inr ⟨_, rfl, rfl⟩⟩

variable {cwd : Place}

/-- Writing a file writes it, or fails and leaves the tree as it is. -/
theorem write_cases {path : Path} {content : ByteArray} {outcome : Except Obstacle Unit}
    (h : Ends ((storage cwd).write path content) disk outcome after) :
    after.notes = disk.notes ∧
      ((outcome = .ok () ∧ disk.tree.write cwd path content = .ok after.tree) ∨
      ∃ obstacle, outcome = .error obstacle ∧ after.tree = disk.tree) := by
  have hattempt : Ends (attempt path fun tree => tree.write cwd path content) disk outcome after :=
    h
  exact attempt_cases hattempt

/-- Renaming something renames it, or fails and leaves the tree as it is. -/
theorem rename_cases {source target : Path} {outcome : Except Obstacle Unit}
    (h : Ends ((storage cwd).rename source target) disk outcome after) :
    after.notes = disk.notes ∧
      ((outcome = .ok () ∧ disk.tree.rename cwd source target = .ok after.tree) ∨
      ∃ obstacle, outcome = .error obstacle ∧ after.tree = disk.tree) := by
  have hattempt : Ends (attempt target fun tree => tree.rename cwd source target)
      disk outcome after := h
  exact attempt_cases hattempt

/-- Undoing makes a change, or it is noted that it was refused. -/
theorem settle_cases {path : Path} {change : FileTree → Except Obstacle FileTree} {result : Unit}
    (h : Gives (settle path change) disk result after) :
    after.overlooked = disk.overlooked ∧
      ((change disk.tree = .ok after.tree ∧ after.unsettled = disk.unsettled) ∨
      after.unsettled = path :: disk.unsettled) := by
  have hrun := (Prod.mk.inj h).2
  beta_reduce at hrun
  split at hrun
  · next tree hchange =>
    rw [← hrun]
    exact ⟨rfl, .inl ⟨hchange, rfl⟩⟩
  · rw [← hrun]
    exact ⟨rfl, .inr rfl⟩

/-- Renaming back renames, or it is noted that it was refused. -/
theorem restore_cases {source target : Path} {result : Unit}
    (h : Gives ((storage cwd).restore source target) disk result after) :
    after.overlooked = disk.overlooked ∧
      ((disk.tree.rename cwd source target = .ok after.tree ∧ after.unsettled = disk.unsettled) ∨
        after.unsettled = target :: disk.unsettled) := by
  have hsettle : Gives (settle target fun tree => tree.rename cwd source target)
      disk result after := h
  exact settle_cases hsettle

/-- Removing a file removes it, or it is noted that it was refused. -/
theorem removeFile_cases {path : Path} {result : Unit}
    (h : Gives ((storage cwd).removeFile path) disk result after) :
    after.overlooked = disk.overlooked ∧
      ((disk.tree.removeFile cwd path = .ok after.tree ∧ after.unsettled = disk.unsettled) ∨
        after.unsettled = path :: disk.unsettled) := by
  have hsettle : Gives (settle path fun tree => tree.removeFile cwd path) disk result after := h
  exact settle_cases hsettle

/-- Clearing away whatever is at a path notes nothing. -/
theorem removeAll_cases {path : Path} {result : Unit}
    (h : Gives ((storage cwd).removeAll path) disk result after) :
    after.tree = disk.tree.removeAll cwd path ∧ after.notes = disk.notes := by
  have hrun : { disk with tree := disk.tree.removeAll cwd path } = after := (Prod.mk.inj h).2
  rw [← hrun]
  exact ⟨rfl, rfl⟩

/-! ## Making directories -/

/-- Whether a disk is another one after directories were made at certain places. -/
structure Widened (made : Place → Prop) (disk after : Disk) : Prop where
  grows : disk.tree.GrowsBy made after.tree
  grounded : after.tree.Grounded
  notes_eq : after.notes = disk.notes

/-- A disk on which nothing is made is widened. -/
theorem Widened.refl (made : Place → Prop) (hgrounded : disk.tree.Grounded) :
    Widened made disk disk :=
  ⟨.refl made disk.tree, hgrounded, rfl⟩

/-- A disk that is widened twice is widened. -/
theorem Widened.trans {made : Place → Prop} {between : Disk} (hfirst : Widened made disk between)
    (hsecond : Widened made between after) : Widened made disk after :=
  ⟨hfirst.grows.trans hsecond.grows, hsecond.grounded, hsecond.notes_eq.trans hfirst.notes_eq⟩

/-- Where nothing has changed before a disk was widened, it was widened from before. -/
theorem Unchanged.widened {made : Place → Prop} {between : Disk} (hsame : Unchanged disk between)
    (h : Widened made between after) : Widened made disk after :=
  ⟨hsame.tree_eq ▸ h.grows, h.grounded, h.notes_eq.trans hsame.notes_eq⟩

/-- Where nothing has changed since a disk was widened, it still is. -/
theorem Widened.unchanged {made : Place → Prop} {between : Disk} (h : Widened made disk between)
    (hsame : Unchanged between after) : Widened made disk after :=
  ⟨hsame.tree_eq ▸ h.grows, hsame.tree_eq ▸ h.grounded, hsame.notes_eq.trans h.notes_eq⟩

variable {made : Place → Prop}

/-- Making a directory adds one where the walk along its path ends, or nothing. -/
theorem widened_of_makeDirectory (hgrounded : disk.tree.Grounded)
    (hcwd : disk.tree.entryAt? cwd = some .directory) {path : Path}
    (hmade : ∀ place forDirectory, disk.tree.walk cwd .never path = .ok (.free place forDirectory) →
      made place)
    {outcome : Except Obstacle Unit}
    (h : Ends ((storage cwd).makeDirectory path) disk outcome after) :
    Widened made disk after := by
  have hattempt : Ends (attempt path fun tree => tree.makeDirectory cwd path) disk outcome after :=
    h
  obtain ⟨hnotes, ⟨-, hchange⟩ | ⟨obstacle, -, hsame⟩⟩ := attempt_cases hattempt
  · obtain ⟨place, forDirectory, hwalk, hput⟩ := FileTree.makeDirectory_eq_ok hchange
    have hsound := FileTree.sound_of_walk hgrounded hcwd hwalk
    refine ⟨fun other => ?_, ?_, hnotes⟩
    · rw [hput, FileTree.entryAt?_put_eq _ hsound.2.1]
      split
      · next hother => exact .inr ⟨hother ▸ hsound.1, rfl, hother ▸ hmade place forDirectory hwalk⟩
      · exact .inl rfl
    · rw [hput]
      exact hgrounded.put hsound.2.1 hsound.2.2 fun _ => rfl
  · exact ⟨hsame ▸ .refl made disk.tree, hsame ▸ hgrounded, hnotes⟩

/-- Looking for what a path leads to changes nothing, and what seems to be there is. -/
theorem kind?_cases {path : Path} {answer : Option Kind}
    (h : Gives ((storage cwd).kind? path) disk answer after) :
    Unchanged disk after ∧ ∀ kind, answer = some kind →
      (disk.tree.find? cwd .through path).map (fun found => found.2.kind) = some kind := by
  obtain ⟨failed, between, hturn, hrest⟩ := Gives.bind_iff.mp h
  have hsame := unchanged_of_fails hturn
  cases failed with
  | true =>
    obtain ⟨rfl, rfl⟩ := Gives.pure_iff.mp hrest
    exact ⟨hsame, nofun⟩
  | false =>
    rw [if_neg Bool.false_ne_true] at hrest
    obtain ⟨hanswer, rfl⟩ := asks_iff.mp hrest
    exact ⟨hsame, fun kind hkind => by rw [← hkind, hanswer, hsame.tree_eq]⟩

/-- Looking at what is at a path itself tells what is there, or that nothing is, or overlooks what
is there. -/
theorem ownKind_cases {path : Path} {outcome : Except Obstacle Kind}
    (h : Ends ((storage cwd).ownKind path) disk outcome after) :
    after.tree = disk.tree ∧ after.unsettled = disk.unsettled ∧
      ((∃ place entry, outcome = .ok entry.kind ∧ disk.tree.find? cwd .unlessSlash path =
        some (place, entry) ∧
          after.overlooked = disk.overlooked) ∨
        ∃ obstacle, outcome = .error obstacle ∧
          ((disk.tree.find? cwd .unlessSlash path = none ∧ after.overlooked = disk.overlooked) ∨
            ∃ place entry, disk.tree.find? cwd .unlessSlash path = some (place, entry) ∧
              after.overlooked = (place, entry.kind) :: disk.overlooked)) := by
  have hseen := disk.tree.lookAt_cases cwd path
  obtain ⟨seen, asked, hasked, hrest⟩ := Gives.bind_iff.mp h
  obtain ⟨rfl, rfl⟩ := asks_iff.mp hasked
  obtain ⟨failed, between, hturn, hrest⟩ := Gives.bind_iff.mp hrest
  obtain ⟨htree, hnotes⟩ := unchanged_of_fails hturn
  obtain ⟨hunsettled, hoverlooked⟩ := Prod.mk.inj hnotes
  cases failed with
  | true =>
    obtain ⟨done, noted, hnoted, hrest⟩ := Gives.bind_iff.mp hrest
    obtain ⟨-, rfl⟩ := Prod.mk.inj hnoted
    obtain ⟨rfl, rfl⟩ := Gives.pure_iff.mp hrest
    refine ⟨htree, hunsettled, .inr ⟨_, rfl, ?_⟩⟩
    rcases hseen with ⟨place, entry, hfound, hseen⟩ | ⟨hnone, obstacle, hseen⟩
    · exact .inr ⟨place, entry, hfound, by simp [hseen, hoverlooked, Except.toOption]⟩
    · exact .inl ⟨hnone, by simp [hseen, hoverlooked, Except.toOption]⟩
  | false =>
    obtain ⟨rfl, rfl⟩ := Gives.pure_iff.mp hrest
    refine ⟨htree, hunsettled, ?_⟩
    rcases hseen with ⟨place, entry, hfound, hseen⟩ | ⟨hnone, obstacle, hseen⟩
    · exact .inl ⟨place, entry, congrArg (Except.map Prod.snd) hseen, hfound, hoverlooked⟩
    · exact .inr ⟨obstacle, congrArg (Except.map Prod.snd) hseen, .inl ⟨hnone, hoverlooked⟩⟩

/-- Asking whether something is a directory changes nothing, and what is said to be one is. -/
theorem isDirectory_cases {path : Path} {answer : Bool}
    (h : Gives ((storage cwd).isDirectory path) disk answer after) :
    Unchanged disk after ∧ (answer = true →
      (disk.tree.find? cwd .through path).map (fun found => found.2.kind) = some .directory) := by
  obtain ⟨kind?, between, hasked, hrest⟩ := Gives.bind_iff.mp h
  obtain ⟨rfl, rfl⟩ := Gives.pure_iff.mp hrest
  obtain ⟨hsame, hkind⟩ := kind?_cases hasked
  exact ⟨hsame, fun hdirectory => hkind _ (of_decide_eq_true hdirectory)⟩

/-- Asking whether something is there changes nothing, and what is said to be there is. -/
theorem isThere_cases {path : Path} {answer : Bool}
    (h : Gives ((storage cwd).isThere path) disk answer after) :
    Unchanged disk after ∧ (answer = true → (disk.tree.find? cwd .through path).isSome) := by
  obtain ⟨kind?, between, hasked, hrest⟩ := Gives.bind_iff.mp h
  obtain ⟨rfl, rfl⟩ := Gives.pure_iff.mp hrest
  obtain ⟨hsame, hkind⟩ := kind?_cases hasked
  refine ⟨hsame, fun hthere => ?_⟩
  obtain ⟨kind, rfl⟩ := Option.isSome_iff_exists.mp hthere
  exact Option.isSome_map.symm.trans (Option.isSome_iff_exists.mpr ⟨kind, hkind kind rfl⟩)

/-- Letting a directory pass changes nothing. -/
theorem unchanged_of_orDirectory {path : Path} {obstacle : Obstacle}
    {outcome : Except Obstacle Unit}
    (h : Ends ((storage cwd).orDirectory path obstacle) disk outcome after) :
    Unchanged disk after := by
  obtain ⟨there, between, hasked, hrest⟩ := Ends.lift_bind_iff.mp h
  obtain ⟨hsame, -⟩ := isDirectory_cases hasked
  cases there with
  | true => exact (Ends.pure_iff.mp hrest).2 ▸ hsame
  | false => exact (Ends.throw_iff.mp hrest).2 ▸ hsame

/-- Making directories adds some where walks along the paths end. -/
theorem widened_of_makeInnermost {paths : List Path} (hgrounded : disk.tree.Grounded)
    (hcwd : disk.tree.entryAt? cwd = some .directory)
    (hmade : ∀ path ∈ paths, ∀ tree place forDirectory, disk.tree.Grows tree →
      tree.walk cwd .never path = .ok (.free place forDirectory) → made place)
    {outcome : Except Obstacle Unit}
    (h : Ends ((storage cwd).makeInnermost paths) disk outcome after) :
    Widened made disk after := by
  induction paths generalizing disk outcome after with
  | nil =>
    obtain ⟨-, rfl⟩ := Ends.pure_iff.mp h
    exact .refl made hgrounded
  | cons path outer ih =>
    have hmake : ∀ {before next : Disk} {result : Except Obstacle Unit}, Widened made disk before →
        Ends ((storage cwd).makeDirectory path) before result next → Widened made disk next := by
      intro before next result hwidened hends
      refine hwidened.trans
        (widened_of_makeDirectory hwidened.grounded ?_ (fun place forDirectory hwalk => ?_) hends)
      · exact hwidened.grows.grows.keeps.evolves.directory hcwd
      · exact hmade path List.mem_cons_self _ _ _ hwidened.grows.grows hwalk
    have hstart := Widened.refl made hgrounded
    rw [Storage.makeInnermost] at h
    split at h
    · obtain ⟨-, rfl⟩ := Ends.pure_iff.mp h
      exact hstart
    rcases Ends.tryCatch_iff.mp h with ⟨a, -, hfirst⟩ | ⟨obstacle, between, hfirst, hhandler⟩
    · exact hmake hstart hfirst
    have hbetween := hmake hstart hfirst
    split at hhandler
    · have houter : ∀ {result : Except Obstacle Unit} {next : Disk},
          Ends ((storage cwd).makeInnermost outer) between result next →
          Widened made disk next := by
        intro result next hends
        refine hbetween.trans (ih hbetween.grounded ?_ ?_ hends)
        · exact hbetween.grows.grows.keeps.evolves.directory hcwd
        · intro path hpath tree place forDirectory hgrows hwalk
          exact hmade path (List.mem_cons_of_mem _ hpath) tree place forDirectory
            (hbetween.grows.grows.trans hgrows) hwalk
      rcases Ends.bind_iff.mp hhandler with ⟨a, around, hends, hagain⟩ | ⟨e, -, hends⟩
      · rcases Ends.tryCatch_iff.mp hagain with ⟨a, -, hsecond⟩ | ⟨other, last, hsecond, hpass⟩
        · exact hmake (houter hends) hsecond
        · exact (hmake (houter hends) hsecond).unchanged (unchanged_of_orDirectory hpass)
      · exact houter hends
    · exact hbetween.unchanged (unchanged_of_orDirectory hhandler)

/-- Making a directory and those around it adds some where walks along the paths end. -/
theorem widened_of_makeDirectories {path : Path} (hgrounded : disk.tree.Grounded)
    (hcwd : disk.tree.entryAt? cwd = some .directory)
    (hmade : ∀ around ∈ path.ancestors, ∀ tree place forDirectory, disk.tree.Grows tree →
      tree.walk cwd .never around = .ok (.free place forDirectory) → made place)
    {outcome : Except Obstacle Unit}
    (h : Ends ((storage cwd).makeDirectories path) disk outcome after) :
    Widened made disk after :=
  widened_of_makeInnermost hgrounded hcwd hmade h

end Disk

end SchemaBindings
