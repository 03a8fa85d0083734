import SchemaBindings.Proofs.Bindings.Faultless
import SchemaBindings.Proofs.Bindings.Merging
import SchemaBindings.Proofs.FileTree.Steps

/-!
# Rolling back

Swaps are undone from the last one to the first. Undoing one gives back the tree from before it, up
to directories that were made and up to what is in the hidden directories. So undoing all of them
gives back the tree that the merge started from, and clearing the hidden directories away leaves
only directories that were made. Only a file that was overlooked is lost: it was not moved aside,
and undoing the swap removes what took its place.
-/

namespace SchemaBindings.Bindings

open SchemaBindings.FileTree

namespace Merging

variable {merging : Merging} {made : Place → Prop} {files rest : List OutputFile}
  {file : OutputFile} {base tree : FileTree}

/-! ## Undoing one swap -/

/-- Whether a place is where one of some files is staged, or where what it replaces is kept. -/
def Loose (merging : Merging) (pending : List OutputFile) (place : Place) : Prop :=
  ∃ file ∈ pending, place = merging.stagedPlace file ∨ place = merging.savedPlace file

/-- The place where the first file is staged is loose. -/
theorem loose_staged (merging : Merging) (file : OutputFile) (rest : List OutputFile) :
    merging.Loose (file :: rest) (merging.stagedPlace file) :=
  ⟨file, List.mem_cons_self, .inl rfl⟩

/-- The place where the file that the first one replaces is kept is loose. -/
theorem loose_saved (merging : Merging) (file : OutputFile) (rest : List OutputFile) :
    merging.Loose (file :: rest) (merging.savedPlace file) :=
  ⟨file, List.mem_cons_self, .inr rfl⟩

/-- A place that is loose for some files is loose for more of them. -/
theorem Loose.cons {place : Place} (h : merging.Loose rest place) (file : OutputFile) :
    merging.Loose (file :: rest) place := by
  obtain ⟨other, hother, hplace⟩ := h
  exact ⟨other, List.mem_cons_of_mem _ hother, hplace⟩

variable {lost : Place → Prop}

/-- Moving back what was moved aside gives back the tree from before, however little has changed
since. -/
theorem MovedAside.undone (hready : merging.Ready files base)
    (hpending : merging.Pending files base (file :: rest) tree) {place : Place} {entry : Entry}
    {mid aside later undone : FileTree}
    (haside : merging.MovedAside made file place entry tree mid aside) (hgrounded : later.Grounded)
    (hspared : ∀ other, other ≠ place →
      aside.SparedAt (merging.Loose (file :: rest)) lost later other)
    (hsaved : ∀ kept, later.entryAt? (merging.savedPlace file) = some kept → kept ≠ .directory ∧
      (merging.savedPlace file ≠ place → kept = entry))
    (hlink : ∀ goal, mid.entryAt? place = some (.link goal) → ¬ later.Leads place)
    (h : later.rename merging.cwd (merging.savedPath file) (merging.targetPath file) = .ok undone) :
    undone.Grounded ∧ tree.Spared (merging.Loose (file :: rest)) lost undone ∧
    later.Spreads (fun _ => False) undone := by
  have hmid := hpending.grows haside.room.grows haside.grounded
  have hsavedmid : ¬ mid.Leads (merging.savedPlace file) :=
    hmid.not_leads_saved haside.moved.target_plain
  have hevolves : mid.Evolves later := by
    intro other hleads
    have hother : other ≠ merging.savedPlace file := fun hsame => hsavedmid (hsame ▸ hleads)
    by_cases hplace : other = place
    · subst hplace
      refine .inr ⟨haside.moved.source_plain, ?_⟩
      rcases hleads with hdirectory | ⟨goal, hgoal⟩
      · exact absurd hdirectory haside.moved.source_plain
      · exact hlink goal hgoal
    · have hsame := haside.entryAt?_eq hplace hother
      rw [(hspared other hplace).eq_of_leads (by rwa [Leads, hsame]), hsame]
      exact .inl rfl
  have hcwd := hevolves.directory (hmid.cwd_eq hready)
  obtain ⟨source, found, hsource⟩ := walk_of_rename h
  obtain ⟨savedarrival, hsavedwalk, hsavedplace⟩ := haside.saved_eq
  obtain rfl : source = merging.savedPlace file :=
    (walk_place_eq_of_evolves hevolves hsavedwalk hsource).trans hsavedplace
  obtain ⟨hplain, hfound⟩ := hsaved found (sound_of_walk hgrounded hcwd hsource)
  obtain ⟨arrival, htarget, hmoved⟩ := moved_of_rename hgrounded hcwd hsource hplain h
  obtain rfl : arrival.place = place := walk_place_eq_of_evolves hevolves haside.target_eq htarget
  refine ⟨hmoved.grounded, fun other => ?_, hmoved.spreads _⟩
  have hgrows := haside.room.grows
  have hloose : tree.KeptAt (merging.Loose (file :: rest)) undone (merging.savedPlace file) :=
    .inr (.inr ⟨loose_saved merging file rest,
      fun hleads => hsavedmid (by rwa [Leads, hgrows.keeps _ hleads])⟩)
  by_cases hsame : other = merging.savedPlace file
  · exact hsame ▸ .inl hloose
  by_cases hplace : other = arrival.place
  · subst hplace
    refine .inl (.inl ?_)
    rw [hmoved.entryAt?_eq, if_pos rfl, hfound (Ne.symm hsame),
      hgrows.eq_some_of_plain haside.moved.source_eq haside.moved.plain]
  · have hlater := hspared other hplace
    rw [SparedAt, KeptAt, Leads, haside.entryAt?_eq hplace hsame] at hlater
    refine (hgrows.kept _ other).trans_spared ?_
    rw [SparedAt, KeptAt, hmoved.entryAt?_eq, if_neg hplace, if_neg hsame]
    exact hlater

/-- Removing what was moved in where no walk went on gives back the tree from before, without a file
that was there, however little has changed since. -/
theorem removed_undone (hready : merging.Ready files base)
    (hpending : merging.Pending files base (file :: rest) tree) {arrival : Arrival}
    {content : ByteArray} {mid swapped later undone : FileTree} (hroom : tree.GrowsBy made mid)
    (hmid : mid.Grounded)
    (htarget : mid.walk merging.cwd .never (merging.targetPath file) = .ok arrival)
    (hmoved : Moved mid (merging.stagedPlace file) arrival.place (.file content) swapped)
    (hbefore : mid.entryAt? arrival.place = none ∨
      (lost arrival.place ∧ ∃ old, mid.entryAt? arrival.place = some (.file old)))
    (hgrounded : later.Grounded) (hspared : swapped.Spared (merging.Loose rest) lost later)
    (h : later.removeFile merging.cwd (merging.targetPath file) = .ok undone) :
    undone.Grounded ∧ tree.Spared (merging.Loose (file :: rest)) lost undone ∧
    later.Spreads (fun _ => False) undone := by
  have hpendingmid := hpending.grows hroom.grows hmid
  have hnot : ¬ mid.Leads arrival.place := by
    rcases hbefore with hfree | ⟨-, old, hfile⟩
    · exact not_leads_of_eq_none hfree
    · exact not_leads_of_file hfile
  have hstaged : ¬ mid.Leads (merging.stagedPlace file) := not_leads_of_file hmoved.source_eq
  have hsame : ∀ {other : Place}, other ≠ arrival.place → other ≠ merging.stagedPlace file →
      swapped.entryAt? other = mid.entryAt? other := by
    intro other hplace hother
    rw [hmoved.entryAt?_eq, if_neg hplace, if_neg hother]
  have hevolves : mid.Evolves later := by
    intro other hleads
    have hplace : other ≠ arrival.place := fun heq => hnot (heq ▸ hleads)
    have hother : other ≠ merging.stagedPlace file := fun heq => hstaged (heq ▸ hleads)
    rw [(hspared other).eq_of_leads (by rwa [Leads, hsame hplace hother]), hsame hplace hother]
    exact .inl rfl
  have hcwd := hevolves.directory (hpendingmid.cwd_eq hready)
  obtain ⟨removed, entry, hwalk, hplain, hundone, hentry⟩ := removeFile_eq_ok hgrounded hcwd h
  have hthere : later.entryAt? removed = some entry := sound_of_walk hgrounded hcwd hwalk
  rw [hpendingmid.walk_target hready] at hwalk
  obtain rfl : removed = arrival.place := walk_place_eq_of_evolves hevolves htarget hwalk
  refine ⟨hundone, fun other => ?_, spreads_of_emptied (by simpa [hthere] using hplain) hentry _⟩
  by_cases hplace : other = arrival.place
  · subst hplace
    have hgone : undone.entryAt? arrival.place = none := by rw [hentry, if_pos rfl]
    rcases hbefore with hfree | ⟨hlost, old, hfile⟩
    · exact .inl (.inl (hgone.trans (hroom.grows.eq_none hfree).symm))
    · exact .inr ⟨hlost, ⟨old, hroom.grows.eq_some_of_plain hfile (by simp)⟩, hgone⟩
  by_cases hother : other = merging.stagedPlace file
  · subst hother
    refine .inl (.inr (.inr ⟨loose_staged merging file rest, fun hleads => hstaged ?_⟩))
    rwa [Leads, hroom.grows.keeps _ hleads]
  · have hlater := (hspared other).mono (fun hloose => hloose.cons file) id
    rw [SparedAt, KeptAt, Leads, hsame hplace hother] at hlater
    refine (hroom.grows.kept _ other).trans_spared ?_
    rw [SparedAt, KeptAt, hentry, if_neg hplace]
    exact hlater

/-- Whether a tree is another one after a swap was taken back. -/
def UndoneBy (cwd : Place) (swap : Swap) (before after : FileTree) : Prop :=
  match swap.saved? with
  | some saved => before.rename cwd saved swap.target = .ok after
  | none => before.removeFile cwd swap.target = .ok after

/-- What the next file replaces is kept where none of those that come after it is staged or has
anything kept. -/
theorem Pending.not_loose_saved (hready : merging.Ready files base)
    (hpending : merging.Pending files base (file :: rest) tree) :
    ¬ merging.Loose rest (merging.savedPlace file) := by
  intro hloose
  obtain ⟨other, hother, hstaged | hsaved⟩ := hloose
  · exact hready.saved_ne_staged file other hstaged
  · exact hpending.names_ne hready hother (List.append_cancel_left hsaved).symm

/-- Where files are staged or what they replace is kept, there are no links. -/
theorem Pending.ne_link_of_loose {pending : List OutputFile}
    (hpending : merging.Pending files base pending tree) {place : Place}
    (hloose : merging.Loose pending place) (goal : String) :
    tree.entryAt? place ≠ some (.link goal) := by
  obtain ⟨other, hother, rfl | rfl⟩ := hloose
  · obtain ⟨content, hcontent⟩ := hpending.staged other hother
    simp [hcontent]
  · exact hpending.no_links other hother _ goal (backupPlace_below other) List.prefix_rfl

/-- Whether nothing that was overlooked is a link. -/
def NoLinks (seen : List (Place × Kind)) : Prop :=
  ∀ found ∈ seen, found.2 ≠ .link

/-- Whether a file that was overlooked is at a place. -/
def Lost (seen : List (Place × Kind)) (place : Place) : Prop :=
  (place, .file) ∈ seen

/-- Where nothing was overlooked, no link was. -/
theorem noLinks_nil : NoLinks [] :=
  fun _ hfound => absurd hfound List.not_mem_nil

/-- Undoing a swap gives back the tree from before, without a file that it overlooked, however
little has changed since. -/
theorem SwappedIn.undone (hready : merging.Ready files base)
    (hpending : merging.Pending files base (file :: rest) tree) {swap : Swap}
    {seen : List (Place × Kind)} {swapped later undone : FileTree}
    (hswapped : merging.SwappedIn made file tree swap seen swapped) (hlinks : NoLinks seen)
    (hlost : ∀ place, Lost seen place → lost place) (hgrounded : later.Grounded)
    (hspared : swapped.Spared (merging.Loose rest) lost later)
    (h : UndoneBy merging.cwd swap later undone) :
    undone.Grounded ∧ tree.Spared (merging.Loose (file :: rest)) lost undone ∧
    later.Spreads (fun _ => False) undone := by
  cases hswapped with
  | added hroom hmid htarget hmoved =>
    have hcwd := (hpending.grows hroom.grows hmid).cwd_eq hready
    exact removed_undone hready hpending hroom hmid htarget hmoved
      (.inl (sound_of_walk hmid hcwd htarget).1) hgrounded hspared h
  | @covered mid _ place entry content hroom hmid htarget hmoved =>
    have hcwd := (hpending.grows hroom.grows hmid).cwd_eq hready
    have hthere : mid.entryAt? place = some entry := sound_of_walk hmid hcwd htarget
    obtain ⟨old, rfl⟩ : ∃ old, entry = .file old := by
      cases entry with
      | directory => exact absurd hthere hmoved.target_plain
      | file old => exact ⟨old, rfl⟩
      | link goal => exact absurd rfl (hlinks _ List.mem_cons_self)
    exact removed_undone hready hpending hroom hmid htarget hmoved
      (.inr ⟨hlost place List.mem_cons_self, old, hthere⟩) hgrounded hspared h
  | @replaced mid aside _ place entry content haside hmoved =>
    have hmid := hpending.grows haside.room.grows haside.grounded
    have hnotloose := hpending.not_loose_saved hready
    have hstays : ∀ {other : Place} {found kept : Entry}, swapped.entryAt? other = some found →
        ¬ merging.Loose rest other → later.entryAt? other = some kept → kept = found := by
      intro other found kept hfound hother hkept
      rcases hspared other with (hsame | ⟨hnone, -⟩ | ⟨hloose, -⟩) | ⟨-, -, hgone⟩
      · exact Option.some.inj (hkept.symm.trans (hsame.trans hfound))
      · simp [hnone] at hfound
      · exact absurd hloose hother
      · simp [hgone] at hkept
    refine haside.undone hready hpending hgrounded (fun other hplace => ?_) (fun kept hkept => ?_)
      (fun goal hgoal => ?_) h
    · by_cases hstaged : other = merging.stagedPlace file
      · subst hstaged
        exact .inl (.inr
          (.inr ⟨loose_staged merging file rest, not_leads_of_file hmoved.source_eq⟩))
      · have hlater := (hspared other).mono (fun hloose => hloose.cons file) id
        rwa [SparedAt, KeptAt, Leads, hmoved.entryAt?_eq, if_neg hplace, if_neg hstaged] at hlater
    · by_cases hplace : merging.savedPlace file = place
      · obtain rfl : kept = .file content :=
          hstays (by rw [hmoved.entryAt?_eq, if_pos hplace]) hnotloose hkept
        exact ⟨by simp, absurd hplace⟩
      · obtain rfl : kept = entry := hstays (by
          rw [hmoved.entryAt?_eq, if_neg hplace, if_neg (hready.saved_ne_staged file file),
            haside.moved.entryAt?_eq, if_pos rfl]) hnotloose hkept
        exact ⟨haside.moved.plain, fun _ => rfl⟩
    · have hnot : ¬ merging.Loose rest place := fun hloose =>
        hmid.ne_link_of_loose (hloose.cons file) goal hgoal
      have hfile : swapped.entryAt? place = some (.file content) := by
        rw [hmoved.entryAt?_eq, if_pos rfl]
      rintro (hdirectory | ⟨other, hother⟩)
      · cases hstays hfile hnot hdirectory
      · cases hstays hfile hnot hother

/-- A swap makes directories where it makes room. -/
theorem SwappedIn.spreads {swap : Swap} {seen : List (Place × Kind)} {after : FileTree}
    (hswapped : merging.SwappedIn made file tree swap seen after) : tree.Spreads made after := by
  cases hswapped with
  | added hroom hgrounded htarget hmoved => exact hroom.spreads.trans (hmoved.spreads made)
  | covered hroom hgrounded htarget hmoved => exact hroom.spreads.trans (hmoved.spreads made)
  | replaced haside hmoved =>
    exact (haside.room.spreads.trans (haside.moved.spreads made)).trans (hmoved.spreads made)

/-- A swap that failed leaves the tree as it was, up to what was being moved, with the directories
that made room. -/
theorem Pending.spared_of_swapFailed (lost : Place → Prop) (hready : merging.Ready files base)
    (hpending : merging.Pending files base (file :: rest) tree) {after : FileTree}
    (h : SwapFailed merging.cwd made (merging.targetPath file) (merging.savedPath file)
      tree after) :
    after.Grounded ∧ tree.Spared (merging.Loose (file :: rest)) lost after ∧
    tree.Spreads made after := by
  cases h with
  | early hroom hgrounded => exact ⟨hgrounded, (hroom.grows.kept _).spared lost, hroom.spreads⟩
  | @putBack mid aside _ place entry haside hback =>
    have haside := hpending.movedAside hready haside
    have hmid := hpending.grows haside.room.grows haside.grounded
    have hlink : ∀ goal, mid.entryAt? place = some (.link goal) →
        ¬ aside.Leads place := fun goal hgoal =>
      haside.not_leads fun hsame => hmid.ne_link_of_loose (loose_saved merging file rest)
        goal (hsame ▸ hgoal)
    have hsaved : aside.entryAt? (merging.savedPlace file) = some entry := by
      rw [haside.moved.entryAt?_eq, if_pos rfl]
    have hkeeps : ∀ kept, aside.entryAt? (merging.savedPlace file) = some kept →
        kept ≠ .directory ∧ (merging.savedPlace file ≠ place → kept = entry) := by
      intro kept hkept
      obtain rfl := Option.some.inj (hkept.symm.trans hsaved)
      exact ⟨haside.moved.plain, fun _ => rfl⟩
    have hsame : ∀ other, other ≠ place →
        aside.SparedAt (merging.Loose (file :: rest)) lost aside other :=
      fun other _ => .inl (.inl rfl)
    obtain ⟨hgrounded, hspared, hspreads⟩ :=
      haside.undone hready hpending haside.moved.grounded hsame hkeeps hlink hback
    have hroom := haside.room.spreads.trans (haside.moved.spreads made)
    exact ⟨hgrounded, hspared, hroom.trans (hspreads.mono fun _ => False.elim)⟩

/-! ## Undoing all swaps -/

/-- Whether a tree is another one after some swaps were taken back, one after the other. -/
def UndoneAll (cwd : Place) : List Swap → FileTree → FileTree → Prop
  | [], before, after => after = before
  | swap :: swaps, before, after =>
    ∃ between, UndoneBy cwd swap before between ∧ UndoneAll cwd swaps between after

variable {disk after : Disk}

/-- Taking a swap back does so, or it is noted that it was refused. -/
theorem undo_cases {cwd : Place} {swap : Swap} {result : Unit}
    (h : Gives (undo (Disk.storage cwd) swap) disk result after) :
    after.overlooked = disk.overlooked ∧ disk.unsettled <:+ after.unsettled ∧
      (after.unsettled = disk.unsettled → UndoneBy cwd swap disk.tree after.tree) := by
  have hnoted : ∀ {path : Path} {change : Prop}, after.overlooked = disk.overlooked ∧
      ((change ∧ after.unsettled = disk.unsettled) ∨ after.unsettled = path :: disk.unsettled) →
      after.overlooked = disk.overlooked ∧ disk.unsettled <:+ after.unsettled ∧
        (after.unsettled = disk.unsettled → change) := by
    intro path change hcases
    obtain ⟨hoverlooked, ⟨hchange, hunsettled⟩ | hunsettled⟩ := hcases
    · exact ⟨hoverlooked, hunsettled ▸ List.suffix_rfl, fun _ => hchange⟩
    · exact ⟨hoverlooked, hunsettled ▸ List.suffix_cons _ _,
        fun hsame => by simp [hunsettled] at hsame⟩
  obtain ⟨target, saved?⟩ := swap
  cases saved? with
  | none => exact hnoted (Disk.removeFile_cases h)
  | some saved => exact hnoted (Disk.restore_cases h)

/-- Taking swaps back one after the other does so, or it is noted that it was refused. -/
theorem undoAll_cases {cwd : Place} {swaps : List Swap} {result : Unit}
    (h : Gives (swaps.forM (undo (Disk.storage cwd))) disk result after) :
    after.overlooked = disk.overlooked ∧ disk.unsettled <:+ after.unsettled ∧
      (after.unsettled = disk.unsettled → UndoneAll cwd swaps disk.tree after.tree) := by
  induction swaps generalizing disk with
  | nil =>
    obtain ⟨-, rfl⟩ := Gives.pure_iff.mp h
    exact ⟨rfl, List.suffix_rfl, fun _ => rfl⟩
  | cons swap swaps ih =>
    have hrun : Gives
        (undo (Disk.storage cwd) swap >>= fun _ => swaps.forM (undo (Disk.storage cwd))) disk result
        after := h
    obtain ⟨first, between, hfirst, hrest⟩ := Gives.bind_iff.mp hrun
    obtain ⟨hfirstseen, hbefore, hundone⟩ := undo_cases hfirst
    obtain ⟨hrestseen, hafter, hundoneall⟩ := ih hrest
    refine ⟨hrestseen.trans hfirstseen, hbefore.trans hafter, fun hsame => ?_⟩
    have hbetween : between.unsettled = disk.unsettled :=
      (hsame ▸ hafter).eq_of_length_le hbefore.length_le
    exact ⟨between.tree, hundone hbetween, hundoneall (hsame.trans hbetween.symm)⟩

/-- What is known of the directories that swaps make: for each file they are made at certain places
only, and once it is in, directories are at certain places. -/
structure Makes (merging : Merging) (files : List OutputFile) (base : FileTree)
    (made left : OutputFile → Place → Prop) : Prop where
  target : ∀ {file rest tree}, merging.Pending files base (file :: rest) tree →
    (base.LinkFree → tree.LinkFree) →
    RoomMade merging.cwd (made file) (merging.targetPath file) tree
  saved : ∀ {file rest tree}, merging.Pending files base (file :: rest) tree →
    (base.LinkFree → tree.LinkFree) →
    RoomMade merging.cwd (made file) (merging.savedPath file) tree
  left : ∀ {file rest tree swap seen swapped}, merging.Pending files base (file :: rest) tree →
    (base.LinkFree → tree.LinkFree) → merging.SwappedIn (made file) file tree swap seen swapped →
    ∀ place, left file place → swapped.entryAt? place = some .directory

/-- Wherever swaps make directories, nothing else is known of them. -/
theorem makes_anywhere (merging : Merging) (files : List OutputFile) (base : FileTree) :
    merging.Makes files base (fun _ _ => True) fun _ _ => False :=
  ⟨fun _ _ => roomMade_anywhere _ _ _,
    fun _ _ => roomMade_anywhere _ _ _, fun _ _ _ _ => False.elim⟩

/-- Whether directories were made for some files, the last of which may have failed. -/
structure MadeFor (made left : OutputFile → Place → Prop) (tried : List OutputFile)
    (before after : FileTree) : Prop where
  spreads : before.Spreads (fun place => ∃ file ∈ tried, made file place) after
  left : ∀ file ∈ tried.dropLast, ∀ place, left file place → after.entryAt? place = some .directory

/-- For the one file that was tried, directories may have been made. -/
theorem madeFor_singleton {made left : OutputFile → Place → Prop} {before after : FileTree}
    (h : before.Spreads (made file) after) : MadeFor made left [file] before after :=
  ⟨h.mono fun _ hmade => ⟨file, List.mem_singleton_self file, hmade⟩,
    fun _ hnone => absurd hnone List.not_mem_nil⟩

/-- Once a file is in, directories are made for those that come after it. -/
theorem MadeFor.cons {made left : OutputFile → Place → Prop} {tried : List OutputFile}
    {before between after : FileTree} (h : MadeFor made left tried between after)
    (hspreads : before.Spreads (made file) between)
    (hleft : ∀ place, left file place → between.entryAt? place = some .directory) :
    MadeFor made left (file :: tried) before after := by
  refine ⟨?_, fun other hother place hplace => ?_⟩
  · exact (hspreads.mono fun _ hmade => ⟨file, List.mem_cons_self, hmade⟩).trans
      (h.spreads.mono
        fun _ ⟨other, hother, hmade⟩ => ⟨other, List.mem_cons_of_mem file hother, hmade⟩)
  · cases tried with
    | nil => exact absurd hother List.not_mem_nil
    | cons next tried =>
      rcases List.mem_cons.mp hother with rfl | hother
      · exact h.spreads.kept place (hleft place hplace)
      · exact h.left other hother place hplace

/-- If swapping files in fails, all that was undone gives back the tree that the merge started from,
with the directories that were made and without the files that were overlooked. -/
theorem Pending.spared_of_swapAll {made left : OutputFile → Place → Prop}
    (hready : merging.Ready files base) (hmakes : merging.Makes files base made left)
    {pending : List OutputFile} (hpending : merging.Pending files base pending disk.tree)
    (hlinks : base.LinkFree → disk.tree.LinkFree) {swaps : List Swap}
    {earlier : List (Place × Kind)}
    (hswaps : NoLinks earlier →
      ∀ lost later undone, later.Grounded → disk.tree.Spared (merging.Loose pending) lost later →
        (∀ place, Lost earlier place → lost place) → UndoneAll merging.cwd swaps later undone →
          undone.Grounded ∧ base.Spared (merging.Loose files) lost undone ∧
          later.Spreads (fun _ => False) undone)
    {failure : WriteFailure}
    (h : Ends (swapAll (Disk.storage merging.cwd) merging.stagingPath merging.backupPath merging.out
      pending swaps) disk (.error failure) after)
    (hsettled : after.unsettled = disk.unsettled) :
    ∃ seen, after.overlooked = seen ++ disk.overlooked ∧ (NoLinks (seen ++ earlier) →
      base.Spared (merging.Loose files) (Lost (seen ++ earlier)) after.tree ∧
        ∃ tried, tried <+: pending ∧ MadeFor made left tried disk.tree after.tree) := by
  induction pending generalizing disk swaps earlier with
  | nil =>
    exact nomatch (Ends.pure_iff.mp h).1
  | cons file rest ih =>
    have hcwd := hpending.cwd_eq hready
    have htarget := hmakes.target hpending hlinks
    have hsaved := hmakes.saved hpending hlinks
    rcases swapAll_cons_cases h with ⟨swap, between, hswap, hrest⟩ |
      ⟨first, middle, -, hswap, hundo⟩
    · obtain ⟨seen, hseen, -, ⟨a, hsame, hunsettled, hswapped⟩ | ⟨_, herror, _⟩⟩ :=
        swapIn_cases hpending.grounded hcwd htarget hsaved hswap
      swap
      · exact nomatch herror
      obtain rfl := Except.ok.inj hsame
      have hin := hpending.swappedIn hready hswapped
      have hagain : NoLinks (seen ++ earlier) → ∀ lost later undone, later.Grounded →
          between.tree.Spared (merging.Loose rest) lost later →
          (∀ place, Lost (seen ++ earlier) place → lost place) →
          UndoneAll merging.cwd (swap :: swaps) later undone →
            undone.Grounded ∧ base.Spared (merging.Loose files) lost undone ∧
            later.Spreads (fun _ => False) undone := by
        intro hnone lost later undone hgrounded hspared hlost hundone
        obtain ⟨hnoneseen, hnoneearlier⟩ := List.forall_mem_append.mp hnone
        obtain ⟨middle, hfirst, hothers⟩ := hundone
        obtain ⟨hmiddle, hmiddlespared, hspreads⟩ := hin.undone hready hpending hnoneseen
          (fun place hplace => hlost place (List.mem_append_left earlier hplace))
          hgrounded hspared hfirst
        obtain ⟨hundone, hbase, hrest⟩ := hswaps hnoneearlier lost middle undone
          hmiddle hmiddlespared
          (fun place hplace => hlost place (List.mem_append_right seen hplace)) hothers
        exact ⟨hundone, hbase, hspreads.trans hrest⟩
      obtain ⟨more, hmore, hleft⟩ := ih (hin.rest_pending hready hpending)
        (fun hfree => hin.linkFree (hlinks hfree)) hagain hrest (hsettled.trans hunsettled.symm)
      refine ⟨more ++ seen, by rw [hmore, hseen, List.append_assoc], fun hnone => ?_⟩
      rw [List.append_assoc] at hnone ⊢
      obtain ⟨hspared, tried, htried, hmadefor⟩ := hleft hnone
      exact ⟨hspared, file :: tried, List.cons_prefix_cons.mpr ⟨rfl, htried⟩,
        hmadefor.cons hin.spreads (hmakes.left hpending hlinks hin)⟩
    · obtain ⟨seen, hseen, hbefore, ⟨a, hok, -⟩ | ⟨other, -, hfailed⟩⟩ :=
        swapIn_cases hpending.grounded hcwd htarget hsaved hswap
      · exact nomatch hok
      obtain ⟨hkeptseen, hafter, hundone⟩ := undoAll_cases hundo
      have hmiddle : middle.unsettled = disk.unsettled :=
        (hsettled ▸ hafter).eq_of_length_le hbefore.length_le
      refine ⟨seen, hkeptseen.trans hseen, fun hnone => ?_⟩
      obtain ⟨hgrounded, hspared, hspreads⟩ :=
        hpending.spared_of_swapFailed (Lost (seen ++ earlier)) hready (hfailed hmiddle)
      obtain ⟨-, hbase, hsame⟩ := hswaps (List.forall_mem_append.mp hnone).2 _ middle.tree
        after.tree hgrounded hspared
        (fun place hplace => List.mem_append_right seen hplace)
        (hundone (hsettled.trans hmiddle.symm))
      exact ⟨hbase, [file], List.cons_prefix_cons.mpr ⟨rfl, List.nil_prefix⟩,
        madeFor_singleton (hspreads.trans (hsame.mono fun _ => False.elim))⟩

/-- If merging fails, all that was undone gives back the tree that it started from, with the
directories that were made and without the files that were overlooked. -/
theorem Ready.spared_of_swapAll {made left : OutputFile → Place → Prop}
    (hready : merging.Ready files disk.tree) (hmakes : merging.Makes files disk.tree made left)
    {failure : WriteFailure}
    (h : Ends (swapAll (Disk.storage merging.cwd) merging.stagingPath merging.backupPath merging.out
      files []) disk (.error failure) after)
    (hsettled : after.unsettled = disk.unsettled) :
    ∃ seen, after.overlooked = seen ++ disk.overlooked ∧ (NoLinks seen →
      disk.tree.Spared (merging.Loose files) (Lost seen) after.tree ∧
        ∃ tried, tried <+: files ∧ MadeFor made left tried disk.tree after.tree) := by
  have hnothing : NoLinks [] →
      ∀ lost later undone, later.Grounded → disk.tree.Spared (merging.Loose files) lost later →
      (∀ place, Lost [] place → lost place) → UndoneAll merging.cwd [] later undone →
        undone.Grounded ∧ disk.tree.Spared (merging.Loose files) lost undone ∧
        later.Spreads (fun _ => False) undone := by
    intro _ lost later undone hlater hspared _ hundone
    obtain rfl : undone = later := hundone
    exact ⟨hlater, hspared, .refl _ undone⟩
  obtain ⟨seen, hseen, hleft⟩ :=
    hready.all_pending.spared_of_swapAll hready hmakes id hnothing h hsettled
  rw [List.append_nil] at hleft
  exact ⟨seen, hseen, hleft⟩

end Merging

/-! ## A failure to write -/

variable {cwd : Place} {disk after : Disk} {around out : Path} {name : String} {links : Nat}
  {reached : Place} {files : List OutputFile} {failure : WriteFailure}

/-- A place of a file to be merged is in one of the hidden directories. -/
theorem Merging.Loose.below {merging : Merging} {place : Place} (h : merging.Loose files place) :
    merging.stagingPlace <+: place ∨ merging.backupPlace <+: place := by
  obtain ⟨file, -, rfl | rfl⟩ := h
  · exact .inl (List.prefix_append _ _)
  · exact .inr (List.prefix_append _ _)

/-- A merge that fails has changed nothing, or swaps fail before the second hidden directory is
cleared away. -/
theorem mergeInto_error_cases
    (hstaged : Staged cwd (surroundings out) name links reached files disk.tree)
    (hcwd : disk.tree.entryAt? cwd = some .directory)
    (h : Ends (mergeInto (Disk.storage cwd) ((surroundings out).join ⟨name⟩) out files) disk
      (.error failure) after) :
    Disk.Unchanged disk after ∨ ∃ between swapped : Disk,
      NewHidden cwd (surroundings out) disk.tree.unusedName links reached disk.tree between.tree ∧
      between.notes = disk.notes ∧
      Merging.Ready ⟨cwd, out, surroundings out, links, reached, name, disk.tree.unusedName⟩
        files between.tree ∧
      Ends (swapAll (Disk.storage cwd) ((surroundings out).join ⟨name⟩)
        ((surroundings out).join ⟨disk.tree.unusedName⟩) out files []) between (.error
        failure) swapped ∧
      after.tree = swapped.tree.removeAll cwd ((surroundings out).join ⟨disk.tree.unusedName⟩) ∧
      after.notes = swapped.notes := by
  have hgrounded := hstaged.staging.grounded
  rcases Ends.bind_iff.mp h with ⟨backup, between, hhidden, hclearing⟩ | ⟨e, -, hhidden⟩
  · obtain ⟨first, hfirst, hok⟩ := Ends.adapt_iff.mp hhidden
    obtain ⟨hnotes, ⟨obstacle, rfl, -⟩ | ⟨fewer, other, rfl, hnew⟩⟩ :=
      Disk.makeHidden_cases hgrounded hcwd hfirst
    · contradiction
    obtain rfl := Except.ok.inj hok
    obtain ⟨rfl, rfl, hready⟩ := Merging.ready_of_staged out hstaged hcwd hnew
    obtain ⟨swapped, hswaps, hremoved, hnoted⟩ := clearing_cases hclearing
    exact .inr ⟨between, swapped, hnew, hnotes, hready, hswaps, hremoved, hnoted⟩
  · obtain ⟨first, hfirst, herror⟩ := Ends.adapt_iff.mp hhidden
    obtain ⟨hnotes, ⟨obstacle, -, hsame⟩ | ⟨fewer, other, rfl, -⟩⟩ :=
      Disk.makeHidden_cases hgrounded hcwd hfirst
    · exact .inl ⟨hsame, hnotes⟩
    · contradiction

/-- Whether a failure left a disk as it was, with the directories that were made, except for loose
places, and without the files that were overlooked in the meantime. Nothing is said if a link was
overlooked. -/
def Regained (loose : Place → Prop) (disk after : Disk) : Prop :=
  ∃ seen, after.overlooked = seen ++ disk.overlooked ∧
    (Merging.NoLinks seen → disk.tree.Spared loose (Merging.Lost seen) after.tree)

/-- What has not changed is regained. -/
theorem regained_of_unchanged (loose : Place → Prop) (h : Disk.Unchanged disk after) :
    Regained loose disk after :=
  ⟨[], (Prod.mk.inj h.notes_eq).2, fun _ place => .inl (.inl (by rw [h.tree_eq]))⟩

/-- Where nothing was overlooked, what is regained is kept. -/
theorem Regained.kept {loose : Place → Prop} (h : Regained loose disk after)
    (hseen : after.overlooked = disk.overlooked) : disk.tree.Kept loose after.tree := by
  obtain ⟨seen, happend, hspared⟩ := h
  obtain rfl := List.append_left_eq_self.mp (happend.symm.trans hseen)
  exact (hspared Merging.noLinks_nil).kept fun _ => List.not_mem_nil

/-- What is regained from a disk on which only loose places had changed is regained from before. -/
theorem Regained.of_kept {loose : Place → Prop} {between : Disk} (h : Regained loose between after)
    (hkept : disk.tree.Kept loose between.tree) (hnotes : between.notes = disk.notes) :
    Regained loose disk after := by
  obtain ⟨seen, hseen, hspared⟩ := h
  exact ⟨seen, by rw [hseen, (Prod.mk.inj hnotes).2],
    fun hnone => hkept.trans_spared (hspared hnone)⟩

/-- What is regained but for a new hidden directory is regained once that is cleared away. -/
theorem Regained.removeAll {loose : Place → Prop} {made used : Disk}
    (hgrounded : disk.tree.Grounded)
    (hnew : NewHidden cwd around name links reached disk.tree made.tree)
    (hmade : made.notes = disk.notes)
    (h : Regained (fun place => loose place ∨ reached ++ [name] <+: place) made used)
    (hremoved : after.tree = used.tree.removeAll cwd (around.join ⟨name⟩))
    (hafter : after.notes = used.notes) :
    Regained loose disk after := by
  obtain ⟨seen, hseen, hspared⟩ := h
  refine ⟨seen, ?_, fun hnone => ?_⟩
  · rw [(Prod.mk.inj hafter).2, hseen, (Prod.mk.inj hmade).2]
  · rw [hremoved]
    exact hnew.spared_removeAll hgrounded (hspared hnone)

/-- A merge that fails leaves everything outside of the staging directory as it was, without what it
overlooked. -/
theorem regained_of_mergeInto
    (hstaged : Staged cwd (surroundings out) name links reached files disk.tree)
    (hcwd : disk.tree.entryAt? cwd = some .directory)
    (h : Ends (mergeInto (Disk.storage cwd) ((surroundings out).join ⟨name⟩) out files) disk
      (.error failure) after)
    (hsettled : after.unsettled = disk.unsettled) :
    Regained (reached ++ [name] <+: ·) disk after := by
  rcases mergeInto_error_cases hstaged hcwd h with
    hsame | ⟨between, swapped, hnew, hnotes, hready, hswaps, hremoved, hnoted⟩
  · exact regained_of_unchanged _ hsame
  · have hsettled : swapped.unsettled = between.unsettled :=
      (Prod.mk.inj hnoted).1.symm.trans (hsettled.trans (Prod.mk.inj hnotes).1.symm)
    obtain ⟨seen, hseen, hspared⟩ :=
      hready.spared_of_swapAll (Merging.makes_anywhere _ _ _) hswaps hsettled
    have hregained : Regained
        (fun place => reached ++ [name] <+: place ∨ reached ++ [disk.tree.unusedName] <+: place)
        between swapped :=
      ⟨seen, hseen,
        fun hnone => (hspared hnone).1.mono (fun place hloose => hloose.below) fun _ => id⟩
    exact hregained.removeAll hstaged.staging.grounded hnew hnotes hremoved hnoted

/-- Installing that fails leaves everything outside of the staging directory as it was, without what
it overlooked. -/
theorem regained_of_install
    (hstaged : Staged cwd (surroundings out) name links reached files disk.tree)
    (hcwd : disk.tree.entryAt? cwd = some .directory)
    (h : Ends (install (Disk.storage cwd) ((surroundings out).join ⟨name⟩) out files) disk
      (.error failure) after)
    (hsettled : after.unsettled = disk.unsettled) :
    Regained (reached ++ [name] <+: ·) disk after := by
  rcases install_cases h with ⟨between, htree, hnotes, -, hmerge⟩ | ⟨hok, -⟩ |
    ⟨other, -, hsame, hnotes⟩
  · rw [← htree] at hstaged hcwd
    have hkept : disk.tree.Kept (reached ++ [name] <+: ·) between.tree :=
      fun place => .inl (by rw [htree])
    exact (regained_of_mergeInto hstaged hcwd hmerge
      (hsettled.trans (Prod.mk.inj hnotes).1.symm)).of_kept hkept hnotes
  · exact nomatch hok
  · exact regained_of_unchanged _ ⟨hsame, hnotes⟩

/-- A write that fails leaves everything as it was, without what it overlooked. -/
theorem regained_of_writeOut {emitted : List EmittedFile} (hgrounded : disk.tree.Grounded)
    (hcwd : disk.tree.entryAt? cwd = some .directory)
    (hplain : ∀ file ∈ emitted, (Path.mk file.path).Plain)
    (h : Ends (writeOut (Disk.storage cwd) out emitted) disk (.error failure) after)
    (hsettled : after.unsettled = disk.unsettled) :
    Regained (fun _ => False) disk after := by
  have hmade : ∀ around ∈ (surroundings out).ancestors,
      ∀ grown other forDirectory, disk.tree.Grows grown →
      grown.walk cwd .never around = .ok (.free other forDirectory) → True :=
    fun _ _ _ _ _ _ _ => trivial
  rcases writeOut_cases hgrounded hcwd hmade h with ⟨-, -, hwidened⟩ |
    ⟨name, links, reached, roomy, prepared, installed, result, hprepared, hlog, hrun,
      hremoved, hnoted, hresult⟩
  · exact ⟨[], (Prod.mk.inj hwidened.notes_eq).2, fun _ => (hwidened.grows.grows.kept _).spared _⟩
  have hnew := hprepared.hidden
  have hstaging := staging_of_newHidden hprepared.grounded hnew
  have hcwdprepared := hnew.grows.extends (hprepared.room.grows.extends hcwd)
  have hplainoutputs : ∀ output ∈ outputFiles emitted, output.path.Plain :=
    fun output => plain_of_mem_outputFiles hplain
  have hnodup := outputFiles_names_nodup hplain
  have hinstalled : Regained (reached ++ [name] <+: ·) prepared installed := by
    rcases Ends.bind_iff.mp hrun with ⟨done, between, hstage, hinstall⟩ | ⟨other, -, hstage⟩
    · obtain ⟨hstep, hnotes, -⟩ :=
        stageAll_cases hplainoutputs hnodup hstaging hcwdprepared hstage
      have hstaged := staged_of_stageAll hplainoutputs hnodup hstaging hcwdprepared hstage
      have hlogs : installed.unsettled = between.unsettled := by
        rw [← (Prod.mk.inj hnoted).1, hsettled, (Prod.mk.inj hnotes).1, (Prod.mk.inj hlog).1]
      cases result with
      | ok done => exact nomatch hresult
      | error other =>
        have hcwdbetween := hstep.kept.keeps.evolves.directory hcwdprepared
        exact (regained_of_install hstaged hcwdbetween hinstall hlogs).of_kept hstep.kept hnotes
    · obtain ⟨hstep, hnotes, -⟩ :=
        stageAll_cases hplainoutputs hnodup hstaging hcwdprepared hstage
      exact ⟨[], (Prod.mk.inj hnotes).2, fun _ => hstep.kept.spared _⟩
  obtain ⟨seen, hseen, hspared⟩ := hinstalled
  refine ⟨seen, ?_, fun hnone => ?_⟩
  · rw [(Prod.mk.inj hnoted).2, hseen, (Prod.mk.inj hlog).2]
  · rw [hremoved]
    have hinside : prepared.tree.Spared (fun place => False ∨ reached ++ [name] <+: place)
        (Merging.Lost seen) installed.tree := (hspared hnone).mono (fun _ => .inr) fun _ => id
    exact (hprepared.room.grows.kept _).trans_spared
      (hnew.spared_removeAll hprepared.grounded hinside)

/-- If writing fails, and nothing that was to be undone was refused, every file and every link is
as it was, and there are no others, up to the files that were there when looking at them failed:
those may be gone. There are none of them where no failure was to come. Directories may be left
where nothing was. Nothing is said if looking at a link failed. -/
theorem kept_of_writeOut_error (cwd : Place) (out : Path) (files : List EmittedFile)
    (disk after : Disk) (hgrounded : disk.tree.Grounded)
    (hcwd : disk.tree.entryAt? cwd = some .directory)
    (hplain : ∀ file ∈ files, (Path.mk file.path).Plain) (failure : WriteFailure)
    (h : (writeOut (Disk.storage cwd) out files).run disk = (.error failure, after))
    (hsettled : after.unsettled = disk.unsettled) :
    ∃ seen, after.overlooked = seen ++ disk.overlooked ∧ (disk.failures = [] → seen = []) ∧
      ((∀ found ∈ seen, found.2 ≠ .link) →
        ∀ place, after.tree.entryAt? place = disk.tree.entryAt? place ∨
          (disk.tree.entryAt? place = none ∧ after.tree.entryAt? place = some .directory) ∨
          ((place, .file) ∈ seen ∧ (∃ content, disk.tree.entryAt? place = some (.file content)) ∧
            after.tree.entryAt? place = none)) := by
  obtain ⟨seen, hseen, hspared⟩ := regained_of_writeOut hgrounded hcwd hplain h hsettled
  refine ⟨seen, hseen, fun hfaultless => ?_, fun hnone place => ?_⟩
  · exact List.append_left_eq_self.mp (hseen.symm.trans (overlooked_of_writeOut hfaultless h))
  rcases hspared hnone place with (hsame | hdirectory | ⟨hloose, -⟩) | hgone
  · exact .inl hsame
  · exact .inr (.inl hdirectory)
  · exact hloose.elim
  · exact .inr (.inr hgone)

/-- A tree in which the second of two files cannot be written, as a directory is in the way. -/
def blockedTree : FileTree :=
  ⟨[(["gen"], .directory), (["gen", "a"], .file "old".toUTF8), (["gen", "b"], .directory)]⟩

/-- A disk with this tree, on which the look at what the first of the two files would replace
fails. -/
def faultyDisk : Disk :=
  ⟨blockedTree, List.replicate 13 false ++ [true], [], []⟩

/-- Writing both files on that disk. -/
def faultyRun : Except WriteFailure Nat × Disk :=
  (writeOut (Disk.storage []) ⟨"gen"⟩ [⟨"a", "new"⟩, ⟨"b", "new"⟩]).run faultyDisk

/-- The first file is swapped in over the one that is overlooked, the second one fails, and no
undoing is refused. -/
theorem faultyRun_eq :
    faultyRun.1 = .error ⟨⟨"gen/b"⟩, .directoryInTheWay⟩ ∧ faultyRun.2.unsettled = [] ∧
    faultyRun.2.overlooked = [(["gen", "a"], .file)] ∧
    (faultyRun.2.tree.entryAt? ["gen", "a"]).map Entry.kind = none := by
  have houtputs : outputFiles [⟨"a", "new"⟩, ⟨"b", "new"⟩] =
      [⟨⟨"a"⟩, "new"⟩, ⟨⟨"b"⟩, "new"⟩] := by cbv
  simp only [faultyRun, writeOut, houtputs, Disk.storage, Disk.look, Disk.inspect, FileTree.lookAt,
    FileTree.makeDirectory, FileTree.write, FileTree.rename, FileTree.removeFile,
    FileTree.removeAll, FileTree.find?, FileTree.walk, FileTree.read, walkFrom_eq_walkSteps]
  decide +kernel

/-- All that may be lost of that disk is the file that was overlooked. -/
theorem kept_of_faultyRun : faultyRun.1 = .error ⟨⟨"gen/b"⟩, .directoryInTheWay⟩ ∧
    ∀ place, faultyRun.2.tree.entryAt? place = blockedTree.entryAt? place ∨
      (blockedTree.entryAt? place = none ∧ faultyRun.2.tree.entryAt? place = some .directory) ∨
      (place = ["gen", "a"] ∧ faultyRun.2.tree.entryAt? place = none) := by
  obtain ⟨hfailed, hsettled, hoverlooked, -⟩ := faultyRun_eq
  have hgrounded : blockedTree.Grounded := by
    refine grounded_of_entries ?_
    simp [blockedTree, entryAt?, List.lookup]
  have hplain : ∀ file ∈ [EmittedFile.mk "a" "new", EmittedFile.mk "b" "new"],
      (Path.mk file.path).Plain := by
    decide +kernel
  obtain ⟨seen, hseen, -, hkept⟩ := kept_of_writeOut_error [] ⟨"gen"⟩ _ faultyDisk faultyRun.2
    hgrounded rfl hplain _ (Prod.ext hfailed rfl) hsettled
  obtain rfl : seen = [(["gen", "a"], .file)] := by
    rw [hoverlooked] at hseen
    exact (hseen.trans (List.append_nil seen)).symm
  refine ⟨hfailed, fun place => ?_⟩
  rcases hkept (by simp) place with hsame | hdirectory | ⟨hlost, -, hgone⟩
  · exact .inl hsame
  · exact .inr (.inl hdirectory)
  · exact .inr (.inr ⟨(Prod.mk.inj (List.mem_singleton.mp hlost)).1, hgone⟩)

/-- A write that fails, with nothing left to be undone, may lose a file that was there when looking
at it failed. -/
theorem exists_file_lost :
    ∃ (disk after : Disk) (failure : WriteFailure) (place : Place) (content : ByteArray),
    (writeOut (Disk.storage []) ⟨"gen"⟩ [⟨"a", "new"⟩, ⟨"b", "new"⟩]).run disk =
        (.error failure, after) ∧
      after.unsettled = disk.unsettled ∧ disk.tree.entryAt? place = some (.file content) ∧
      after.tree.entryAt? place = none := by
  obtain ⟨hfailed, hsettled, -, hgone⟩ := faultyRun_eq
  refine ⟨faultyDisk, faultyRun.2, _, ["gen", "a"], "old".toUTF8, Prod.ext hfailed rfl,
    hsettled, ?_, ?_⟩
  · rfl
  · exact Option.map_eq_none_iff.mp hgone

/-- A file in a directory of its own comes in front of one whose name is greater. -/
theorem outputFiles_nested : outputFiles [⟨"a/x", "new"⟩, ⟨"b", "new"⟩] =
    [⟨⟨"a/x"⟩, "new"⟩, ⟨⟨"b"⟩, "new"⟩] := by
  cbv

/-- A tree with a link that leads to a file only by way of a directory that is not there, and with a
directory in the way of the second of two files. -/
def danglingTree : FileTree :=
  ⟨[(["gen"], .directory), (["gen", "b"], .directory), (["gen", "f"], .file "old".toUTF8),
    (["gen", "k"], .link "a/../f")]⟩

/-- A write that fails, though no look failed and no undoing was refused, may make a path lead to a
file that led nowhere before: the directory for a file that was tried is left, and a link leads on
by way of it. -/
theorem exists_file_appears :
    ∃ (tree : FileTree) (after : Disk) (failure : WriteFailure) (path : Path),
    (writeOut (Disk.storage []) ⟨"gen"⟩ [⟨"a/x", "new"⟩, ⟨"b", "new"⟩]).run tree.disk =
        (.error failure, after) ∧
      after.unsettled = [] ∧ after.overlooked = [] ∧
      (tree.find? [] .through path).map (fun found => found.2.kind) = none ∧
      (after.tree.find? [] .through path).map (fun found => found.2.kind) = some .file := by
  let run :=
    (writeOut (Disk.storage []) ⟨"gen"⟩ [⟨"a/x", "new"⟩, ⟨"b", "new"⟩]).run danglingTree.disk
  have hrun : run.1 = .error ⟨⟨"gen/b"⟩, .directoryInTheWay⟩ ∧ run.2.unsettled = [] ∧
      run.2.overlooked = [] ∧
      (danglingTree.find? [] .through ⟨"gen/k"⟩).map (fun found => found.2.kind) = none ∧
      (run.2.tree.find? [] .through ⟨"gen/k"⟩).map (fun found => found.2.kind) = some .file := by
    simp only [run, writeOut, outputFiles_nested, Disk.storage, Disk.look, Disk.inspect,
      FileTree.lookAt, FileTree.makeDirectory, FileTree.write, FileTree.rename,
      FileTree.removeFile, FileTree.removeAll, FileTree.find?, FileTree.walk, FileTree.read,
      walkFrom_eq_walkSteps]
    decide +kernel
  exact ⟨danglingTree, run.2, _, ⟨"gen/k"⟩, Prod.ext hrun.1 rfl, hrun.2⟩

end SchemaBindings.Bindings
