import SchemaBindings.Proofs.Bindings.Overlay
import SchemaBindings.Proofs.FileTree.Steps

/-!
# Writing files

If writing succeeds where there are no links, the files are laid over the tree at the output
directory, and nothing else has changed: whether the hidden directory became the output directory or
the files were swapped in one by one. So writing them again changes nothing.
-/

namespace SchemaBindings.Bindings

open SchemaBindings.FileTree

variable {cwd : Place} {around out : Path} {name : String} {links : Nat} {reached : Place}
  {files : List OutputFile} {disk last : Disk}

/-! ## Hidden names -/

/-- The unused name of a tree is on the way to nothing in it. -/
theorem unusedName_not_mem_of_entry {tree : FileTree} {place : Place} {entry : Entry}
    (h : tree.entryAt? place = some entry) : tree.unusedName ∉ place := by
  by_cases hnil : place = []
  · simp [hnil]
  · exact tree.unusedName_not_mem (mem_entries_of_entryAt? hnil h)

/-- Where no hidden name is on the way to the output directory or to a file, the unused name of a
tree is not. -/
theorem clear_unusedName (hfresh : ∀ number, Clear (hiddenName number) out.names files)
    {tree : FileTree} (hcwd : tree.entryAt? cwd = some .directory) :
    Clear tree.unusedName (placeOf cwd out) files := by
  obtain ⟨hdirectory, hfiles⟩ : Clear tree.unusedName out.names files := hfresh _
  refine ⟨?_, hfiles⟩
  rw [placeOf, List.mem_append, not_or, start]
  refine ⟨?_, hdirectory⟩
  split
  · simp
  · exact unusedName_not_mem_of_entry hcwd

/-! ## Merging into the output directory -/

/-- Where there are no links, a merge lays files over the tree, outside of the staging directory. -/
theorem overlaid_of_mergeInto
    (hstaged : Staged cwd (surroundings out) name links reached files disk.tree)
    (hcwd : disk.tree.entryAt? cwd = some .directory) (hlinks : disk.tree.LinkFree)
    (hout : out.Forward) (haround : (surroundings out).Forward)
    (hdirectory : disk.tree.entryAt? (placeOf cwd out) = some .directory)
    (hclear : Clear name (placeOf cwd out) files)
    (hfresh : ∀ number, Clear (hiddenName number) out.names files)
    (h : Ends (mergeInto (Disk.storage cwd) ((surroundings out).join ⟨name⟩) out files)
      disk (.ok ()) last) :
    last.tree.Grounded ∧ last.tree.LinkFree ∧ disk.tree.Keeps last.tree ∧
      ∀ place, ¬ reached ++ [name] <+: place →
        OverlaidAt (placeOf cwd out) files disk.tree last.tree place := by
  have hgrounded := hstaged.staging.grounded
  rcases Ends.bind_iff.mp h with ⟨backup, between, hhidden, hclearing⟩ | ⟨e, herror, -⟩
  swap
  · exact nomatch herror
  obtain ⟨first, hfirst, hok⟩ := Ends.adapt_iff.mp hhidden
  obtain ⟨-, ⟨obstacle, rfl, -⟩ | ⟨fewer, other, rfl, hnew⟩⟩ :=
    Disk.makeHidden_cases hgrounded hcwd hfirst
  · exact nomatch hok
  obtain rfl := Except.ok.inj hok
  obtain ⟨rfl, rfl, hready⟩ := Merging.ready_of_staged out hstaged hcwd hnew
  obtain ⟨swapped, hswaps, hremoved, -⟩ := clearing_cases hclearing
  have hbaselinks := hlinks.grows hnew.grows
  obtain ⟨hend, hlinksend, hoverlaid⟩ := hready.all_pending.overlaid_of_swapAll hready
    hbaselinks hout haround (hnew.grows.extends hdirectory) hclear hbaselinks
    (fun file hfile => hnew.grows.extends (hstaged.entry_eq file hfile)) hswaps
  have hkeeps := hbaselinks.keeps hend.replaces.evolves
  have hbackup := hready.backup.keeps hkeeps
  have hbackupclear : Clear disk.tree.unusedName (placeOf cwd out) files :=
    clear_unusedName hfresh hcwd
  refine ⟨?_, ?_, ?_, fun place hstaging => ?_⟩
  · rw [hremoved, hbackup.removeAll_eq]
    exact hend.grounded.remove (by simp)
  · rw [hremoved, hbackup.removeAll_eq]
    exact hlinksend.remove (by simp)
  · rw [hremoved]
    have hinside : between.tree.Kept (fun place => True ∨ other ++ [disk.tree.unusedName] <+: place)
        swapped.tree :=
      hkeeps.kept.mono fun _ => .inl
    exact (hnew.spared_removeAll hgrounded (hinside.spared fun _ => False)).keeps
  · have hentry := hbackup.entryAt?_removeAll place
    rw [← hremoved] at hentry
    by_cases hunder : other ++ [disk.tree.unusedName] <+: place
    · exact hbackupclear.overlaidAt hunder (hnew.free_below hgrounded hunder)
        (by rw [hentry, if_pos hunder])
    · rw [if_neg hunder] at hentry
      refine (hoverlaid place hstaging hunder).of_eq (fun _ => Iff.rfl) (fun _ => ?_)
        (fun entry hold => hnew.grows.extends hold) hentry.symm
      rw [hnew.entryAt?_eq, if_neg fun hsame : place = _ => hunder (hsame ▸ List.prefix_rfl)]

/-! ## Becoming the output directory -/

/-- Files that are laid over the tree at a hidden directory change nothing outside of it. -/
theorem entryAt?_outside {directory place : Place} {before after : FileTree}
    (hgrounded : before.Grounded) (hdirectory : before.entryAt? directory = some .directory)
    (hoverlaid : Overlaid directory files before after) (hunder : ¬ directory <+: place) :
    after.entryAt? place = before.entryAt? place := by
  have hne : ∀ file ∈ files, place ≠ directory ++ file.names := fun file _ hsame =>
    hunder (hsame ▸ List.prefix_append _ _)
  have hside : ∀ file ∈ files, place <+: directory ++ file.names →
      place <+: directory := fun file _ hbelow =>
    (List.prefix_or_prefix_of_prefix hbelow (List.prefix_append _ _)).resolve_right hunder
  by_cases habove : place <+: directory
  · rw [((hoverlaid place).directory_eq hne (.inl habove)).1,
      hgrounded.directory_at_or_above habove hdirectory]
  · exact (hoverlaid place).other_eq habove
      fun file hfile hbelow => habove (hside file hfile hbelow)

/-- Outside of a new hidden directory with files, everything is as it was. -/
theorem entryAt?_staged {place : Place} {roomy prepared staged : FileTree}
    (hnew : NewHidden cwd around name links reached roomy prepared)
    (hoverlaid : Overlaid (reached ++ [name]) files prepared staged)
    (hunder : ¬ reached ++ [name] <+: place) :
    staged.entryAt? place = roomy.entryAt? place := by
  rw [entryAt?_outside hnew.grounded hnew.hidden.entry_eq hoverlaid hunder, hnew.entryAt?_eq,
    if_neg fun hsame : place = _ => hunder (hsame ▸ List.prefix_rfl)]

section Moved

variable {directory place : Place} {roomy prepared staged moved : FileTree}

/-- Below the output directory is what was below the hidden directory with files that was moved
there. -/
theorem overlaidAt_below_moved (hgrounded : roomy.Grounded)
    (hnew : NewHidden cwd around name links reached roomy prepared)
    (hoverlaid : Overlaid (reached ++ [name]) files prepared staged)
    (hfree : ∀ entry, roomy.entryAt? directory = some entry → entry = .directory)
    (hmoved : MovedDirectory staged (reached ++ [name]) directory moved) (steps : Place) :
    OverlaidAt directory files roomy moved (directory ++ steps) := by
  have hentry := hmoved.entryAt?_eq (directory ++ steps)
  rw [if_pos (List.prefix_append _ _), List.drop_left] at hentry
  have hat := hoverlaid (reached ++ [name] ++ steps)
  have hnone : steps ≠ [] → roomy.entryAt? (directory ++ steps) = none := by
    intro hsteps
    by_cases hunder : reached ++ [name] <+: directory ++ steps
    · exact hnew.free_below hgrounded hunder
    · rw [← entryAt?_staged hnew hoverlaid hunder]
      exact hmoved.empty _ (List.prefix_append _ _) (by simpa using hsteps)
  refine ⟨fun file hfile hplace => ?_, fun hne haround => ?_, fun hinside hothers => ?_⟩
  · rw [hentry]
    exact hat.file_eq file hfile (by rw [List.append_cancel_left hplace])
  · rw [hentry]
    refine ⟨(hat.directory_eq
      (fun file hfile hsame => hne file hfile (by rw [List.append_cancel_left hsame])) ?_).1,
      fun entry hold => ?_⟩
    · obtain habove | ⟨file, hfile, habove⟩ := haround
      · exact .inl (by simp [eq_nil_of_append_below habove])
      · exact .inr ⟨file, hfile, (List.prefix_append_right_inj _).mpr
          ((List.prefix_append_right_inj _).mp habove)⟩
    · by_cases hsteps : steps = []
      · exact hfree entry (by rwa [hsteps, List.append_nil] at hold)
      · simp [hnone hsteps] at hold
  · have hsteps : steps ≠ [] := by
      rintro rfl
      exact hinside (by simp)
    have hfree :=
      hnew.eq_none_of_below hgrounded (List.prefix_append (reached ++ [name]) steps)
        (by simpa using hsteps)
    rw [hentry, hnone hsteps, hat.other_eq, hfree]
    · exact fun habove => hsteps (eq_nil_of_append_below habove)
    · intro file hfile habove
      exact hothers file hfile
        ((List.prefix_append_right_inj _).mpr ((List.prefix_append_right_inj _).mp habove))

/-- Outside of the output directory everything is as it was when a hidden directory with files is
moved there. -/
theorem overlaidAt_outside_moved (hgrounded : roomy.Grounded)
    (hnew : NewHidden cwd around name links reached roomy prepared)
    (hoverlaid : Overlaid (reached ++ [name]) files prepared staged) (hstaged : staged.Grounded)
    (hclear : Clear name directory files)
    (hmoved : MovedDirectory staged (reached ++ [name]) directory moved)
    (houtside : ¬ directory <+: place) : OverlaidAt directory files roomy moved place := by
  have hentry := hmoved.entryAt?_eq place
  rw [if_neg houtside] at hentry
  by_cases hunder : reached ++ [name] <+: place
  · exact hclear.overlaidAt hunder (hnew.free_below hgrounded hunder)
      (by rw [hentry, if_pos hunder])
  have hbefore := entryAt?_staged hnew hoverlaid hunder
  rw [if_neg hunder, hbefore] at hentry
  have hnot : ∀ file ∈ files, place ≠ directory ++ file.names := fun file _ hsame =>
    houtside (hsame ▸ List.prefix_append _ _)
  refine ⟨fun file hfile hplace => absurd hplace (hnot file hfile),
    fun _ haround => ?_, fun _ _ => hentry⟩
  have habove : place <+: directory := by
    obtain habove | ⟨file, hfile, habove⟩ := haround
    · exact habove
    · exact (List.prefix_or_prefix_of_prefix habove (List.prefix_append _ _)).resolve_right houtside
  have hparent : place <+: directory.dropLast := by
    obtain ⟨steps, hsteps⟩ := habove
    have hnil : steps ≠ [] := by
      rintro rfl
      exact houtside (by simp [← hsteps])
    rw [← hsteps, List.dropLast_append_of_ne_nil hnil]
    exact List.prefix_append _ _
  have hthere : roomy.entryAt? place = some .directory := by
    rw [← hbefore]
    exact hstaged.directory_at_or_above hparent hmoved.parent
  rw [hentry]
  exact ⟨hthere, fun entry hold => Option.some.inj (hold.symm.trans hthere)⟩

/-- A hidden directory with files that is moved to the output directory lays them over the tree
there. -/
theorem overlaid_of_movedDirectory (hgrounded : roomy.Grounded)
    (hnew : NewHidden cwd around name links reached roomy prepared)
    (hoverlaid : Overlaid (reached ++ [name]) files prepared staged) (hstaged : staged.Grounded)
    (hclear : Clear name directory files)
    (hfree : ∀ entry, roomy.entryAt? directory = some entry → entry = .directory)
    (hmoved : MovedDirectory staged (reached ++ [name]) directory moved) :
    Overlaid directory files roomy moved := by
  intro place
  by_cases hbelow : directory <+: place
  · obtain ⟨steps, rfl⟩ := hbelow
    exact overlaidAt_below_moved hgrounded hnew hoverlaid hfree hmoved steps
  · exact overlaidAt_outside_moved hgrounded hnew hoverlaid hstaged hclear hmoved hbelow

end Moved

/-! ## Around the output directory -/

/-- What is around an output directory is the working directory or on the way to the output
directory. -/
theorem surroundings_cases (out : Path) :
    surroundings out = ⟨"."⟩ ∨ (surroundings out).text ≠ "" ∧
    Path.OnTheWay (surroundings out) out := by
  unfold surroundings
  split
  · next parent hparent =>
    split
    · exact .inl rfl
    · next hne => exact .inr ⟨by simpa using hne, Path.onTheWay_parent hparent⟩
  · exact .inl rfl

/-- What is around a path that never steps up never steps up. -/
theorem forward_surroundings (hout : out.Forward) : (surroundings out).Forward := by
  obtain hhere | ⟨-, hway⟩ := surroundings_cases out
  · rw [hhere]
    decide +kernel
  · exact hway.forward hout

/-- A walk along a path on the way succeeds only if the path is not empty. -/
theorem text_ne_of_walk {tree : FileTree} {last : LastLink} {path : Path} {arrival : Arrival}
    (h : tree.walk cwd last path = .ok arrival) : path.text ≠ "" := by
  intro hempty
  have hobstacle := (walk_eq_ok_iff.mp h).1
  simp [pathObstacle?, hempty] at hobstacle

/-- Where there are no links, directories around an output directory are made on the way to it
only. -/
theorem made_around (cwd : Place) {tree : FileTree} (hlinks : tree.LinkFree) (hout : out.Forward) :
    ∀ around ∈ (surroundings out).ancestors, ∀ grown place forDirectory, tree.Grows grown →
      grown.walk cwd .never around = .ok (.free place forDirectory) →
      place <+: placeOf cwd out := by
  intro around haround grown place forDirectory hgrows hwalk
  obtain hhere | ⟨-, hway⟩ := surroundings_cases out
  · have hancestors : Path.ancestors ⟨"."⟩ = [⟨"."⟩, ⟨""⟩] := by decide +kernel
    rw [hhere, hancestors, List.mem_cons, List.mem_singleton] at haround
    obtain rfl | rfl := haround
    · have hpieces : (Path.mk ".").pieces = ["."] := by decide +kernel
      have hwalked := (walk_eq_ok_iff.mp hwalk).2
      rw [hpieces, walkFrom, if_pos (.inr rfl), walkFrom] at hwalked
      cases hwalked
    · exact absurd rfl (text_ne_of_walk hwalk)
  · have hon := (Path.onTheWay_of_mem_ancestors haround).trans hway
    have hplace : place = placeOf cwd around :=
      (hlinks.grows hgrows).place_eq (hon.forward hout) hwalk
    exact hplace ▸ placeOf_below hon (text_ne_of_walk hwalk)

/-! ## The whole run -/

/-- Where a directory was moved, no links come to be. -/
theorem linkFree_movedDirectory {source target : Place} {tree moved : FileTree}
    (hlinks : tree.LinkFree) (hmoved : MovedDirectory tree source target moved) :
    moved.LinkFree := by
  intro place goal hlink
  rw [hmoved.entryAt?_eq] at hlink
  split at hlink
  · exact hlinks _ goal hlink
  · split at hlink
    · contradiction
    · exact hlinks place goal hlink

/-- Clearing a hidden directory away after it was moved finds nothing. -/
theorem removeAll_moved {directory : Place} {staged moved : FileTree} (hstaged : staged.Grounded)
    (hlinks : staged.LinkFree) (hhidden : Hidden cwd around name links reached staged)
    (haround : around.Forward) (hcwd : moved.entryAt? cwd = some .directory)
    (hmoved : MovedDirectory staged (reached ++ [name]) directory moved) :
    moved.removeAll cwd (around.join ⟨name⟩) = moved := by
  have hgone : moved.entryAt? (reached ++ [name]) = none := by
    rw [hmoved.entryAt?_eq, if_neg hmoved.not_below_target, if_pos List.prefix_rfl]
  have hplace := place_of_hidden hlinks haround hhidden
  unfold removeAll
  split
  · next place entry hfound =>
    have hwalk := find?_eq_some.mp hfound
    have hat := (linkFree_movedDirectory hlinks hmoved).place_eq
      (hhidden.isName.forward_join haround) hwalk
    have hthere := sound_of_walk (hmoved.grounded hstaged) hcwd hwalk
    rw [Arrival.place_taken, hplace] at hat
    rw [Arrival.Sound, hat, hgone] at hthere
    contradiction
  · rfl

/-- Whether files were laid over a tree at a directory, and the tree is fit for writing again. -/
structure Written (cwd directory : Place) (files : List OutputFile) (before after : FileTree) :
    Prop where
  grounded : after.Grounded
  linkFree : after.LinkFree
  cwd_eq : after.entryAt? cwd = some .directory
  names_ne_nil : ∀ file ∈ files, file.names ≠ []
  overlaid : Overlaid directory files before after

/-- Once files are written to a directory, it is there. -/
theorem Written.directory_eq {cwd directory : Place} {files : List OutputFile}
    {before after : FileTree} (h : Written cwd directory files before after) :
    after.entryAt? directory = some .directory := by
  refine ((h.overlaid directory).directory_eq (fun file hfile hsame => ?_) (.inl List.prefix_rfl)).1
  exact h.names_ne_nil file hfile (List.self_eq_append_right.mp hsame)

/-- Where files that are written to a tree with room made on the way to the output directory lie
over that tree, they lie over the tree from before. -/
theorem overlaid_of_room {directory : Place} {before roomy after : FileTree}
    (hroom : before.GrowsBy (· <+: directory) roomy) (h : Overlaid directory files roomy after) :
    Overlaid directory files before after := by
  intro place
  refine (h place).of_eq (fun _ => Iff.rfl) (fun houtside => ?_)
    (fun entry hold => hroom.grows.extends hold) rfl
  rcases hroom place with hsame | ⟨-, -, hmade⟩
  · exact hsame
  · exact absurd hmade houtside

/-- Staged files have names. -/
theorem Staged.names_ne_nil {tree : FileTree}
    (hstaged : Staged cwd around name links reached files tree) :
    ∀ file ∈ files, file.names ≠ [] :=
  fun file hfile => (hstaged.endsInName file hfile).names_ne_nil

/-- Merging staged files writes them. -/
theorem written_of_mergeInto {roomy prepared : FileTree} (hgrounded : roomy.Grounded)
    (hcwd : roomy.entryAt? cwd = some .directory)
    (hnew : NewHidden cwd (surroundings out) name links reached roomy prepared)
    (hoverlaid : Overlaid (reached ++ [name]) files prepared disk.tree)
    (hstaged : Staged cwd (surroundings out) name links reached files disk.tree)
    (hlinks : disk.tree.LinkFree) (hout : out.Forward)
    (hdirectory : disk.tree.entryAt? (placeOf cwd out) = some .directory)
    (hclear : Clear name (placeOf cwd out) files)
    (hfresh : ∀ number, Clear (hiddenName number) out.names files)
    (h : Ends (mergeInto (Disk.storage cwd) ((surroundings out).join ⟨name⟩) out files)
      disk (.ok ()) last) :
    Written cwd (placeOf cwd out) files roomy
      (last.tree.removeAll cwd ((surroundings out).join ⟨name⟩)) := by
  have houtside : ∀ {other : Place}, ¬ reached ++ [name] <+: other →
      disk.tree.entryAt? other = roomy.entryAt? other :=
    entryAt?_staged hnew hoverlaid
  have hinside := hnew.not_below hgrounded hcwd
  have hcwdstaged : disk.tree.entryAt? cwd = some .directory := (houtside hinside).trans hcwd
  obtain ⟨hgroundedlast, hlinkslast, hkeeps, hmerged⟩ := overlaid_of_mergeInto hstaged
    hcwdstaged hlinks hout (forward_surroundings hout) hdirectory hclear hfresh h
  have hhidden := hstaged.staging.hidden.keeps hkeeps
  refine ⟨?_, ?_, ?_, hstaged.names_ne_nil, fun place => ?_⟩
  · rw [hhidden.removeAll_eq]
    exact hgroundedlast.remove (by simp)
  · rw [hhidden.removeAll_eq]
    exact hlinkslast.remove (by simp)
  · rw [hhidden.entryAt?_removeAll, if_neg hinside]
    exact hkeeps.evolves.directory hcwdstaged
  · have hentry := hhidden.entryAt?_removeAll place
    by_cases hunder : reached ++ [name] <+: place
    · exact hclear.overlaidAt hunder (hnew.free_below hgrounded hunder)
        (by rw [hentry, if_pos hunder])
    · rw [if_neg hunder] at hentry
      exact (hmerged place hunder).of_eq (fun _ => Iff.rfl) (fun _ => houtside hunder)
        (fun entry hold => (houtside hunder).trans hold) hentry.symm

/-- Moving the hidden directory with the staged files to the output directory writes them. -/
theorem written_of_rename {roomy prepared staged moved : FileTree} (hgrounded : roomy.Grounded)
    (hcwd : roomy.entryAt? cwd = some .directory)
    (hnew : NewHidden cwd (surroundings out) name links reached roomy prepared)
    (hoverlaid : Overlaid (reached ++ [name]) files prepared staged)
    (hstaged : Staged cwd (surroundings out) name links reached files staged)
    (hlinks : staged.LinkFree) (hout : out.Forward)
    (hfree : ∀ entry, roomy.entryAt? (placeOf cwd out) = some entry → entry = .directory)
    (hclear : Clear name (placeOf cwd out) files)
    (h : staged.rename cwd ((surroundings out).join ⟨name⟩) out = .ok moved) :
    Written cwd (placeOf cwd out) files roomy
      (moved.removeAll cwd ((surroundings out).join ⟨name⟩)) := by
  have hgroundedstaged := hstaged.staging.grounded
  have hhidden := hstaged.staging.hidden
  have hinside := hnew.not_below hgrounded hcwd
  have hcwdstaged : staged.entryAt? cwd = some .directory :=
    (entryAt?_staged hnew hoverlaid hinside).trans hcwd
  obtain ⟨arrival, hwalk, hrenamed⟩ :=
    movedDirectory_of_rename hgroundedstaged hcwdstaged (hhidden.walk_eq .never) (by simp) h
  have hplace : arrival.place = placeOf cwd out := hlinks.place_eq hout hwalk
  have hmoved : MovedDirectory staged (reached ++ [name]) (placeOf cwd out) moved := by
    rw [← hplace]
    refine hrenamed fun hsame => ?_
    have hbelow : reached ++ [name] <+: placeOf cwd out := hsame.symm.trans hplace ▸ List.prefix_rfl
    exact hclear.not_below_directory hbelow
  have hcwdmoved : moved.entryAt? cwd = some .directory := by
    rw [hmoved.entryAt?_eq, if_neg hinside]
    split
    · next hbelow =>
      have hsame : cwd = placeOf cwd out := by
        by_contra hne
        rw [hmoved.empty cwd hbelow hne] at hcwdstaged
        contradiction
      rw [List.drop_of_length_le (Nat.le_of_eq (congrArg List.length hsame)), List.append_nil,
        hmoved.source_eq]
    · exact hcwdstaged
  rw [removeAll_moved hgroundedstaged hlinks hhidden (forward_surroundings hout) hcwdmoved hmoved]
  exact ⟨hmoved.grounded hgroundedstaged, linkFree_movedDirectory hlinks hmoved, hcwdmoved,
    hstaged.names_ne_nil, overlaid_of_movedDirectory hgrounded hnew hoverlaid hgroundedstaged
      hclear hfree hmoved⟩

/-- Installing staged files writes them. -/
theorem written_of_install {roomy prepared : FileTree} (hgrounded : roomy.Grounded)
    (hcwd : roomy.entryAt? cwd = some .directory)
    (hnew : NewHidden cwd (surroundings out) name links reached roomy prepared)
    (hoverlaid : Overlaid (reached ++ [name]) files prepared disk.tree)
    (hstaged : Staged cwd (surroundings out) name links reached files disk.tree)
    (hlinks : disk.tree.LinkFree) (hout : out.Forward)
    (hfree : ∀ entry, roomy.entryAt? (placeOf cwd out) = some entry → entry = .directory)
    (hclear : Clear name (placeOf cwd out) files)
    (hfresh : ∀ number, Clear (hiddenName number) out.names files)
    (h : Ends (install (Disk.storage cwd) ((surroundings out).join ⟨name⟩) out files)
      disk (.ok ()) last) :
    Written cwd (placeOf cwd out) files roomy
      (last.tree.removeAll cwd ((surroundings out).join ⟨name⟩)) := by
  rcases install_cases h with ⟨same, htree, -, hthere, hmerge⟩ | ⟨-, -, hrename⟩ |
    ⟨failure, hfailed, -⟩
  · obtain ⟨found, hfound⟩ := Option.isSome_iff_exists.mp hthere
    have hwalk := find?_eq_some.mp hfound
    have hplace : found.1 = placeOf cwd out := hlinks.place_eq hout hwalk
    have hcwdstaged := (entryAt?_staged hnew hoverlaid (hnew.not_below hgrounded hcwd)).trans hcwd
    have hsound : disk.tree.entryAt? found.1 = some found.2 :=
      sound_of_walk hstaged.staging.grounded hcwdstaged hwalk
    rw [hplace] at hsound
    have hentry : found.2 = .directory :=
      hfree found.2 ((entryAt?_staged hnew hoverlaid hclear.not_below_directory).symm.trans hsound)
    rw [hentry, ← htree] at hsound
    rw [← htree] at hoverlaid hstaged hlinks
    exact written_of_mergeInto hgrounded hcwd hnew hoverlaid hstaged hlinks hout
      hsound hclear hfresh hmerge
  · exact written_of_rename hgrounded hcwd hnew hoverlaid hstaged hlinks hout hfree hclear hrename
  · exact nomatch hfailed

/-- Where there are no links, writing that succeeds lays the files over the tree. -/
theorem written_of_writeOut {emitted : List EmittedFile} (hgrounded : disk.tree.Grounded)
    (hcwd : disk.tree.entryAt? cwd = some .directory) (hlinks : disk.tree.LinkFree)
    (hout : out.Forward)
    (hdirectory : ∀ entry, disk.tree.entryAt? (placeOf cwd out) = some entry → entry = .directory)
    (hplain : ∀ file ∈ emitted, (Path.mk file.path).Plain) (hapart : Apart (outputFiles emitted))
    (hfresh : ∀ number, Clear (hiddenName number) out.names (outputFiles emitted)) {count : Nat}
    (h : Ends (writeOut (Disk.storage cwd) out emitted) disk (.ok count) last) :
    count = (outputFiles emitted).length ∧
    Written cwd (placeOf cwd out) (outputFiles emitted) disk.tree last.tree := by
  have hcases := writeOut_cases hgrounded hcwd (made_around cwd hlinks hout) h
  rcases hcases with ⟨failure, hfailed, -⟩ |
    ⟨name, links, reached, roomy, prepared, installed, result, hprepared, -,
    hrun, hremoved, -, hresult⟩
  · exact nomatch hfailed
  cases result with
  | error failure => exact nomatch hresult
  | ok done =>
    refine ⟨Except.ok.inj hresult, ?_⟩
    have hnew := hprepared.hidden
    have hcwdroomy := hprepared.room.grows.extends hcwd
    have hcwdprepared := hnew.grows.extends hcwdroomy
    have hlinksprepared := (hlinks.grows hprepared.room.grows).grows hnew.grows
    have hstaging := staging_of_newHidden hprepared.grounded hnew
    have hplainoutputs : ∀ output ∈ outputFiles emitted, output.path.Plain :=
      fun output => plain_of_mem_outputFiles hplain
    have hclear : Clear name (placeOf cwd out) (outputFiles emitted) := by
      rw [hprepared.name_eq]
      exact clear_unusedName hfresh hcwdroomy
    rcases Ends.bind_iff.mp hrun with ⟨staged, between, hstage, hinstall⟩ | ⟨failure, hfailed, -⟩
    swap
    · exact nomatch hfailed
    obtain ⟨hoverlaid, hlinksstaged⟩ := overlaid_of_stageAll hlinksprepared
      (forward_surroundings hout) hplainoutputs hapart hstaging hcwdprepared hstage
    have hstaged :=
      staged_of_stageAll hplainoutputs (outputFiles_names_nodup hplain) hstaging hcwdprepared hstage
    have hfree : ∀ entry, roomy.entryAt? (placeOf cwd out) = some entry → entry = .directory := by
      intro entry hentry
      rcases hprepared.room (placeOf cwd out) with hsame | ⟨-, hmade, -⟩
      · exact hdirectory entry (hsame ▸ hentry)
      · exact Option.some.inj (hentry.symm.trans hmade)
    have hwritten := written_of_install hprepared.grounded hcwdroomy hnew hoverlaid hstaged
      hlinksstaged hout hfree hclear hfresh hinstall
    rw [← hremoved] at hwritten
    exact ⟨hwritten.grounded, hwritten.linkFree, hwritten.cwd_eq, hwritten.names_ne_nil,
      overlaid_of_room hprepared.room hwritten.overlaid⟩

/-- Where no file is in the place of a directory around another one, all of them are written as they
are. -/
theorem outputFiles_perm_of_apart {emitted : List EmittedFile}
    (hapart : Apart (emitted.map EmittedFile.output)) :
    (outputFiles emitted).Perm (emitted.map EmittedFile.output) := by
  refine outputFiles_perm (List.pairwise_map.mpr ?_)
  refine (List.pairwise_map.mp hapart).imp fun {file other} hbelow hsame => hbelow.1 ?_
  have hnames : file.output.names = other.output.names :=
    congrArg (List.filterMap Path.Component.name?) hsame
  exact hnames ▸ List.prefix_rfl

/-- Whether files lie over a tree does not depend on their order. -/
theorem Overlaid.perm {directory : Place} {others : List OutputFile} {before after : FileTree}
    (h : Overlaid directory files before after) (hperm : files.Perm others) :
    Overlaid directory others before after :=
  fun place => (h place).of_eq (fun _ => hperm.mem_iff.symm) (fun _ => rfl) (fun _ hold => hold) rfl

/-- If writing succeeds where there are no links, all files are laid over the tree at the output
directory, and everything else is as it was. Writing them again changes nothing. -/
theorem overlaid_of_writeOut (cwd : Place) (out : Path) (files : List EmittedFile)
    (disk after : Disk) (count : Nat) (hgrounded : disk.tree.Grounded)
    (hcwd : disk.tree.entryAt? cwd = some .directory) (hlinks : disk.tree.LinkFree)
    (hout : out.Forward)
    (hdirectory : ∀ entry, disk.tree.entryAt? (placeOf cwd out) = some entry → entry = .directory)
    (hplain : ∀ file ∈ files, (Path.mk file.path).Plain)
    (hapart : Apart (files.map EmittedFile.output))
    (hfresh : ∀ number, Clear (hiddenName number) out.names (files.map EmittedFile.output))
    (h : (writeOut (Disk.storage cwd) out files).run disk = (.ok count, after)) :
    count = files.length ∧
      Overlaid (placeOf cwd out) (files.map EmittedFile.output) disk.tree after.tree ∧
      ∀ (next last : Disk) (again : Nat), next.tree = after.tree →
        (writeOut (Disk.storage cwd) out files).run next = (.ok again, last) →
          again = count ∧ ∀ place, last.tree.entryAt? place = after.tree.entryAt? place := by
  have hperm := outputFiles_perm_of_apart hapart
  have hapartoutputs : Apart (outputFiles files) := by
    refine (hperm.pairwise_iff fun {file other} hne => ?_).mpr hapart
    exact hne.symm
  have hfreshoutputs : ∀ number, Clear (hiddenName number) out.names
      (outputFiles files) := fun number =>
    ⟨(hfresh number).1, fun file hfile => (hfresh number).2 file (hperm.mem_iff.mp hfile)⟩
  obtain ⟨hcount, hwritten⟩ := written_of_writeOut hgrounded hcwd hlinks hout hdirectory
    hplain hapartoutputs hfreshoutputs h
  refine ⟨by rw [hcount, hperm.length_eq, List.length_map], hwritten.overlaid.perm hperm,
    fun next last again hnext hagain => ?_⟩
  have hthere : ∀ entry, after.tree.entryAt? (placeOf cwd out) = some entry →
      entry = .directory := fun entry hentry =>
    Option.some.inj (hentry.symm.trans hwritten.directory_eq)
  rw [← hnext] at hwritten hthere ⊢
  obtain ⟨hcountagain, hwrittenagain⟩ := written_of_writeOut hwritten.grounded hwritten.cwd_eq
    hwritten.linkFree hout hthere hplain hapartoutputs hfreshoutputs hagain
  exact ⟨hcountagain.trans hcount.symm, hwritten.overlaid.again hwrittenagain.overlaid⟩

/-- A tree with a directory that holds two files. -/
def earlierTree : FileTree :=
  ⟨[(["gen"], .directory), (["gen", "a"], .file "old".toUTF8),
    (["gen", "kept"], .file "kept".toUTF8)]⟩

/-- Of two files written to a directory, one replaces a file and the other is put in a new
directory. -/
theorem overlaid_over_earlierTree :
    let run := (writeOut (Disk.storage []) ⟨"gen"⟩ [⟨"a", "new"⟩, ⟨"b/c", "new"⟩]).run
      earlierTree.disk
    let again := (writeOut (Disk.storage []) ⟨"gen"⟩ [⟨"a", "new"⟩, ⟨"b/c", "new"⟩]).run run.2
    run.1 = .ok 2 ∧ Overlaid ["gen"] [⟨⟨"a"⟩, "new"⟩, ⟨⟨"b/c"⟩, "new"⟩] earlierTree run.2.tree ∧
      again.1 = .ok 2 ∧ ∀ place, again.2.tree.entryAt? place = run.2.tree.entryAt? place := by
  intro run again
  have houtputs : outputFiles [⟨"a", "new"⟩, ⟨"b/c", "new"⟩] =
      [⟨⟨"a"⟩, "new"⟩, ⟨⟨"b/c"⟩, "new"⟩] := by cbv
  have hruns : run.1 = .ok 2 ∧ again.1 = .ok 2 := by
    simp only [run, again, writeOut, houtputs, Disk.storage, Disk.look,
      Disk.inspect, FileTree.lookAt, FileTree.makeDirectory, FileTree.write, FileTree.rename,
      FileTree.removeFile, FileTree.removeAll, FileTree.find?, FileTree.walk, FileTree.read,
      walkFrom_eq_walkSteps]
    decide +kernel
  have hgrounded : earlierTree.Grounded := by
    refine grounded_of_entries ?_
    simp [earlierTree, entryAt?, List.lookup]
  have hlinks : earlierTree.LinkFree := linkFree_of_entries (by simp [earlierTree])
  have hdirectory : ∀ entry, earlierTree.entryAt? (placeOf [] ⟨"gen"⟩) = some entry →
      entry = .directory := by
    have hplace : placeOf [] ⟨"gen"⟩ = ["gen"] := by decide +kernel
    have hthere : earlierTree.entryAt? ["gen"] = some .directory := rfl
    exact fun entry hentry => Option.some.inj ((hplace ▸ hentry).symm.trans hthere)
  have hfresh : ∀ number, Clear (hiddenName number) (Path.mk "gen").names
      ([⟨"a", "new"⟩, ⟨"b/c", "new"⟩].map EmittedFile.output) := by
    intro number
    have hnames : (Path.mk "gen").names = ["gen"] ∧ (Path.mk "a").names = ["a"] ∧
        (Path.mk "b/c").names = ["b", "c"] := by
      decide +kernel
    have hne : ∀ text ∈ ["gen", "a", "b", "c"], hiddenName number ≠ text := fun text htext =>
      hiddenName_ne number (by revert text; decide)
    simp only [List.forall_mem_cons] at hne
    simp [Clear, OutputFile.names, EmittedFile.output, hnames, hne]
  obtain ⟨-, hoverlaid, hrepeated⟩ := overlaid_of_writeOut [] ⟨"gen"⟩ [⟨"a", "new"⟩, ⟨"b/c", "new"⟩]
    earlierTree.disk run.2 2 hgrounded rfl hlinks (by decide +kernel) hdirectory
    (by decide +kernel) (by decide +kernel) hfresh (Prod.ext hruns.1 rfl)
  exact ⟨hruns.1, hoverlaid, hruns.2, (hrepeated run.2 again.2 2 rfl (Prod.ext hruns.2 rfl)).2⟩

end SchemaBindings.Bindings
