import SchemaBindings.Proofs.FileTree.Ways

/-!
# Making directories along a way

On a disk that refuses nothing of its own, making a directory and those around it succeeds exactly
if every place on the way is a directory or may become one. Then all of them are, and nothing else
has changed.
-/

namespace SchemaBindings

open FileTree
open SchemaBindings.Path (blank movesOf)

/-! ## Paths as a whole -/

namespace FileTree

/-- What stands against no path as a whole stands against none that its text starts with, unless
that is empty. -/
theorem pathObstacle?_of_below {path parent : Path} (hpath : pathObstacle? path = none)
    (hbelow : parent.text.toList <+: path.text.toList) (hne : parent.text ≠ "") :
    pathObstacle? parent = none := by
  obtain ⟨rest, hrest⟩ := hbelow
  have htext : path.text = parent.text ++ String.ofList rest := by
    rw [← String.toList_inj, String.toList_append, String.toList_ofList, hrest]
  unfold pathObstacle? at hpath ⊢
  split_ifs at hpath with hempty hzero hlong
  rw [if_neg (by simpa using hne), if_neg, if_neg]
  · rw [htext, String.utf8ByteSize_append] at hlong
    omega
  · exact fun hin => hzero (by rw [← hrest]; exact List.mem_append_left _ hin)

/-- Where something stands against a path as a whole, no walk along it succeeds. -/
theorem walk_eq_error {tree : FileTree} {cwd : Place} {last : LastLink} {path : Path}
    {obstacle : Obstacle} (h : pathObstacle? path = some obstacle) :
    tree.walk cwd last path = .error obstacle := by
  rw [walk, h]

/-- Whether the last name of a place is short enough to be given. -/
def Short (place : Place) : Prop :=
  ∀ name ∈ place.getLast?, name.utf8ByteSize ≤ Disk.nameLimit

/-- A place is short enough exactly if its last name is. -/
theorem short_concat_iff (place : Place) (name : String) :
    Short (place ++ [name]) ↔ name.utf8ByteSize ≤ Disk.nameLimit := by
  simp [Short]

/-- A name at the end of a path may be given if it is short enough. -/
theorem endsInName_iff {path : Path} {before : List String} {last : String}
    (h : path.moves = before ++ [last]) (hup : last ≠ "..") :
    Disk.endsInName path = true ↔ last.utf8ByteSize ≤ Disk.nameLimit := by
  have hlast : path.components.getLast? = some (.name last) := by
    rcases path.components_cases with ⟨-, hcomponents⟩ | ⟨-, hcomponents | hcomponents⟩ <;>
      simp [hcomponents, h, Path.meaning, hup, List.getLast?_cons]
  simp [Disk.endsInName, hlast]

/-! ## Places on the way -/

/-- Whether a directory is at a place or may be made there. -/
def Passable (tree : FileTree) (place : Place) : Prop :=
  tree.entryAt? place = some .directory ∨ (tree.entryAt? place = none ∧ Short place)

/-- What is passable stays so where a tree grows. -/
theorem Passable.grows {tree grown : FileTree} {place : Place} (h : tree.Passable place)
    (hgrows : tree.Grows grown) :
    grown.Passable place := by
  rcases h with hdirectory | ⟨hnone, hshort⟩
  · exact .inl (hgrows.extends hdirectory)
  · rcases hgrows place with hsame | ⟨-, hdirectory, -⟩
    · exact .inr ⟨hsame.trans hnone, hshort⟩
    · exact .inl hdirectory

/-- Whether a tree is another one after directories were to be made at some places on a way. -/
structure MadeWay (stops : List Place) (tree : FileTree) (outcome : Except Obstacle Unit)
    (after : FileTree) : Prop where
  grounded : after.Grounded
  grows : tree.GrowsBy (fun stop => stop ∈ stops ∧ Short stop) after
  directories : outcome = .ok () → ∀ stop ∈ stops, after.entryAt? stop = some .directory
  blocked : outcome ≠ .ok () → ∃ stop ∈ stops, ¬ tree.Passable stop

end FileTree

/-! ## Changes of a disk that refuses nothing of its own -/

namespace Disk

variable {path : Path} {tree changed : FileTree}

/-- A change that the tree allows is made. -/
theorem attempt_ok (change : FileTree → Except Obstacle FileTree) (h : change tree = .ok changed)
    (hname : endsInName path = true) :
    Ends (attempt path change) tree.disk (.ok ()) changed.disk := by
  change attempt path change tree.disk = _
  simp [attempt, disk, h, hname]

/-- A change that would give too long a name is not made. -/
theorem attempt_tooLong (change : FileTree → Except Obstacle FileTree)
    (h : change tree = .ok changed) (hname : endsInName path = false) :
    Ends (attempt path change) tree.disk (.error .tooLong) tree.disk := by
  change attempt path change tree.disk = _
  simp [attempt, disk, h, hname]

/-- A change that the tree does not allow is not made. -/
theorem attempt_error (change : FileTree → Except Obstacle FileTree) {obstacle : Obstacle}
    (h : change tree = .error obstacle) :
    Ends (attempt path change) tree.disk (.error obstacle) tree.disk := by
  change attempt path change tree.disk = _
  simp [attempt, disk, h]

variable {cwd : Place} {obstacle : Obstacle}

/-- What leads to a directory is said to do so. -/
theorem isDirectory_ends (tree : FileTree) (cwd : Place) (path : Path) :
    Gives ((storage cwd).isDirectory path) tree.disk
      (decide ((tree.find? cwd .through path).map (fun found => found.2.kind) = some .directory))
      tree.disk :=
  rfl

/-- What leads to something is said to do so. -/
theorem isThere_ends (tree : FileTree) (cwd : Place) (path : Path) :
    Gives ((storage cwd).isThere path) tree.disk (tree.find? cwd .through path).isSome
      tree.disk := by
  rw [← Option.isSome_map]
  rfl

/-- What is a directory passes. -/
theorem orDirectory_ok (h : tree.walk cwd .through path = .ok (.taken (goal cwd path) .directory)) :
    Ends ((storage cwd).orDirectory path obstacle) tree.disk (.ok ()) tree.disk := by
  rw [Storage.orDirectory, Ends.bind_iff]
  have hasked := isDirectory_ends tree cwd path
  rw [find?_eq_some.mpr h] at hasked
  exact .inl ⟨true, tree.disk, Ends.lift_ok hasked, rfl⟩

/-- What is no directory does not pass. -/
theorem orDirectory_error
    (h : ∀ place, tree.walk cwd .through path ≠ .ok (.taken place .directory)) :
    Ends ((storage cwd).orDirectory path obstacle) tree.disk (.error obstacle) tree.disk := by
  rw [Storage.orDirectory, Ends.bind_iff]
  have hasked := isDirectory_ends tree cwd path
  rw [decide_eq_false] at hasked
  · exact .inl ⟨false, tree.disk, Ends.lift_ok hasked, rfl⟩
  intro hkind
  obtain ⟨⟨place, entry⟩, hfound, hdirectory⟩ := Option.map_eq_some_iff.mp hkind
  cases entry with
  | directory => exact h place (find?_eq_some.mp hfound)
  | file content => contradiction
  | link target => contradiction

/-! ## Making one directory -/

/-- A way of directories alone is made already. -/
theorem madeWay_of_directories (hgrounded : tree.Grounded)
    (h : ∀ stop ∈ way cwd path, tree.entryAt? stop = some .directory) :
    MadeWay (way cwd path) tree (.ok ()) tree :=
  ⟨hgrounded, .refl _ tree, fun _ => h, fun hne => absurd rfl hne⟩

/-- A way with something in it that is not passable is not made. -/
theorem madeWay_of_blocked (hgrounded : tree.Grounded) {stop : Place} (hstop : stop ∈ way cwd path)
    (h : ¬ tree.Passable stop) (obstacle : Obstacle) :
    MadeWay (way cwd path) tree (.error obstacle) tree :=
  ⟨hgrounded, .refl _ tree, nofun, fun _ => ⟨stop, hstop, h⟩⟩

/-- Where a name ends a way through directories, and no directory has it, no directory ends the
way. -/
theorem name_of_not_directories (hgrounded : tree.Grounded)
    (hcwd : tree.entryAt? cwd = some .directory)
    (hbefore : ∀ stop ∈ passed (start cwd path) path.moves.dropLast, tree.entryAt? stop =
      some .directory)
    (h : ¬ ∀ stop ∈ way cwd path, tree.entryAt? stop = some .directory) :
    ∃ before last, path.moves = before ++ [last] ∧ last ≠ ".." ∧
      way cwd path = passed (start cwd path) before ++ [goal cwd path] ∧
      goal cwd path = reach (start cwd path) before ++ [last] ∧
      tree.entryAt? (reach (start cwd path) before) = some .directory ∧
      tree.entryAt? (goal cwd path) ≠ some .directory := by
  rcases List.eq_nil_or_concat path.moves with hnil | ⟨before, last, hmoves⟩
  · exact absurd (fun stop hstop => by simp [way, hnil, passed] at hstop) h
  rw [List.concat_eq_append] at hmoves
  rw [hmoves, List.dropLast_concat] at hbefore
  have hreach := directory_reach (directory_start hcwd path) hbefore
  have hway : way cwd path = passed (start cwd path) before ++ [goal cwd path] := by
    rw [way, goal, hmoves, passed_concat, reach_concat]
  have hgoal : tree.entryAt? (goal cwd path) ≠ some .directory := by
    intro hgoal
    refine h fun stop hstop => ?_
    rw [hway, List.mem_append, List.mem_singleton] at hstop
    rcases hstop with hstop | rfl
    · exact hbefore stop hstop
    · exact hgoal
  have hup : last ≠ ".." := by
    rintro rfl
    refine hgoal ?_
    rw [goal, hmoves, reach_concat, moveTo, if_pos rfl]
    exact hgrounded.directory_dropLast (by simp [hreach])
  refine ⟨before, last, hmoves, hup, hway, ?_, hreach, hgoal⟩
  rw [goal, hmoves, reach_concat, moveTo_name hup]

/-- In front of the last place of a way, making a directory makes one there, or it is there, or
something is in its place. -/
theorem makeDirectory_ends (hgrounded : tree.Grounded) (hcwd : tree.entryAt? cwd = some .directory)
    (hpath : pathObstacle? path = none) (hbare : path.Bare)
    (hlinks : ∀ stop ∈ way cwd path, ∀ target, tree.entryAt? stop ≠ some (.link target))
    (hbefore : ∀ stop ∈ passed (start cwd path) path.moves.dropLast, tree.entryAt? stop =
      some .directory) :
    (∃ after, Ends ((storage cwd).makeDirectory path) tree.disk (.ok ()) after.disk ∧
      MadeWay (way cwd path) tree (.ok ()) after) ∨
    ∃ obstacle outcome, obstacle ≠ .missing ∧
      Ends ((storage cwd).makeDirectory path) tree.disk (.error obstacle) tree.disk ∧
      Ends ((storage cwd).orDirectory path obstacle) tree.disk outcome tree.disk ∧
        MadeWay (way cwd path) tree outcome tree := by
  by_cases hall : ∀ stop ∈ way cwd path, tree.entryAt? stop = some .directory
  · have hmake : tree.makeDirectory cwd path = .error .present := by
      rw [FileTree.makeDirectory, walk_of_directories hpath hall]
    exact .inr ⟨.present,
      .ok (), by simp, attempt_error (fun tree => tree.makeDirectory cwd path) hmake,
      orDirectory_ok (walk_of_directories hpath hall), madeWay_of_directories hgrounded hall⟩
  obtain ⟨before, last, hmoves, hup, hway, hgoal, hreach, hplain⟩ :=
    name_of_not_directories hgrounded hcwd hbefore hall
  obtain ⟨front, hpieces, hfront, hblank⟩ := hbare.pieces_eq hmoves
  rw [hmoves, List.dropLast_concat] at hbefore
  have hin : goal cwd path ∈ way cwd path := by simp [hway]
  have hwalk (last : LastLink) : tree.walk cwd last path = .ok (tree.arrivalAt (goal cwd path)) :=
    walk_name hpath hpieces hblank hup (hfront ▸ hbefore) fun _ => hlinks _ hin
  have hshort : endsInName path = true ↔ Short (goal cwd path) := by
    rw [hgoal, short_concat_iff, endsInName_iff hmoves hup]
  rw [arrivalAt] at hwalk
  cases hentry : tree.entryAt? (goal cwd path) with
  | none =>
    rw [hentry] at hwalk
    have hmake : tree.makeDirectory cwd path = .ok (tree.put (goal cwd path) .directory) := by
      rw [FileTree.makeDirectory, hwalk]
    have hnamed : goal cwd path ≠ [] := by simp [hgoal]
    cases hname : endsInName path with
    | true =>
      refine .inl ⟨_, attempt_ok (fun tree => tree.makeDirectory cwd path) hmake hname, ?_,
        fun stop => ?_, ?_, by simp⟩
      · refine hgrounded.put hnamed ?_ fun _ => rfl
        rw [hgoal, List.dropLast_concat, hreach]
      · rw [entryAt?_put_eq _ hnamed]
        split
        · next hsame => exact .inr ⟨hsame ▸ hentry, rfl, hsame ▸ hin, hsame ▸ hshort.mp hname⟩
        · exact .inl rfl
      · intro _ stop hstop
        rw [entryAt?_put_eq _ hnamed]
        split
        · rfl
        · next hne =>
          rw [hway, List.mem_append, List.mem_singleton] at hstop
          exact hbefore stop (hstop.resolve_right hne)
    | false =>
      refine .inr ⟨.tooLong,
        _, by simp, attempt_tooLong (fun tree => tree.makeDirectory cwd path) hmake hname,
        orDirectory_error fun place => ?_, madeWay_of_blocked hgrounded hin ?_ _⟩
      · simp [hwalk]
      · rintro (hdirectory | ⟨-, hyes⟩)
        · exact hplain hdirectory
        · simp [hshort.mpr hyes] at hname
  | some entry =>
    rw [hentry] at hwalk
    have hmake : tree.makeDirectory cwd path = .error .present := by
      rw [FileTree.makeDirectory, hwalk]
    have hkind : entry ≠ .directory :=
      fun hdirectory => hplain (hentry.trans (congrArg some hdirectory))
    refine .inr ⟨.present,
      _, by simp, attempt_error (fun tree => tree.makeDirectory cwd path) hmake,
      orDirectory_error fun place => ?_, madeWay_of_blocked hgrounded hin ?_ _⟩
    · simp [hwalk, hkind]
    · rintro (hdirectory | ⟨hnone, -⟩)
      · exact hplain hdirectory
      · simp [hentry] at hnone

/-! ## Making directories -/

/-- Where a way is not free to its last place, making a directory there is refused: nothing is there
that a place may be in, or something else is. -/
theorem makeDirectory_refused (hgrounded : tree.Grounded)
    (hcwd : tree.entryAt? cwd = some .directory) (hpath : pathObstacle? path = none)
    (hbare : path.Bare)
    (hlinks : ∀ stop ∈ way cwd path, ∀ target, tree.entryAt? stop ≠ some (.link target))
    (hbefore : ¬ ∀ stop ∈ passed (start cwd path) path.moves.dropLast, tree.entryAt? stop =
      some .directory) :
    Ends ((storage cwd).makeDirectory path) tree.disk (.error .missing) tree.disk ∨
    ∃ obstacle outcome, obstacle ≠ .missing ∧
      Ends ((storage cwd).makeDirectory path) tree.disk (.error obstacle) tree.disk ∧
      Ends ((storage cwd).orDirectory path obstacle) tree.disk outcome tree.disk ∧
        MadeWay (way cwd path) tree outcome tree := by
  rcases List.eq_nil_or_concat path.moves with hnil | ⟨before, last, hmoves⟩
  · simp [hnil, passed] at hbefore
  rw [List.concat_eq_append] at hmoves
  obtain ⟨front, hpieces, hfront, hblank⟩ := hbare.pieces_eq hmoves
  rw [hmoves, List.dropLast_concat, ← hfront] at hbefore
  have hrest : ¬ [last].all String.isEmpty = true := by
    simp only [List.all_cons, List.all_nil, Bool.and_true, String.isEmpty_iff]
    exact fun hempty => by simp [hempty, blank] at hblank
  have hsub : ∀ stop ∈ passed (start cwd path) (movesOf front), stop ∈ way cwd path := by
    intro stop hstop
    rw [way, hmoves, passed_concat, ← hfront]
    exact List.mem_append_left _ hstop
  have hblocked (how : LastLink) := @walkFrom_blocked tree how linkLimit _ _
    _ hrest hbefore hgrounded (directory_start hcwd path)
  have hwalk (how : LastLink) : tree.walk cwd how path =
      tree.walkFrom how linkLimit (start cwd path) (front ++ [last]) := by
    rw [walk, hpath, ← hpieces, start]
  obtain ⟨stop, hstop, ⟨-, hmissing⟩ | ⟨content, hfile, hrefused⟩ | ⟨target, hlink⟩⟩ :=
    hblocked .never
  · refine .inl (attempt_error (fun tree => tree.makeDirectory cwd path) ?_)
    rw [FileTree.makeDirectory, hwalk, hmissing]
  · refine .inr
      ⟨.notDirectory, _, by simp, attempt_error (fun tree => tree.makeDirectory cwd path) ?_,
      orDirectory_error fun place => ?_, madeWay_of_blocked hgrounded (hsub stop hstop) ?_ _⟩
    · rw [FileTree.makeDirectory, hwalk, hrefused]
    · obtain ⟨other, hother, ⟨-, hwrong⟩ | ⟨-, -, hwrong⟩ | ⟨target, hlink⟩⟩ := hblocked .through
      · simp [hwalk, hwrong]
      · simp [hwalk, hwrong]
      · exact absurd hlink (hlinks other (hsub other hother) target)
    · simp [Passable, hfile]
  · exact absurd hlink (hlinks stop (hsub stop hstop) target)

/-- What was made on the first places of a way and then on all of them was made on all of them. -/
theorem madeWay_trans {stops more : List Place} (hmore : ∀ stop ∈ stops, stop ∈ more)
    {between after : FileTree} {first second : Except Obstacle Unit}
    (hfirst : MadeWay stops tree first between) (hsecond : MadeWay more between second after) :
    MadeWay more tree second after := by
  have hgrows : tree.GrowsBy (fun stop => stop ∈ more ∧ Short stop) between := by
    intro stop
    exact (hfirst.grows stop).imp_right fun ⟨hnone, hdirectory, hin, hshort⟩ =>
      ⟨hnone, hdirectory, hmore stop hin, hshort⟩
  refine ⟨hsecond.grounded, hgrows.trans hsecond.grows, hsecond.directories, fun hne => ?_⟩
  obtain ⟨stop, hstop, hblocked⟩ := hsecond.blocked hne
  exact ⟨stop, hstop, fun hpassable => hblocked (hpassable.grows hfirst.grows.grows)⟩

/-- Along the way of a bare path all directories are made, or something on the way is not passable,
if that is so for the way in front of its last place. -/
theorem makeInnermost_cons (hgrounded : tree.Grounded) (hcwd : tree.entryAt? cwd = some .directory)
    (hpath : pathObstacle? path = none) (hbare : path.Bare)
    (hlinks : ∀ stop ∈ way cwd path, ∀ target, tree.entryAt? stop ≠ some (.link target))
    {outer : List Path}
    (houter : (¬ ∀ stop ∈ passed (start cwd path) path.moves.dropLast, tree.entryAt? stop =
      some .directory) →
      ∃ outcome after, Ends ((storage cwd).makeInnermost outer) tree.disk outcome after.disk ∧
        MadeWay (passed (start cwd path) path.moves.dropLast) tree outcome after) :
    ∃ outcome after, Ends ((storage cwd).makeInnermost (path :: outer)) tree.disk
        outcome after.disk ∧
      MadeWay (way cwd path) tree outcome after := by
  have hne : ¬ path.text.isEmpty = true := by
    intro hempty
    rw [pathObstacle?, if_pos hempty] at hpath
    contradiction
  rw [Storage.makeInnermost, if_neg hne]
  simp only [Ends.tryCatch_iff]
  by_cases hbefore : ∀ stop ∈ passed (start cwd path) path.moves.dropLast, tree.entryAt? stop =
    some .directory
  · rcases makeDirectory_ends hgrounded hcwd hpath hbare hlinks hbefore with
      ⟨after, hmade, hway⟩ | ⟨obstacle, outcome, hobstacle, hrefused, hpass, hway⟩
    · exact ⟨_, after, .inl ⟨(), rfl, hmade⟩, hway⟩
    · exact ⟨outcome, tree, .inr ⟨obstacle, tree.disk, hrefused, by rwa [if_neg hobstacle]⟩, hway⟩
  rcases makeDirectory_refused hgrounded hcwd hpath hbare hlinks hbefore with
    hmissing | ⟨obstacle, outcome, hobstacle, hrefused, hpass, hway⟩
  swap
  · exact ⟨outcome, tree, .inr ⟨obstacle, tree.disk, hrefused, by rwa [if_neg hobstacle]⟩, hway⟩
  obtain ⟨first, between, hfirst, hfirstway⟩ := houter hbefore
  have hsub : ∀ stop ∈ passed (start cwd path) path.moves.dropLast, stop ∈ way cwd path := by
    intro stop hstop
    rcases List.eq_nil_or_concat path.moves with hnil | ⟨before, last, hmoves⟩
    · simp [hnil, passed] at hstop
    · rw [List.concat_eq_append] at hmoves
      rw [hmoves, List.dropLast_concat] at hstop
      rw [way, hmoves, passed_concat]
      exact List.mem_append_left _ hstop
  cases first with
  | error obstacle =>
    refine ⟨.error obstacle, between, .inr ⟨.missing, tree.disk, hmissing, ?_⟩,
      hfirstway.grounded, ?_, by simp, ?_⟩
    · rw [if_pos rfl, Ends.bind_iff]
      exact .inr ⟨obstacle, rfl, hfirst⟩
    · intro stop
      rcases hfirstway.grows stop with hsame | ⟨hnone, hdirectory, hin, hshort⟩
      · exact .inl hsame
      · exact .inr ⟨hnone, hdirectory, hsub stop hin, hshort⟩
    · intro _
      obtain ⟨stop, hstop, hblocked⟩ := hfirstway.blocked (by simp)
      exact ⟨stop, hsub stop hstop, hblocked⟩
  | ok done =>
    have hgrows := hfirstway.grows.grows
    have hlinksbetween : ∀ stop ∈ way cwd path, ∀ target, between.entryAt? stop ≠
        some (.link target) :=
      fun stop hstop target hlink =>
        hlinks stop hstop target (hgrows.eq_some_of_plain hlink (by simp))
    have hagain := makeDirectory_ends hfirstway.grounded (hgrows.extends hcwd)
      hpath hbare hlinksbetween (hfirstway.directories rfl)
    rcases hagain with ⟨after, hmade, hway⟩ | ⟨obstacle, outcome, -, hrefused, hpass, hway⟩
    · refine ⟨_, after, .inr ⟨.missing, tree.disk, hmissing, ?_⟩, madeWay_trans hsub hfirstway hway⟩
      rw [if_pos rfl, Ends.bind_iff]
      exact .inl ⟨(), between.disk, hfirst, Ends.tryCatch_iff.mpr (.inl ⟨(), rfl, hmade⟩)⟩
    · refine ⟨outcome, between, .inr ⟨.missing, tree.disk, hmissing, ?_⟩,
        madeWay_trans hsub hfirstway hway⟩
      rw [if_pos rfl, Ends.bind_iff]
      exact .inl ⟨(), between.disk, hfirst,
        Ends.tryCatch_iff.mpr (.inr ⟨obstacle, between.disk, hrefused, hpass⟩)⟩

/-- The empty path stands for what is there already. -/
theorem makeInnermost_empty (hgrounded : tree.Grounded) (htext : path.text = "")
    (outer : List Path) :
    ∃ outcome after, Ends ((storage cwd).makeInnermost (path :: outer)) tree.disk
        outcome after.disk ∧
      MadeWay (way cwd path) tree outcome after := by
  have hmoves : path.moves = [] := by rw [Path.moves, Path.pieces, htext]; rfl
  refine ⟨.ok (), tree, ?_, madeWay_of_directories hgrounded fun stop hstop => ?_⟩
  · rw [Storage.makeInnermost, if_pos (by simpa using htext)]
    exact Ends.pure_iff.mpr ⟨rfl, rfl⟩
  · simp [way, hmoves, passed] at hstop

/-- Along the way of a bare path all directories are made, or something on the way is not
passable. -/
theorem makeInnermost_ends (steps : Nat) (path : Path) (hsteps : path.moves.length ≤ steps)
    (hgrounded : tree.Grounded) (hcwd : tree.entryAt? cwd = some .directory)
    (hpath : path.text = "" ∨ pathObstacle? path = none) (hbare : path.Bare)
    (hlinks : ∀ stop ∈ way cwd path, ∀ target, tree.entryAt? stop ≠ some (.link target)) :
    ∃ outcome after, Ends ((storage cwd).makeInnermost (path.climb steps)) tree.disk
        outcome after.disk ∧
      MadeWay (way cwd path) tree outcome after := by
  induction steps generalizing path with
  | zero =>
    rcases hpath with htext | hpath
    · exact makeInnermost_empty hgrounded htext []
    · refine makeInnermost_cons hgrounded hcwd hpath hbare hlinks fun hbefore => absurd ?_ hbefore
      simp [List.length_eq_zero_iff.mp (Nat.le_zero.mp hsteps), passed]
  | succ steps ih =>
    rcases hpath with htext | hpath
    · exact makeInnermost_empty hgrounded htext _
    refine makeInnermost_cons hgrounded hcwd hpath hbare hlinks fun hbefore => ?_
    have hmoves : path.moves ≠ [] := fun hnil => hbefore (by simp [hnil, passed])
    obtain ⟨parent, hparent⟩ := Path.exists_parent? hmoves
    have haround := Path.around_of_parent? hparent
    obtain ⟨last, hlast⟩ := haround.moves_eq.resolve_left fun hnil => hmoves hnil.1
    have hway : way cwd parent = passed (start cwd path) path.moves.dropLast := by
      rw [hlast, List.dropLast_concat, way, start, haround.isAbsolute_eq, start]
    simp only [hparent]
    rw [← hway] at hbefore ⊢
    refine ih parent ?_ ?_ haround.bare ?_
    · rw [hlast, List.length_append, List.length_singleton] at hsteps
      exact Nat.le_of_succ_le_succ hsteps
    · by_cases htext : parent.text = ""
      · exact .inl htext
      · exact .inr (pathObstacle?_of_below hpath haround.text_below htext)
    · intro stop hstop
      refine hlinks stop ?_
      rw [way, hlast, passed_concat]
      rw [hway, hlast, List.dropLast_concat] at hstop
      exact List.mem_append_left _ hstop

/-- A directory and those around it are made, or something on the way is not passable. -/
theorem makeDirectories_ends (hgrounded : tree.Grounded)
    (hcwd : tree.entryAt? cwd = some .directory) (hpath : pathObstacle? path = none)
    (hbare : path.Bare)
    (hlinks : ∀ stop ∈ way cwd path, ∀ target, tree.entryAt? stop ≠ some (.link target)) :
    ∃ outcome after, Ends ((storage cwd).makeDirectories path) tree.disk outcome after.disk ∧
      MadeWay (way cwd path) tree outcome after := by
  refine makeInnermost_ends path.parts.length path ?_ hgrounded hcwd (.inr hpath) hbare hlinks
  have hlength : path.parts.length = path.pieces.length := by
    rw [← Path.map_text_parts, List.length_map]
  exact hlength ▸ List.length_filter_le _ _

/-- Directories that are there need not be made. -/
theorem makeDirectories_of_directories (hpath : pathObstacle? path = none)
    (h : ∀ stop ∈ way cwd path, tree.entryAt? stop = some .directory) :
    Ends ((storage cwd).makeDirectories path) tree.disk (.ok ()) tree.disk := by
  have hne : ¬ path.text.isEmpty = true := by
    intro hempty
    rw [pathObstacle?, if_pos hempty] at hpath
    contradiction
  have hmake : tree.makeDirectory cwd path = .error .present := by
    rw [FileTree.makeDirectory, walk_of_directories hpath h]
  obtain ⟨outer, houter⟩ := path.exists_ancestors
  rw [Storage.makeDirectories, houter, Storage.makeInnermost, if_neg hne, Ends.tryCatch_iff]
  exact .inr ⟨.present, tree.disk, attempt_error (fun tree => tree.makeDirectory cwd path) hmake,
    orDirectory_ok (walk_of_directories hpath h)⟩

/-- Nothing is made at a path that something stands against as a whole. -/
theorem makeDirectories_of_pathObstacle {obstacle : Obstacle}
    (hpath : pathObstacle? path = some obstacle) (hne : path.text ≠ "") :
    Ends ((storage cwd).makeDirectories path) tree.disk (.error obstacle) tree.disk := by
  have hmake : tree.makeDirectory cwd path = .error obstacle := by
    rw [FileTree.makeDirectory, walk_eq_error hpath]
  have hmissing : obstacle ≠ .missing := by
    rintro rfl
    unfold pathObstacle? at hpath
    split_ifs at hpath with hempty
    · exact hne (String.isEmpty_iff.mp hempty)
    all_goals simp at hpath
  obtain ⟨outer, houter⟩ := path.exists_ancestors
  rw [Storage.makeDirectories, houter, Storage.makeInnermost, if_neg (by simpa using hne),
    Ends.tryCatch_iff]
  refine .inr ⟨obstacle, tree.disk,
    attempt_error (fun tree => tree.makeDirectory cwd path) hmake, ?_⟩
  rw [if_neg hmissing]
  exact orDirectory_error (by simp [walk_eq_error hpath])

end Disk

end SchemaBindings
