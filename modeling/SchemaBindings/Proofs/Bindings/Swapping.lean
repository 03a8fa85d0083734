import SchemaBindings.Proofs.Bindings.Staging

/-!
# Swapping a file in

A swap makes room, moves aside what is seen in the way, and moves the staged file into its place. If
the last move fails, what was moved aside is put back. What is overlooked is not moved aside, so the
staged file replaces it.
-/

namespace SchemaBindings.Bindings

open SchemaBindings.FileTree

variable {cwd : Place} {made : Place → Prop} {disk after : Disk} {staged target saved : Path}

/-! ## What a swap does -/

/-- Whether what was at the end of a path, and no directory, has been moved aside: `mid` is the tree
after room was made, and `aside` the one after the move. -/
structure SetAside (cwd : Place) (made : Place → Prop) (target saved : Path) (place : Place)
    (entry : Entry) (before mid aside : FileTree) : Prop where
  room : before.GrowsBy made mid
  grounded : mid.Grounded
  walk_eq : mid.walk cwd .unlessSlash target = .ok (.taken place entry)
  plain : entry ≠ .directory
  rename_eq : mid.rename cwd target saved = .ok aside

/-- Whether a tree is another one after a swap that overlooked certain things: a file was moved in
where nothing was, or over what was overlooked there, or over what had been moved aside. -/
inductive Swapped (cwd : Place) (made : Place → Prop) (staged target saved : Path)
    (before : FileTree) :
    Swap → List (Place × Kind) → FileTree → Prop where
  | added {mid swapped : FileTree} (hroom : before.GrowsBy made mid) (hgrounded : mid.Grounded)
      (hfree : mid.find? cwd .unlessSlash target = none)
      (hin : mid.rename cwd staged target = .ok swapped) :
      Swapped cwd made staged target saved before ⟨target, none⟩ [] swapped
  | covered {mid swapped : FileTree} {place : Place} {entry : Entry}
      (hroom : before.GrowsBy made mid)
      (hgrounded : mid.Grounded) (hthere : mid.find? cwd .unlessSlash target = some (place, entry))
      (hin : mid.rename cwd staged target = .ok swapped) :
      Swapped cwd made staged target saved before ⟨target, none⟩ [(place, entry.kind)] swapped
  | replaced {mid aside swapped : FileTree} {place : Place} {entry : Entry}
      (haside : SetAside cwd made target saved place entry before mid aside)
      (hin : aside.rename cwd staged target = .ok swapped) :
      Swapped cwd made staged target saved before ⟨target, some saved⟩ [] swapped

/-- Whether a tree is another one after what was moved aside, if anything was, has been moved
back. -/
def MovedBack (cwd : Place) (target : Path) : Option Path → FileTree → FileTree → Prop
  | none, before, after => after = before
  | some saved, before, after => before.rename cwd saved target = .ok after

/-- Whether a tree is another one after a swap that failed: nothing was moved, or what had been
moved aside was moved back. -/
inductive SwapFailed (cwd : Place) (made : Place → Prop) (target saved : Path) (before : FileTree) :
    FileTree → Prop where
  | early {after : FileTree} (hroom : before.GrowsBy made after) (hgrounded : after.Grounded) :
      SwapFailed cwd made target saved before after
  | putBack {mid aside after : FileTree} {place : Place} {entry : Entry}
      (haside : SetAside cwd made target saved place entry before mid aside)
      (hback : aside.rename cwd saved target = .ok after) : SwapFailed cwd made
      target saved before after

/-- What was moved aside after a tree had grown was moved aside from that tree. -/
theorem SetAside.of_grows {place : Place} {entry : Entry} {before grown mid aside : FileTree}
    (haside : SetAside cwd made target saved place entry grown mid aside)
    (hgrows : before.GrowsBy made grown) :
    SetAside cwd made target saved place entry before mid aside :=
  ⟨hgrows.trans haside.room, haside.grounded, haside.walk_eq, haside.plain, haside.rename_eq⟩

/-- Moving aside what is there, and no directory, moves it after making room, or makes room at
most. -/
theorem moveAside_cases (hgrounded : disk.tree.Grounded)
    (hcwd : disk.tree.entryAt? cwd = some .directory) (hmade : RoomMade cwd made saved disk.tree)
    {place : Place} {entry : Entry}
    (hwalk : disk.tree.walk cwd .unlessSlash target = .ok (.taken place entry))
    (hplain : entry ≠ .directory) {outcome : Except WriteFailure (Option Path)}
    (h : Ends (do
        makeRoomFor (Disk.storage cwd) saved
        atPath target ((Disk.storage cwd).rename target saved)
        return some saved) disk outcome after) :
    after.notes = disk.notes ∧
      ((∃ mid, outcome = .ok (some saved) ∧
        SetAside cwd made target saved place entry disk.tree mid after.tree) ∨
        ∃ failure, outcome = .error failure ∧ Disk.Widened made disk after) := by
  rcases Ends.bind_iff.mp h with ⟨done, between, hroom, hrest⟩ | ⟨e, rfl, hroom⟩
  swap
  · have hwidened := widened_of_makeRoomFor hgrounded hcwd hmade hroom
    exact ⟨hwidened.notes_eq, .inr ⟨e, rfl, hwidened⟩⟩
  have hwidened := widened_of_makeRoomFor hgrounded hcwd hmade hroom
  have hmid : between.tree.walk cwd .unlessSlash target = .ok (.taken place entry) :=
    walk_taken_of_extends (fun _ _ => hwidened.grows.grows.extends) hwalk
  rcases Ends.bind_iff.mp hrest with ⟨done, renamed, hrename, hreturn⟩ | ⟨e, rfl, hrename⟩
  · obtain ⟨rfl, rfl⟩ := Ends.pure_iff.mp hreturn
    obtain ⟨first, hfirst, hok⟩ := Ends.adapt_iff.mp hrename
    obtain ⟨hnotes, ⟨-, hchange⟩ | ⟨obstacle, rfl, -⟩⟩ := Disk.rename_cases hfirst
    · exact ⟨hnotes.trans hwidened.notes_eq,
        .inl ⟨between.tree, rfl, hwidened.grows, hwidened.grounded, hmid, hplain, hchange⟩⟩
    · contradiction
  · obtain ⟨first, hfirst, herror⟩ := Ends.adapt_iff.mp hrename
    obtain ⟨hnotes, ⟨rfl, -⟩ | ⟨obstacle, -, hsame⟩⟩ := Disk.rename_cases hfirst
    · contradiction
    · exact ⟨hnotes.trans hwidened.notes_eq, .inr ⟨e, rfl, hwidened.unchanged ⟨hsame, hnotes⟩⟩⟩

/-- Whether nothing is where a path leads itself, or what is there is all that was overlooked. -/
inductive Unseen (cwd : Place) (target : Path) (tree : FileTree) : List (Place × Kind) → Prop where
  | free (hfree : tree.find? cwd .unlessSlash target = none) : Unseen cwd target tree []
  | there {place : Place} {entry : Entry} (hthere : tree.find? cwd .unlessSlash target =
      some (place, entry)) :
      Unseen cwd target tree [(place, entry.kind)]

/-- Moving aside sees nothing, or moves something aside, or fails after making room at most. -/
theorem setAside_cases (hgrounded : disk.tree.Grounded)
    (hcwd : disk.tree.entryAt? cwd = some .directory) (hmade : RoomMade cwd made saved disk.tree)
    {outcome : Except WriteFailure (Option Path)}
    (h : Ends (setAside (Disk.storage cwd) target saved) disk outcome after) :
    after.unsettled = disk.unsettled ∧ ∃ seen, after.overlooked = seen ++ disk.overlooked ∧
      ((outcome = .ok none ∧ after.tree = disk.tree ∧ Unseen cwd target disk.tree seen) ∨
        (∃ place entry mid, outcome = .ok (some saved) ∧ seen = [] ∧
          SetAside cwd made target saved place entry disk.tree mid after.tree) ∨
        ∃ failure, outcome = .error failure ∧ Disk.Widened made disk after) := by
  obtain ⟨result, between, hasked, hrest⟩ := Ends.lift_bind_iff.mp h
  obtain ⟨htree, hunsettled, hseen⟩ := Disk.ownKind_cases hasked
  rcases hseen with ⟨place, entry, rfl, hfound, hoverlooked⟩ | ⟨obstacle, rfl, hseen⟩
  · have hsame : Disk.Unchanged disk between := ⟨htree, Prod.ext hunsettled hoverlooked⟩
    by_cases hplain : entry = .directory
    · subst hplain
      obtain ⟨rfl, rfl⟩ := Ends.throw_iff.mp hrest
      exact ⟨hunsettled, [], hoverlooked,
        .inr (.inr ⟨_, rfl, (Disk.Widened.refl made hgrounded).unchanged hsame⟩)⟩
    · have hmove : Ends (do
          makeRoomFor (Disk.storage cwd) saved
          atPath target ((Disk.storage cwd).rename target saved)
          return some saved) between outcome after := by
        cases entry with
        | directory => exact absurd rfl hplain
        | file content => exact hrest
        | link goal => exact hrest
      obtain ⟨hnotes, hcases⟩ := moveAside_cases (htree ▸ hgrounded) (htree ▸ hcwd) (htree ▸ hmade)
        (htree ▸ find?_eq_some.mp hfound) hplain hmove
      obtain ⟨hunsettled, hoverlooked⟩ := Prod.mk.inj (hnotes.trans hsame.notes_eq)
      refine ⟨hunsettled, [], hoverlooked, .inr (hcases.imp ?_ ?_)⟩
      · exact fun ⟨mid, hok, haside⟩ => ⟨place, entry, mid, hok, rfl, htree ▸ haside⟩
      · exact fun ⟨failure, herror, hwidened⟩ => ⟨failure, herror, hsame.widened hwidened⟩
  · obtain ⟨rfl, rfl⟩ := Ends.pure_iff.mp hrest
    rcases hseen with ⟨hnone, hoverlooked⟩ | ⟨place, entry, hthere, hoverlooked⟩
    · exact ⟨hunsettled, [], hoverlooked, .inl ⟨rfl, htree, .free hnone⟩⟩
    · exact ⟨hunsettled, [_], hoverlooked, .inl ⟨rfl, htree, .there hthere⟩⟩

/-- Putting back what was moved aside, if anything was, makes that move or notes that it was
refused. -/
theorem putBack_cases {saved? : Option Path} {result : Unit}
    (h : Gives (putBack (Disk.storage cwd) target saved?) disk result after) :
    after.overlooked = disk.overlooked ∧ disk.unsettled <:+ after.unsettled ∧
      (after.unsettled = disk.unsettled → MovedBack cwd target saved? disk.tree after.tree) := by
  cases saved? with
  | none =>
    obtain ⟨-, rfl⟩ := Gives.pure_iff.mp h
    exact ⟨rfl, List.suffix_rfl, fun _ => rfl⟩
  | some saved =>
    obtain ⟨hoverlooked, ⟨hchange, hunsettled⟩ | hunsettled⟩ := Disk.restore_cases h
    · exact ⟨hoverlooked, hunsettled ▸ List.suffix_rfl, fun _ => hchange⟩
    · exact ⟨hoverlooked, hunsettled ▸ List.suffix_cons _ _,
        fun hsame => by simp [hunsettled] at hsame⟩

/-- Moving a file in moves it, or fails and puts back what was moved aside. -/
theorem moveIn_cases {saved? : Option Path} {outcome : Except WriteFailure Swap}
    (h : Ends (do
      tryCatch (atPath target ((Disk.storage cwd).rename staged target)) fun failure => do
        ExceptT.lift (putBack (Disk.storage cwd) target saved?)
        throw failure
      return (⟨target, saved?⟩ : Swap)) disk outcome after) :
    after.overlooked = disk.overlooked ∧ disk.unsettled <:+ after.unsettled ∧
      ((outcome = .ok ⟨target, saved?⟩ ∧ after.unsettled = disk.unsettled ∧
          disk.tree.rename cwd staged target = .ok after.tree) ∨
        ∃ failure, outcome = .error failure ∧ (after.unsettled = disk.unsettled →
          MovedBack cwd target saved? disk.tree after.tree)) := by
  have hmoved : ∀ {first : Except WriteFailure Unit} {between : Disk},
      Ends (atPath target ((Disk.storage cwd).rename staged target)) disk first between →
      between.notes = disk.notes ∧
        ((first = .ok () ∧ disk.tree.rename cwd staged target = .ok between.tree) ∨
        ∃ failure, first = .error failure ∧ between.tree = disk.tree) := by
    intro first between hfirst
    obtain ⟨attempted, hattempted, rfl⟩ := Ends.adapt_iff.mp hfirst
    obtain ⟨hnotes, ⟨rfl, hchange⟩ | ⟨obstacle, rfl, hsame⟩⟩ := Disk.rename_cases hattempted
    · exact ⟨hnotes, .inl ⟨rfl, hchange⟩⟩
    · exact ⟨hnotes, .inr ⟨_, rfl, hsame⟩⟩
  rcases Ends.bind_iff.mp h with ⟨done, moved, htry, hreturn⟩ | ⟨failure, rfl, htry⟩
  · obtain ⟨rfl, rfl⟩ := Ends.pure_iff.mp hreturn
    obtain ⟨_, -, hmove⟩ | ⟨_, _, herror, -⟩ := Ends.tryCatch_lift_throw_iff.mp htry
    · obtain ⟨hnotes, ⟨-, hchange⟩ | ⟨_, herror, _⟩⟩ := hmoved hmove
      · obtain ⟨hunsettled, hoverlooked⟩ := Prod.mk.inj hnotes
        exact ⟨hoverlooked, hunsettled ▸ List.suffix_rfl, .inl ⟨rfl, hunsettled, hchange⟩⟩
      · contradiction
    · contradiction
  · obtain ⟨_, hok, -⟩ | ⟨_, between, -, hmove, hback⟩ := Ends.tryCatch_lift_throw_iff.mp htry
    · contradiction
    · obtain ⟨hnotes, ⟨hok, -⟩ | ⟨-, -, hsame⟩⟩ := hmoved hmove
      · contradiction
      obtain ⟨hunsettled, hoverlooked⟩ := Prod.mk.inj hnotes
      obtain ⟨hback, hsuffix, hput⟩ := putBack_cases hback
      rw [hunsettled] at hsuffix hput
      rw [hsame] at hput
      exact ⟨hback.trans hoverlooked, hsuffix, .inr ⟨failure, rfl, hput⟩⟩

/-- A swap swaps a file in, or fails and puts back what was moved aside. -/
theorem swapIn_cases (hgrounded : disk.tree.Grounded)
    (hcwd : disk.tree.entryAt? cwd = some .directory) (htarget : RoomMade cwd made target disk.tree)
    (hsaved : RoomMade cwd made saved disk.tree) {outcome : Except WriteFailure Swap}
    (h : Ends (swapIn (Disk.storage cwd) staged target saved) disk outcome after) :
    ∃ seen, after.overlooked = seen ++ disk.overlooked ∧ disk.unsettled <:+ after.unsettled ∧
      ((∃ swap, outcome = .ok swap ∧ after.unsettled = disk.unsettled ∧
          Swapped cwd made staged target saved disk.tree swap seen after.tree) ∨
        ∃ failure, outcome = .error failure ∧
          (after.unsettled = disk.unsettled →
            SwapFailed cwd made target saved disk.tree after.tree)) := by
  have hearly : ∀ {between : Disk} {failure : WriteFailure}, Disk.Widened made disk between →
      ∃ seen, between.overlooked = seen ++ disk.overlooked ∧ disk.unsettled <:+ between.unsettled ∧
        ((∃ swap, (.error failure : Except WriteFailure Swap) = .ok swap ∧
          between.unsettled = disk.unsettled ∧
            Swapped cwd made staged target saved disk.tree swap seen between.tree) ∨
          ∃ other, (.error failure : Except WriteFailure Swap) = .error other ∧
            (between.unsettled = disk.unsettled →
              SwapFailed cwd made target saved disk.tree between.tree)) := by
    intro between failure hwidened
    obtain ⟨hunsettled, hoverlooked⟩ := Prod.mk.inj hwidened.notes_eq
    exact ⟨[], hoverlooked, hunsettled ▸ List.suffix_rfl,
      .inr ⟨_, rfl, fun _ => .early hwidened.grows hwidened.grounded⟩⟩
  rcases Ends.bind_iff.mp h with ⟨done, roomy, hroom, hrest⟩ | ⟨e, rfl, hroom⟩
  swap
  · exact hearly (widened_of_makeRoomFor hgrounded hcwd htarget hroom)
  have hwidened := widened_of_makeRoomFor hgrounded hcwd htarget hroom
  have hcwd := hwidened.grows.grows.keeps.evolves.directory hcwd
  have hroomy := hsaved.grows hwidened.grows.grows
  rcases Ends.bind_iff.mp hrest with ⟨saved?, cleared, haside, hrest⟩ | ⟨e, rfl, haside⟩
  swap
  · obtain ⟨-, -, -, ⟨hok, -⟩ | ⟨-, -, -, hok, -⟩ | ⟨failure, -, hfailed⟩⟩ :=
      setAside_cases hwidened.grounded hcwd hroomy haside
    · contradiction
    · contradiction
    · exact hearly (hwidened.trans hfailed)
  obtain ⟨hlog, seen, hseen, hfound⟩ := setAside_cases hwidened.grounded hcwd hroomy haside
  obtain ⟨hunsettled, hoverlooked⟩ := Prod.mk.inj hwidened.notes_eq
  rw [hunsettled] at hlog
  rw [hoverlooked] at hseen
  obtain ⟨hagain, hsuffix, hmove⟩ := moveIn_cases hrest
  rw [hlog] at hsuffix hmove
  refine ⟨seen, hagain.trans hseen, hsuffix, ?_⟩
  rcases hfound with ⟨hnone, hsame, hunseen⟩ | ⟨place, entry, mid, hsome, rfl, hsetaside⟩ |
    ⟨failure, herror, -⟩
  · obtain rfl := Except.ok.inj hnone
    rw [hsame] at hmove
    rcases hmove with ⟨rfl, hkept, hin⟩ | ⟨failure, rfl, hback⟩
    · refine .inl ⟨_, rfl, hkept, ?_⟩
      cases hunseen with
      | free hfree => exact .added hwidened.grows hwidened.grounded hfree hin
      | there hthere => exact .covered hwidened.grows hwidened.grounded hthere hin
    · exact .inr ⟨failure, rfl, fun hkept => hback hkept ▸ .early hwidened.grows hwidened.grounded⟩
  · obtain rfl := Except.ok.inj hsome
    have hfrom := hsetaside.of_grows hwidened.grows
    rcases hmove with ⟨rfl, hkept, hin⟩ | ⟨failure, rfl, hback⟩
    · exact .inl ⟨_, rfl, hkept, .replaced hfrom hin⟩
    · exact .inr ⟨failure, rfl, fun hkept => .putBack hfrom (hback hkept)⟩
  · contradiction

/-- Of files that are swapped in, the first one is and then the others are, or its swap fails and
those in front of it are undone. -/
theorem swapAll_cons_cases {staging backup out : Path} {file : OutputFile} {rest : List OutputFile}
    {swaps : List Swap} {outcome : Except WriteFailure Unit}
    (h : Ends (swapAll (Disk.storage cwd) staging backup out (file :: rest) swaps)
      disk outcome after) :
    (∃ swap between,
      Ends (swapIn (Disk.storage cwd) (staging.join file.path) (out.join file.path)
        (backup.join file.path)) disk (.ok swap) between ∧
      Ends (swapAll (Disk.storage cwd) staging backup out rest (swap :: swaps))
        between outcome after) ∨
    ∃ failure between, outcome = .error failure ∧
      Ends (swapIn (Disk.storage cwd) (staging.join file.path) (out.join file.path)
        (backup.join file.path)) disk (.error failure) between ∧
      Gives (swaps.forM (undo (Disk.storage cwd))) between () after := by
  rcases Ends.bind_iff.mp h with ⟨swap, between, htry, hrest⟩ | ⟨failure, rfl, htry⟩
  · obtain ⟨_, hok, hswap⟩ | ⟨_, _, herror, -⟩ := Ends.tryCatch_lift_throw_iff.mp htry
    · obtain rfl := Except.ok.inj hok
      exact .inl ⟨swap, between, hswap, hrest⟩
    · contradiction
  · obtain ⟨_, hok, -⟩ | ⟨_, between, hsame, hswap, hundo⟩ := Ends.tryCatch_lift_throw_iff.mp htry
    · contradiction
    · obtain rfl := Except.error.inj hsame
      exact .inr ⟨failure, between, rfl, hswap, hundo⟩

end SchemaBindings.Bindings
