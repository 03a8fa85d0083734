import SchemaBindings.Bindings.WriteOut
import SchemaBindings.Proofs.FileTree.Preserving

/-!
# Writing where no failure is to come

A file is overlooked only if looking at it fails. So where no failure is to come, writing overlooks
nothing, whatever the tree is and whether the write succeeds or not.
-/

namespace SchemaBindings.Bindings

open SchemaBindings.Disk

variable {cwd : Place} {overlooked : List (Place × Kind)}

/-- A change overlooks as little where its obstacles are reported for a path. -/
theorem faultless_atPath {α : Type} {change : ExceptT Obstacle (StateM Disk) α} (path : Path)
    (h : Preserves (Faultless overlooked) change.run) :
    Preserves (Faultless overlooked) (atPath path change).run :=
  h.adapt _

/-- Making room for a file overlooks nothing. -/
theorem faultless_makeRoomFor (path : Path) :
    Preserves (Faultless overlooked) (makeRoomFor (Disk.storage cwd) path).run := by
  unfold makeRoomFor
  split
  · exact faultless_atPath _ (faultless_makeDirectories _)
  · exact .exceptPure _

/-- Clearing a directory away behind a program overlooks nothing that the program does not. -/
theorem faultless_clearing {α : Type} (directory : Path)
    {program : ExceptT WriteFailure (StateM Disk) α}
    (h : Preserves (Faultless overlooked) program.run) :
    Preserves (Faultless overlooked) (clearing (Disk.storage cwd) directory program).run :=
  .bind h fun _ => .bind (faultless_removeAll directory) fun _ => .pure _

/-- Writing a file below the hidden directory overlooks nothing. -/
theorem faultless_stage (staging : Path) (file : OutputFile) :
    Preserves (Faultless overlooked) (stage (Disk.storage cwd) staging file).run :=
  .exceptBind (faultless_makeRoomFor _) fun _ => faultless_atPath _ (faultless_write _ _)

/-- Moving aside what is at a path overlooks nothing where no failure is to come. -/
theorem faultless_setAside (target saved : Path) :
    Preserves (Faultless overlooked) (setAside (Disk.storage cwd) target saved).run := by
  refine .exceptBind (.lift (faultless_ownKind target)) fun seen => ?_
  split
  · exact .throw _
  · exact .exceptBind (faultless_makeRoomFor saved) fun _ =>
      .exceptBind (faultless_atPath target (faultless_rename target saved)) fun _ => .exceptPure _
  · exact .exceptPure _

/-- Putting back what was moved aside overlooks nothing. -/
theorem faultless_putBack (target : Path) (saved? : Option Path) :
    Preserves (Faultless overlooked) (putBack (Disk.storage cwd) target saved?) := by
  unfold putBack
  split
  · exact faultless_restore _ target
  · exact .pure _

/-- Putting a staged file in place overlooks nothing where no failure is to come. -/
theorem faultless_swapIn (staged target saved : Path) :
    Preserves (Faultless overlooked) (swapIn (Disk.storage cwd) staged target saved).run :=
  .exceptBind (faultless_makeRoomFor target) fun _ =>
    .exceptBind (faultless_setAside target saved) fun saved? =>
      .exceptBind
        (.tryCatch (faultless_atPath target (faultless_rename staged target)) fun _ =>
          .exceptBind (.lift (faultless_putBack target saved?)) fun _ => .throw _)
        fun _ => .exceptPure _

/-- Taking a swap back overlooks nothing. -/
theorem faultless_undo (swap : Swap) :
    Preserves (Faultless overlooked) (undo (Disk.storage cwd) swap) := by
  unfold undo
  split
  · exact faultless_restore _ swap.target
  · exact faultless_removeFile swap.target

/-- Swapping files in overlooks nothing where no failure is to come. -/
theorem faultless_swapAll (staging backup out : Path) (files : List OutputFile)
    (swaps : List Swap) :
    Preserves (Faultless overlooked)
      (swapAll (Disk.storage cwd) staging backup out files swaps).run := by
  induction files generalizing swaps with
  | nil => exact .exceptPure _
  | cons file files ih =>
    exact .exceptBind
      (.tryCatch (faultless_swapIn _ _ _) fun _ =>
        .exceptBind (.lift (.forM faultless_undo swaps)) fun _ => .throw _)
      fun swap => ih (swap :: swaps)

/-- Swapping files into a directory overlooks nothing where no failure is to come. -/
theorem faultless_mergeInto (staging out : Path) (files : List OutputFile) :
    Preserves (Faultless overlooked) (mergeInto (Disk.storage cwd) staging out files).run :=
  .exceptBind (faultless_atPath _ (faultless_makeHidden _)) fun backup =>
    faultless_clearing backup (faultless_swapAll staging backup out files [])

/-- Putting all staged files in place overlooks nothing where no failure is to come. -/
theorem faultless_install (staging out : Path) (files : List OutputFile) :
    Preserves (Faultless overlooked) (install (Disk.storage cwd) staging out files).run := by
  refine .exceptBind (.lift (.bind (faultless_kind? out) fun _ => .pure _)) fun there => ?_
  split
  · exact faultless_mergeInto staging out files
  · refine .exceptBind (.lift (faultless_rename staging out)) fun renamed => ?_
    split
    · exact .exceptPure _
    · refine .exceptBind (.lift (.bind (faultless_kind? out) fun _ => .pure _)) fun there => ?_
      split
      · exact faultless_mergeInto staging out files
      · exact .throw _

/-- Where no failure is to come, writing overlooks nothing. -/
theorem overlooked_of_writeOut {out : Path} {files : List EmittedFile} {disk after : Disk}
    {outcome : Except WriteFailure Nat} (hnone : disk.failures = [])
    (h : (writeOut (Disk.storage cwd) out files).run disk = (outcome, after)) :
    after.overlooked = disk.overlooked := by
  have hpreserves : Preserves (Faultless disk.overlooked)
      (writeOut (Disk.storage cwd) out files).run :=
    .exceptBind (faultless_atPath _ (faultless_makeDirectories _)) fun _ =>
      .exceptBind (faultless_atPath _ (faultless_makeHidden _)) fun staging =>
        .exceptBind
          (faultless_clearing staging
            (.exceptBind (.exceptForM (faultless_stage staging) _) fun _ =>
              faultless_install staging out _))
          fun _ => .exceptPure _
  have hrun : (writeOut (Disk.storage cwd) out files).run.run disk = (outcome, after) := h
  have hafter := (hpreserves disk ⟨hnone, rfl⟩).2
  rwa [hrun] at hafter

end SchemaBindings.Bindings
