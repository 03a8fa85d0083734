import SchemaBindings.Proofs.FileTree.Runs

/-!
# What programs preserve

A program preserves a property of the disk if its parts do. A disk on which no failure is to come
stays one, and nothing is overlooked on it, whatever the operations of the storage are asked to do.
-/

namespace SchemaBindings

variable {ε ε' α β : Type} {good : Disk → Prop}

/-- Whether a program leaves a disk with a property wherever it begins on one. -/
def Preserves (good : Disk → Prop) (program : StateM Disk α) : Prop :=
  ∀ disk, good disk → good (program.run disk).2

namespace Preserves

/-- A program that only answers preserves every property. -/
theorem pure (a : α) : Preserves good (Pure.pure a : StateM Disk α) := fun _ hgood => hgood

/-- Where a program preserves a property, and so does what comes behind, both of them preserve it.
-/
theorem bind {program : StateM Disk α} {next : α → StateM Disk β} (h : Preserves good program)
    (hnext : ∀ a, Preserves good (next a)) : Preserves good (program >>= next) := by
  intro disk hgood
  change good ((next (program.run disk).1).run (program.run disk).2).2
  exact hnext _ _ (h disk hgood)

/-- What preserves a property for any element preserves it for a list of them. -/
theorem forM {f : α → StateM Disk PUnit} (h : ∀ a, Preserves good (f a)) (elements : List α) :
    Preserves good (elements.forM f) := by
  induction elements with
  | nil => exact pure _
  | cons a elements ih => exact bind (h a) fun _ => ih

/-- A program that only succeeds preserves every property. -/
theorem exceptPure (a : α) : Preserves good (Pure.pure a : ExceptT ε (StateM Disk) α).run :=
  pure (Except.ok a)

/-- A program that only fails preserves every property. -/
theorem throw (e : ε) : Preserves good (MonadExcept.throw e : ExceptT ε (StateM Disk) α).run :=
  pure (Except.error e)

/-- Where a program that may fail preserves a property, and so does what comes behind, both of them
preserve it. -/
theorem exceptBind {program : ExceptT ε (StateM Disk) α} {next : α → ExceptT ε (StateM Disk) β}
    (h : Preserves good program.run) (hnext : ∀ a, Preserves good (next a).run) :
    Preserves good (program >>= next).run := by
  refine @bind _ _ _ program.run (ExceptT.bindCont next) h fun result => ?_
  cases result with
  | ok a => exact hnext a
  | error e => exact pure (Except.error e)

/-- A program that cannot fail preserves the same properties among those that may. -/
theorem lift {program : StateM Disk α} (h : Preserves good program) :
    Preserves good (ExceptT.lift program : ExceptT ε (StateM Disk) α).run :=
  bind h fun _ => pure _

/-- A program preserves the same properties where its failures are named otherwise. -/
theorem adapt {program : ExceptT ε (StateM Disk) α} (h : Preserves good program.run)
    (name : ε → ε') : Preserves good (program.adapt name).run :=
  bind h fun _ => pure _

/-- Where a program preserves a property, and so does what is done about its failures, the guarded
program preserves it. -/
theorem tryCatch {program : ExceptT ε (StateM Disk) α} {handler : ε → ExceptT ε (StateM Disk) α}
    (h : Preserves good program.run) (hhandler : ∀ e, Preserves good (handler e).run) :
    Preserves good (MonadExcept.tryCatch program handler).run := by
  change Preserves good (program.run >>= fun result => match result with
    | .ok a => Pure.pure (Except.ok a)
    | .error e => (handler e).run)
  refine bind h fun result => ?_
  cases result with
  | ok a => exact pure (Except.ok a)
  | error e => exact hhandler e

/-- What may fail and preserves a property for any element preserves it for a list of them. -/
theorem exceptForM {f : α → ExceptT ε (StateM Disk) PUnit} (h : ∀ a, Preserves good (f a).run)
    (elements : List α) : Preserves good (elements.forM f).run := by
  induction elements with
  | nil => exact exceptPure _
  | cons a elements ih => exact exceptBind (h a) fun _ => ih

end Preserves

/-! ## Disks without failures -/

namespace Disk

/-- Whether no failure is to come on a disk, and what was overlooked on it so far is given. -/
def Faultless (overlooked : List (Place × Kind)) (disk : Disk) : Prop :=
  disk.failures = [] ∧ disk.overlooked = overlooked

variable {overlooked : List (Place × Kind)} {cwd : Place}

/-- Looking for what a path leads to uses up no failure where none is to come. -/
theorem faultless_kind? (path : Path) :
    Preserves (Faultless overlooked) ((storage cwd).kind? path) := by
  rintro ⟨tree, _, unsettled, _⟩ ⟨rfl, rfl⟩
  exact ⟨rfl, rfl⟩

/-- Looking at what is at a path itself overlooks nothing where no failure is to come. -/
theorem faultless_ownKind (path : Path) :
    Preserves (Faultless overlooked) ((storage cwd).ownKind path).run := by
  rintro ⟨tree, _, unsettled, _⟩ ⟨rfl, rfl⟩
  exact ⟨rfl, rfl⟩

/-- Trying a change overlooks nothing. -/
theorem faultless_attempt (path : Path) (change : FileTree → Except Obstacle FileTree) :
    Preserves (Faultless overlooked) (attempt path change).run := by
  rintro ⟨tree, _, unsettled, seen⟩ ⟨rfl, rfl⟩
  change Faultless _ (attempt path change ⟨tree, [], unsettled, seen⟩).2
  unfold attempt
  dsimp only
  split
  · split <;> exact ⟨rfl, rfl⟩
  · exact ⟨rfl, rfl⟩

/-- Making a directory overlooks nothing. -/
theorem faultless_makeDirectory (path : Path) :
    Preserves (Faultless overlooked) ((storage cwd).makeDirectory path).run :=
  faultless_attempt path fun tree => tree.makeDirectory cwd path

/-- Writing a file overlooks nothing. -/
theorem faultless_write (path : Path) (content : ByteArray) :
    Preserves (Faultless overlooked) ((storage cwd).write path content).run :=
  faultless_attempt path fun tree => tree.write cwd path content

/-- Renaming overlooks nothing. -/
theorem faultless_rename (source target : Path) :
    Preserves (Faultless overlooked) ((storage cwd).rename source target).run :=
  faultless_attempt target fun tree => tree.rename cwd source target

/-- Undoing a change overlooks nothing. -/
theorem faultless_settle (path : Path) (change : FileTree → Except Obstacle FileTree) :
    Preserves (Faultless overlooked) (settle path change) := by
  rintro disk ⟨hnone, hseen⟩
  obtain ⟨after, hgives⟩ : ∃ after, Gives (settle path change) disk () after := ⟨_, rfl⟩
  rw [show (settle path change).run disk = ((), after) from hgives]
  have hafter := (Prod.mk.inj hgives).2
  dsimp only at hafter
  split at hafter
  · exact hafter ▸ ⟨hnone, hseen⟩
  · exact hafter ▸ ⟨hnone, hseen⟩

/-- Renaming back overlooks nothing. -/
theorem faultless_restore (source target : Path) :
    Preserves (Faultless overlooked) ((storage cwd).restore source target) :=
  faultless_settle target fun tree => tree.rename cwd source target

/-- Removing a file overlooks nothing. -/
theorem faultless_removeFile (path : Path) :
    Preserves (Faultless overlooked) ((storage cwd).removeFile path) :=
  faultless_settle path fun tree => tree.removeFile cwd path

/-- Clearing something away overlooks nothing. -/
theorem faultless_removeAll (path : Path) :
    Preserves (Faultless overlooked) ((storage cwd).removeAll path) := by
  rintro ⟨tree, _, unsettled, _⟩ ⟨rfl, rfl⟩
  exact ⟨rfl, rfl⟩

/-- Making a hidden directory overlooks nothing. -/
theorem faultless_makeHidden (path : Path) :
    Preserves (Faultless overlooked) ((storage cwd).makeHidden path).run :=
  .exceptBind (.lift fun _ hgood => hgood) fun _ =>
    .exceptBind (faultless_attempt _ _) fun _ => .exceptPure _

/-- Letting a directory pass overlooks nothing. -/
theorem faultless_orDirectory (path : Path) (obstacle : Obstacle) :
    Preserves (Faultless overlooked) ((storage cwd).orDirectory path obstacle).run := by
  refine .exceptBind (.lift (.bind (faultless_kind? path) fun _ => .pure _)) fun there => ?_
  split
  · exact .exceptPure _
  · exact .throw _

/-- Making directories overlooks nothing. -/
theorem faultless_makeDirectories (path : Path) :
    Preserves (Faultless overlooked) ((storage cwd).makeDirectories path).run := by
  rw [Storage.makeDirectories]
  induction path.ancestors with
  | nil => exact .exceptPure _
  | cons path outer ih =>
    rw [Storage.makeInnermost]
    split
    · exact .exceptPure _
    · refine .tryCatch (faultless_makeDirectory path) fun obstacle => ?_
      split
      · exact .exceptBind ih fun _ =>
          .tryCatch (faultless_makeDirectory path) (faultless_orDirectory path)
      · exact faultless_orDirectory path obstacle

end Disk

end SchemaBindings
