import SchemaBindings.FileTree.Storage

/-!
# How programs run on a disk

A program turns a disk into another one and comes out with a result, or with a failure if it may
fail. How it does so is told from how its parts do.
-/

namespace SchemaBindings

variable {ε ε' α β : Type}

/-- Whether a program that cannot fail comes out with a result and leaves a disk as another one. -/
def Gives (program : StateM Disk α) (disk : Disk) (result : α) (after : Disk) : Prop :=
  program.run disk = (result, after)

/-- Whether a program that may fail comes out with an outcome and leaves a disk as another one. -/
def Ends (program : ExceptT ε (StateM Disk) α) (disk : Disk) (outcome : Except ε α) (after : Disk) :
    Prop :=
  Gives program.run disk outcome after

variable {disk after : Disk}

/-! ## Programs that cannot fail -/

namespace Gives

/-- A program that only returns gives what it returns and leaves the disk as it was. -/
theorem pure_iff {a result : α} :
    Gives (pure a) disk result after ↔ result = a ∧ after = disk := by
  change (a, disk) = (result, after) ↔ _
  rw [Prod.mk.injEq, eq_comm, @eq_comm _ disk]

/-- A program and the one behind it give what the second one gives on the disk that the first one
leaves. -/
theorem bind_iff {program : StateM Disk α} {next : α → StateM Disk β} {result : β} :
    Gives (program >>= next) disk result after ↔
      ∃ a between, Gives program disk a between ∧ Gives (next a) between result after := by
  constructor
  · intro h
    exact ⟨(program.run disk).1, (program.run disk).2, rfl, h⟩
  · intro h
    obtain ⟨a, between, hfirst, hnext⟩ := h
    change (next (program.run disk).1).run (program.run disk).2 = _
    rw [show program.run disk = (a, between) from hfirst]
    exact hnext

end Gives

/-! ## Programs that may fail -/

namespace Ends

/-- A program that only returns ends with what it returns and leaves the disk as it was. -/
theorem pure_iff {a : α} {outcome : Except ε α} :
    Ends (pure a) disk outcome after ↔ outcome = .ok a ∧ after = disk :=
  Gives.pure_iff

/-- A program that only fails ends with that failure and leaves the disk as it was. -/
theorem throw_iff {e : ε} {outcome : Except ε α} :
    Ends (throw e) disk outcome after ↔ outcome = .error e ∧ after = disk :=
  Gives.pure_iff

/-- A program that cannot fail ends with what it gives. -/
theorem lift_iff {program : StateM Disk α} {outcome : Except ε α} :
    Ends (ExceptT.lift program) disk outcome after ↔
    ∃ a, outcome = .ok a ∧ Gives program disk a after := by
  have hrun : (ExceptT.lift program : ExceptT ε (StateM Disk) α).run =
      program >>= fun a => pure (.ok a) := rfl
  rw [Ends, hrun, Gives.bind_iff]
  simp only [Gives.pure_iff]
  constructor
  · intro h
    obtain ⟨a, between, hprogram, houtcome, rfl⟩ := h
    exact ⟨a, houtcome, hprogram⟩
  · intro h
    obtain ⟨a, houtcome, hprogram⟩ := h
    exact ⟨a, after, hprogram, houtcome, rfl⟩

/-- A program and the one behind it end as the second one does on the disk that the first one
leaves, or with the failure of the first one. -/
theorem bind_iff {program : ExceptT ε (StateM Disk) α} {next : α → ExceptT ε (StateM Disk) β}
    {outcome : Except ε β} :
    Ends (program >>= next) disk outcome after ↔
      (∃ a between, Ends program disk (.ok a) between ∧ Ends (next a) between outcome after) ∨
        ∃ e, outcome = .error e ∧ Ends program disk (.error e) after := by
  have hrun : (program >>= next).run = program.run >>= ExceptT.bindCont next := rfl
  rw [Ends, hrun, Gives.bind_iff]
  constructor
  · intro h
    obtain ⟨first, between, hfirst, hnext⟩ := h
    cases first with
    | ok a => exact .inl ⟨a, between, hfirst, hnext⟩
    | error e =>
      obtain ⟨rfl, rfl⟩ := Gives.pure_iff.mp hnext
      exact .inr ⟨e, rfl, hfirst⟩
  · intro h
    rcases h with ⟨a, between, hfirst, hnext⟩ | ⟨e, rfl, hfirst⟩
    · exact ⟨.ok a, between, hfirst, hnext⟩
    · exact ⟨.error e, after, hfirst, Gives.pure_iff.mpr ⟨rfl, rfl⟩⟩

/-- Behind a program that cannot fail, the next one ends as it does on the disk that the first one
leaves. -/
theorem lift_bind_iff {program : StateM Disk α} {next : α → ExceptT ε (StateM Disk) β}
    {outcome : Except ε β} :
    Ends (ExceptT.lift program >>= next) disk outcome after ↔
      ∃ a between, Gives program disk a between ∧ Ends (next a) between outcome after := by
  rw [bind_iff]
  simp only [lift_iff]
  constructor
  · rintro (⟨_, between, ⟨a, hok, hfirst⟩, hnext⟩ | ⟨e, -, _, herror, -⟩)
    · exact ⟨a, between, hfirst, by rwa [← Except.ok.inj hok]⟩
    · contradiction
  · rintro ⟨a, between, hfirst, hnext⟩
    exact .inl ⟨a, between, ⟨a, rfl, hfirst⟩, hnext⟩

/-- A guarded program ends as it does by itself if it succeeds, and as its handler does if it fails.
-/
theorem tryCatch_iff {program : ExceptT ε (StateM Disk) α} {handler : ε → ExceptT ε (StateM Disk) α}
    {outcome : Except ε α} :
    Ends (tryCatch program handler) disk outcome after ↔
      (∃ a, outcome = .ok a ∧ Ends program disk (.ok a) after) ∨
        ∃ e between, Ends program disk (.error e) between ∧
          Ends (handler e) between outcome after := by
  have hrun : (tryCatch program handler).run = program.run >>= fun first =>
      match first with
      | .ok a => pure (.ok a)
      | .error e => (handler e).run := rfl
  rw [Ends, hrun, Gives.bind_iff]
  constructor
  · intro h
    obtain ⟨first, between, hfirst, hnext⟩ := h
    cases first with
    | ok a =>
      obtain ⟨rfl, rfl⟩ := Gives.pure_iff.mp hnext
      exact .inl ⟨a, rfl, hfirst⟩
    | error e => exact .inr ⟨e, between, hfirst, hnext⟩
  · intro h
    rcases h with ⟨a, rfl, hfirst⟩ | ⟨e, between, hfirst, hnext⟩
    · exact ⟨.ok a, after, hfirst, Gives.pure_iff.mpr ⟨rfl, rfl⟩⟩
    · exact ⟨.error e, between, hfirst, hnext⟩

/-- A program that cleans up after a failure fails as it did before that. -/
theorem tryCatch_lift_throw_iff {program : ExceptT ε (StateM Disk) α} {cleanup : StateM Disk Unit}
    {outcome : Except ε α} :
    Ends (tryCatch program fun e => do ExceptT.lift cleanup; throw e) disk outcome after ↔
      (∃ a, outcome = .ok a ∧ Ends program disk (.ok a) after) ∨
        ∃ e between, outcome = .error e ∧ Ends program disk (.error e) between ∧
          Gives cleanup between () after := by
  rw [tryCatch_iff]
  simp only [lift_bind_iff, throw_iff]
  refine or_congr_right ⟨?_, ?_⟩
  · rintro ⟨e, between, hfailed, _, _, hcleanup, rfl, rfl⟩
    exact ⟨e, between, rfl, hfailed, hcleanup⟩
  · rintro ⟨e, between, rfl, hfailed, hcleanup⟩
    exact ⟨e, between, hfailed, (), after, hcleanup, rfl, rfl⟩

/-- A program whose failures are adapted ends as it does by itself, with an adapted failure. -/
theorem adapt_iff {program : ExceptT ε (StateM Disk) α} {f : ε → ε'} {outcome : Except ε' α} :
    Ends (program.adapt f) disk outcome after ↔
    ∃ first, Ends program disk first after ∧ outcome = first.mapError f := by
  have hrun : (program.adapt f).run = program.run >>= fun first => pure (first.mapError f) := rfl
  rw [Ends, hrun, Gives.bind_iff]
  simp only [Gives.pure_iff]
  constructor
  · intro h
    obtain ⟨first, between, hfirst, houtcome, rfl⟩ := h
    exact ⟨first, hfirst, houtcome⟩
  · intro h
    obtain ⟨first, hfirst, houtcome⟩ := h
    exact ⟨first, after, hfirst, houtcome, rfl⟩

/-! ## Putting runs together -/

variable {between : Disk}

/-- Behind a program that succeeds, the next one ends as it does on the disk that the first one
leaves. -/
theorem bind_ok {program : ExceptT ε (StateM Disk) α} {next : α → ExceptT ε (StateM Disk) β} {a : α}
    {outcome : Except ε β} (hfirst : Ends program disk (.ok a) between)
    (hnext : Ends (next a) between outcome after) :
    Ends (program >>= next) disk outcome after :=
  bind_iff.mpr (.inl ⟨a, between, hfirst, hnext⟩)

/-- A program that fails ends the run, whatever stands behind it. -/
theorem bind_error {program : ExceptT ε (StateM Disk) α} {next : α → ExceptT ε (StateM Disk) β}
    {e : ε} (hfirst : Ends program disk (.error e) after) :
    Ends (program >>= next) disk (.error e) after :=
  bind_iff.mpr (.inr ⟨e, rfl, hfirst⟩)

/-- A program that cannot fail succeeds with what it gives. -/
theorem lift_ok {program : StateM Disk α} {a : α} (h : Gives program disk a after) :
    Ends (ExceptT.lift program : ExceptT ε (StateM Disk) α) disk (.ok a) after :=
  lift_iff.mpr ⟨a, rfl, h⟩

/-- A guarded program that succeeds ends as it does by itself. -/
theorem tryCatch_ok {program : ExceptT ε (StateM Disk) α} {handler : ε → ExceptT ε (StateM Disk) α}
    {a : α} (h : Ends program disk (.ok a) after) :
    Ends (tryCatch program handler) disk (.ok a) after :=
  tryCatch_iff.mpr (.inl ⟨a, rfl, h⟩)

/-- A guarded program that fails ends as its handler does on the disk that it leaves. -/
theorem tryCatch_error {program : ExceptT ε (StateM Disk) α}
    {handler : ε → ExceptT ε (StateM Disk) α} {e : ε} {outcome : Except ε α}
    (h : Ends program disk (.error e) between) (hhandler : Ends (handler e) between outcome after) :
    Ends (tryCatch program handler) disk outcome after :=
  tryCatch_iff.mpr (.inr ⟨e, between, h, hhandler⟩)

/-- How a program ends decides how it ends once its failures are adapted. -/
theorem adapt {program : ExceptT ε (StateM Disk) α} {outcome : Except ε α}
    (h : Ends program disk outcome after) (f : ε → ε') :
    Ends (program.adapt f) disk (outcome.mapError f) after :=
  adapt_iff.mpr ⟨outcome, h, rfl⟩

end Ends

end SchemaBindings
