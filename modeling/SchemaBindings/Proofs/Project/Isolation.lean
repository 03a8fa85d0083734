import SchemaBindings.Proofs.Bindings.FileNames
import SchemaBindings.Proofs.Bindings.Outcome
import SchemaBindings.Proofs.FileTree.LinkFree
import SchemaBindings.Proofs.Project.Generating

/-!
# Targets beside each other

All targets of a project write to one tree. A target changes nothing but its files and the
directories on the way to them. So targets do not notice each other, in whatever order they are
made, as long as no file of one is a file of another one or lies on the way to its output directory.
-/

namespace SchemaBindings.Project

open SchemaBindings.Bindings
open SchemaBindings.FileTree
open SchemaBindings.Manifest (Target)

/-! ## Outcomes and files -/

/-- Whether two outcomes are alike: they are the same, or what was emitted could not be written in
both. -/
def Alike (outcome other : Except TargetFailure Nat) : Prop :=
  outcome = other ∨
    ∃ cause another, outcome = .error (.unwritten cause) ∧ other = .error (.unwritten another)

/-- Whether two trees have the same files. -/
def SameFiles (tree other : FileTree) : Prop :=
  ∀ place content, tree.entryAt? place = some (.file content) ↔
    other.entryAt? place = some (.file content)

/-- A target that did not fail was made. -/
theorem exists_of_not_failed {report : TargetReport} (h : report.failed = false) :
    ∃ count, report.outcome = .ok count := by
  unfold TargetReport.failed at h
  split at h
  · next count hcount => exact ⟨count, hcount⟩
  · contradiction

/-- A target that failed was not made for some reason. -/
theorem exists_of_failed {report : TargetReport} (h : report.failed = true) :
    ∃ failure, report.outcome = .error failure := by
  unfold TargetReport.failed at h
  split at h
  · contradiction
  · next failure hfailure => exact ⟨failure, hfailure⟩

/-- What the targets of a project are made with. -/
structure Setting where
  cwd : Place
  project : Project
  graph : TypeGraph
  cancelled : Bool

namespace Setting

variable (setting : Setting)

/-- The output directory of a target. -/
def outputOf (target : Target) : Path :=
  setting.project.outputOf target

/-- What is emitted for a target. -/
def emitted (target : Target) : Except Unsupported (List EmittedFile) :=
  emit target.language target.naming setting.graph

/-- The files of a target, in the order in which they are written. -/
def filesOf (target : Target) : List OutputFile :=
  match setting.emitted target with
  | .ok emitted => outputFiles emitted
  | .error _ => []

/-- Where a file of a target is written. -/
def filePlace (target : Target) (file : OutputFile) : Place :=
  goal setting.cwd (setting.outputOf target) ++ [file.path.text]

/-- The report of a target, and the disk as it is then. -/
def make (target : Target) (disk : Disk) : TargetReport × Disk :=
  (reportTarget (Disk.storage setting.cwd) setting.project setting.graph setting.cancelled
    target).run disk

/-- The reports of targets that are made one after the other, and the disk as it is then. -/
def makeAll (targets : List Target) (disk : Disk) : List TargetReport × Disk :=
  (targets.mapM (reportTarget (Disk.storage setting.cwd) setting.project setting.graph
    setting.cancelled)).run disk

/-- Whether a target that is made after some others and before the rest goes as it does alone: its
outcome is alike, and so are its files in the end. If it fails, all files are those from before. -/
structure AsAlone (tree : FileTree) (earlier : List Target) (target : Target)
    (later : List Target) : Prop where
  outcome : Alike (setting.make target (setting.makeAll earlier tree.disk).2).1.outcome
    (setting.make target tree.disk).1.outcome
  contents : (setting.make target tree.disk).1.failed = false → ∀ file ∈ setting.filesOf target,
    (setting.makeAll (earlier ++ target :: later) tree.disk).2.tree.entryAt?
        (setting.filePlace target file) =
      some (.file file.content.toUTF8) ∧
      (setting.make target tree.disk).2.tree.entryAt? (setting.filePlace target file) =
        some (.file file.content.toUTF8)
  kept : (setting.make target (setting.makeAll earlier tree.disk).2).1.failed = true →
    SameFiles (setting.makeAll earlier tree.disk).2.tree
      (setting.make target (setting.makeAll earlier tree.disk).2).2.tree

/-- Whether the targets of a project are isolated on a tree: in every order, each of them goes as it
does alone. -/
def Isolated (tree : FileTree) : Prop :=
  ∀ earlier target later, (earlier ++ target :: later).Perm setting.project.manifest.targets →
    setting.AsAlone tree earlier target later

/-! ## What targets ask for -/

/-- Whether a target finds what writing its files relies on, if it has any. -/
def Ready (target : Target) (tree : FileTree) : Prop :=
  ∀ emitted, setting.emitted target = .ok emitted →
    Suited setting.cwd (setting.outputOf target) (outputFiles emitted) tree

/-- Whether the files of a target may be written. -/
def Admits (target : Target) (tree : FileTree) : Prop :=
  Takes setting.cwd (setting.outputOf target) (setting.filesOf target) tree

/-- Whether a tree is as good for a target as the one from before. -/
structure AsGood (target : Target) (before after : FileTree) : Prop where
  ready : setting.Ready target after
  admits_iff : setting.Admits target after ↔ setting.Admits target before

/-- Whether a place does not matter to a target: it writes nothing there and need not pass there. -/
structure Spares (target : Target) (place : Place) : Prop where
  not_way : place ∉ way setting.cwd (setting.outputOf target)
  not_file : ∀ file ∈ setting.filesOf target, place ≠ setting.filePlace target file

/-- Whether two targets are apart: the places of the files of each do not matter to the other. -/
structure Apart (target other : Target) : Prop where
  files : ∀ file ∈ setting.filesOf target, setting.Spares other (setting.filePlace target file)
  others : ∀ file ∈ setting.filesOf other, setting.Spares target (setting.filePlace other file)

/-- How a target goes, and what it makes of a tree. -/
inductive Went (target : Target) (tree : FileTree) : FileTree → Except TargetFailure Nat → Prop
  | cancelled (h : setting.cancelled = true) : Went target tree tree (.error .cancelled)
  | unsupported {cause : Unsupported} (h : setting.cancelled = false)
      (hemitted : setting.emitted target = .error cause) :
    Went target tree tree (.error (.unsupported cause))
  | unwritten {after : FileTree} {emitted : List EmittedFile} {cause : WriteFailure}
      (h : setting.cancelled = false)
    (hemitted : setting.emitted target = .ok emitted) (hadmits : ¬ setting.Admits target tree)
    (hgrows : tree.GrowsBy
      (fun stop => stop ∈ way setting.cwd (setting.outputOf target) ∧ Short stop) after) :
    Went target tree after (.error (.unwritten cause))
  | written {after : FileTree} {emitted : List EmittedFile} (h : setting.cancelled = false)
    (hemitted : setting.emitted target = .ok emitted) (hadmits : setting.Admits target tree)
    (hlaid : LaidIn setting.cwd (setting.outputOf target) (setting.filesOf target) tree after) :
    Went target tree after (.ok (setting.filesOf target).length)

variable {setting} {target other : Target} {tree before after : FileTree}
  {outcome : Except TargetFailure Nat}

/-- The files of a target are those that its bindings are emitted as. -/
theorem filesOf_eq {emitted : List EmittedFile} (h : setting.emitted target = .ok emitted) :
    setting.filesOf target = outputFiles emitted := by
  rw [filesOf, h]

/-- Where a target is apart from another one, the other one is apart from it. -/
theorem Apart.symm (h : setting.Apart target other) : setting.Apart other target :=
  ⟨h.others, h.files⟩

/-! ## One target -/

/-- Where nothing is cancelled, the files that are emitted for a target are written. -/
theorem ends_makeTarget (hcancelled : setting.cancelled = false) {emitted : List EmittedFile}
    (hemitted : setting.emitted target = .ok emitted) {outcome : Except WriteFailure Nat}
    (h : Ends (writeOut (Disk.storage setting.cwd) (setting.outputOf target) emitted)
      tree.disk outcome after.disk) :
    Ends (makeTarget (Disk.storage setting.cwd) setting.project setting.graph setting.cancelled
      target) tree.disk (outcome.mapError .unwritten) after.disk := by
  have hemit : emit target.language target.naming setting.graph = .ok emitted := hemitted
  rw [hcancelled]
  refine Ends.bind_ok (Ends.pure_iff.mpr ⟨rfl, rfl⟩) ?_
  rw [hemit]
  exact Ends.adapt h TargetFailure.unwritten

/-- A target goes in one of four ways. -/
theorem make_cases (hgrounded : tree.Grounded) (hready : setting.Ready target tree) :
    ∃ report after, setting.make target tree.disk = (report, after.disk) ∧ after.Grounded ∧
      setting.Went target tree after report.outcome := by
  have hmade {outcome : Except TargetFailure Nat} {after : FileTree}
      (h : Ends (makeTarget (Disk.storage setting.cwd) setting.project setting.graph
        setting.cancelled target) tree.disk
        outcome after.disk) : setting.make target tree.disk =
          (⟨target.language, target.output, outcome⟩, after.disk) :=
    Gives.bind_iff.mpr ⟨outcome, after.disk, h, Gives.pure_iff.mpr ⟨rfl, rfl⟩⟩
  cases hcancelled : setting.cancelled with
  | true =>
    refine ⟨_, tree, hmade ?_, hgrounded, .cancelled hcancelled⟩
    rw [hcancelled]
    exact Ends.bind_error (Ends.throw_iff.mpr ⟨rfl, rfl⟩)
  | false =>
    cases hemitted : setting.emitted target with
    | error cause =>
      have hemit : emit target.language target.naming setting.graph = .error cause := hemitted
      refine ⟨_, tree, hmade ?_, hgrounded, .unsupported hcancelled hemitted⟩
      rw [hcancelled]
      refine Ends.bind_ok (Ends.pure_iff.mpr ⟨rfl, rfl⟩) ?_
      rw [hemit]
      exact Ends.throw_iff.mpr ⟨rfl, rfl⟩
    | ok emitted =>
      obtain ⟨outcome, after, hends, hafter, hcases⟩ := writeOut_ends (hready emitted hemitted)
      have hrun := hmade (ends_makeTarget hcancelled hemitted hends)
      rw [← filesOf_eq hemitted] at hcases
      rcases hcases with ⟨rfl, htakes, hlaid⟩ | ⟨⟨failure, rfl⟩, htakes, hgrows⟩
      · exact ⟨_, after, hrun, hafter, .written hcancelled hemitted htakes hlaid⟩
      · exact ⟨_, after, hrun, hafter, .unwritten hcancelled hemitted htakes hgrows⟩

/-- Whatever way a target goes, it touches its files and the way to them alone. -/
theorem Went.touched (h : setting.Went target tree after outcome) :
    Touched setting.cwd (setting.outputOf target) (setting.filesOf target) tree after := by
  intro place
  cases h with
  | cancelled | unsupported => exact .inl rfl
  | unwritten _ _ _ hgrows =>
    exact (hgrows place).imp_right
      fun ⟨hnone, hmade, hin, hshort⟩ => .inl ⟨hnone, hmade, hin, hshort⟩
  | written _ _ hadmits hlaid =>
    by_cases hplace : ∃ file ∈ setting.filesOf target, place = setting.filePlace target file
    · obtain ⟨file, hfile, rfl⟩ := hplace
      refine .inr (.inr ⟨file, hfile, rfl, hlaid.content_eq file hfile, ?_⟩)
      rcases hadmits.2.2 with ⟨-, hplain⟩ | ⟨hnil, -⟩
      · exact (hplain file hfile).1
      · simp [hnil] at hfile
    · exact (hlaid.others place fun file hfile hsame => hplace ⟨file, hfile, hsame⟩).imp_right .inl

/-- A target that fails leaves all files as they were. -/
theorem Went.sameFiles {failure : TargetFailure}
    (h : setting.Went target tree after (.error failure)) :
    SameFiles tree after := by
  cases h with
  | cancelled | unsupported => exact fun place content => Iff.rfl
  | unwritten _ _ _ hgrows =>
    intro place content
    rcases hgrows place with hsame | ⟨hnone, hmade, -⟩
    · rw [hsame]
    · simp [hnone, hmade]

/-- A target that succeeds writes its files. -/
theorem Went.content_eq {count : Nat} (h : setting.Went target tree after (.ok count)) :
    ∀ file ∈ setting.filesOf target,
      after.entryAt? (setting.filePlace target file) = some (.file file.content.toUTF8) := by
  cases h with
  | written _ _ _ hlaid => exact hlaid.content_eq

/-- On trees that both admit its files or both do not, a target has alike outcomes. -/
theorem Went.alike {otherTree otherAfter : FileTree} {otherOutcome : Except TargetFailure Nat}
    (h : setting.Went target tree after outcome)
    (hother : setting.Went target otherTree otherAfter otherOutcome)
    (hadmits : setting.Admits target tree ↔ setting.Admits target otherTree) :
    Alike outcome otherOutcome := by
  cases h <;> cases hother <;> simp_all [Alike]

/-! ## One target after another -/

/-- Where nothing of a target is in the way, a place is as it was. -/
theorem Went.entry_eq {place : Place} (h : setting.Went target tree after outcome)
    (hspares : setting.Spares target place) : after.entryAt? place = tree.entryAt? place := by
  rcases h.touched place with hsame | ⟨-, -, hin, -⟩ | ⟨file, hfile, hplace, -⟩
  · exact hsame
  · exact absurd hin hspares.not_way
  · exact absurd hplace (hspares.not_file file hfile)

/-- What is as good for a target as before stays so when a target that is apart from it is made. -/
theorem AsGood.went (hgood : setting.AsGood target tree before)
    (hready : setting.Ready other before) (hapart : setting.Apart target other)
    (hgrounded : after.Grounded) (h : setting.Went other before after outcome) :
    setting.AsGood target tree after := by
  obtain rfl | ⟨emitted, hemitted⟩ : after = before ∨
    ∃ emitted, setting.emitted other = .ok emitted := by
    cases h with
    | cancelled | unsupported => exact .inl rfl
    | unwritten _ hemitted | written _ hemitted => exact .inr ⟨_, hemitted⟩
  · exact hgood
  have hsuited := hready emitted hemitted
  rw [← filesOf_eq hemitted] at hsuited
  refine ⟨fun files hfiles => (hgood.ready files hfiles).touched h.touched hsuited hgrounded, ?_⟩
  exact (h.touched.takes_iff hsuited.cwd_eq
    (fun file hfile => ⟨(hapart.files file hfile).not_way, (hapart.files file hfile).not_file⟩)
    fun file hfile => (hapart.others file hfile).not_way).trans hgood.admits_iff

/-- Targets are made one after the other. -/
theorem makeAll_cons (target : Target) (others : List Target) (disk : Disk) :
    (setting.makeAll (target :: others) disk).2 =
      (setting.makeAll others (setting.make target disk).2).2 := by
  rw [makeAll, List.mapM_cons]
  rfl

/-- Making targets is making the earlier ones and then the later ones. -/
theorem makeAll_append (earlier later : List Target) (disk : Disk) :
    (setting.makeAll (earlier ++ later) disk).2 =
      (setting.makeAll later (setting.makeAll earlier disk).2).2 := by
  induction earlier generalizing disk with
  | nil => rfl
  | cons target earlier ih => rw [List.cons_append, makeAll_cons, makeAll_cons, ih]

/-- When targets that are apart were made, the tree is as good as before for every target that is
apart from them, and a place where none of them writes or passes is as it was. -/
theorem makeAll_cases {others : List Target} (hgrounded : before.Grounded)
    (hgood : ∀ other ∈ others, setting.AsGood other tree before)
    (hapart : others.Pairwise setting.Apart) :
    ∃ after, (setting.makeAll others before.disk).2 = after.disk ∧ after.Grounded ∧
      (∀ target, setting.AsGood target tree before →
        (∀ other ∈ others, setting.Apart target other) →
        setting.AsGood target tree after) ∧
      ∀ place, (∀ other ∈ others, setting.Spares other place) →
        after.entryAt? place = before.entryAt? place := by
  induction others generalizing before with
  | nil => exact ⟨before, rfl, hgrounded, fun target h _ => h, fun place _ => rfl⟩
  | cons other others ih =>
    rw [List.forall_mem_cons] at hgood
    rw [List.pairwise_cons] at hapart
    obtain ⟨report, between, hmake, hbetween, hwent⟩ := make_cases hgrounded hgood.1.ready
    obtain ⟨after, hrest, hafter, hkept, hplaces⟩ := ih hbetween
      (fun next hnext => (hgood.2 next hnext).went hgood.1.ready (hapart.1 next hnext).symm
        hbetween hwent) hapart.2
    refine ⟨after, ?_, hafter, fun target htarget hother => ?_, fun place hspares => ?_⟩
    · rw [makeAll_cons, hmake, hrest]
    · rw [List.forall_mem_cons] at hother
      exact hkept target (htarget.went hgood.1.ready hother.1 hbetween hwent) hother.2
    · rw [List.forall_mem_cons] at hspares
      exact (hplaces place hspares.2).trans (hwent.entry_eq hspares.1)

/-- A target goes as it does alone if all are apart and find what they rely on. -/
theorem asAlone_of_apart {earlier later : List Target} (hgrounded : tree.Grounded)
    (hready : ∀ other ∈ earlier ++ target :: later, setting.Ready other tree)
    (hapart : (earlier ++ target :: later).Pairwise setting.Apart) :
    setting.AsAlone tree earlier target later := by
  rw [List.forall_mem_append, List.forall_mem_cons] at hready
  obtain ⟨hearlier, hself, hlater⟩ := hready
  rw [List.pairwise_append, List.pairwise_cons] at hapart
  obtain ⟨hpairs, ⟨hnext, hrest⟩, hcross⟩ := hapart
  have hstart {other : Target} (h : setting.Ready other tree) : setting.AsGood other tree tree :=
    ⟨h, Iff.rfl⟩
  obtain ⟨alone, single, hsingle, -, halone⟩ := make_cases hgrounded hself
  obtain ⟨before, hbefore, hbeforeGrounded, hkept, -⟩ :=
    makeAll_cases hgrounded (fun other h => hstart (hearlier other h)) hpairs
  have hgood : setting.AsGood target tree before :=
    hkept target (hstart hself) fun other h => (hcross other h target List.mem_cons_self).symm
  obtain ⟨report, after, hmake, hafter, hwent⟩ := make_cases hbeforeGrounded hgood.ready
  have hgoodLater : ∀ other ∈ later, setting.AsGood other tree after := fun other h =>
    (hkept other (hstart (hlater other h))
      fun one hone => (hcross one hone other (List.mem_cons_of_mem _ h)).symm).went
      hgood.ready (hnext other h).symm hafter hwent
  obtain ⟨final, hfinal, -, -, hplaces⟩ := makeAll_cases hafter hgoodLater hrest
  have halike := hwent.alike halone hgood.admits_iff
  have hlast : (setting.makeAll (earlier ++ target :: later) tree.disk).2 = final.disk := by
    rw [makeAll_append, hbefore, makeAll_cons, hmake, hfinal]
  refine ⟨by rwa [hbefore, hmake, hsingle], ?_, ?_⟩
  · rw [hsingle, hlast]
    intro hmade file hfile
    obtain ⟨count, hcount⟩ : ∃ count, alone.outcome = .ok count := exists_of_not_failed hmade
    have hsame : report.outcome = .ok count := by simpa [Alike, hcount] using halike
    rw [hcount] at halone
    rw [hsame] at hwent
    refine ⟨?_, halone.content_eq file hfile⟩
    exact (hplaces _ fun other h => (hnext other h).files file hfile).trans
      (hwent.content_eq file hfile)
  · rw [hbefore, hmake]
    intro hfailed
    obtain ⟨failure, hfailure⟩ : ∃ failure, report.outcome = .error failure :=
      exists_of_failed hfailed
    rw [hfailure] at hwent
    exact hwent.sameFiles

/-- A target with a clear way finds what it relies on, whatever the sources of the graph are: its
files have names of their own. -/
theorem ready_of_clear {sources : List (String × String)}
    (hgraph : graphOfSources sources = .ok setting.graph) (hgrounded : tree.Grounded)
    (hcwd : tree.entryAt? setting.cwd = some .directory)
    (hclear : ∀ emitted, setting.emitted target = .ok emitted →
      ClearWay setting.cwd (setting.outputOf target) (outputFiles emitted) tree) :
    setting.Ready target tree := by
  intro emitted hemitted
  have hnames := fileName_of_emit (spelled_of_graphOfSources hgraph) hemitted
  exact ⟨hclear emitted hemitted, hgrounded, hcwd, fileName_of_mem_outputFiles hnames,
    outputFiles_text_nodup emitted⟩

/-- A project whose manifest and schemas are accepted is generated by making its targets on the tree
as it is. If they are apart and the ways to their output directories are clear, they are isolated:
in every order, each of them goes as it does alone. -/
theorem generate_isolated {root : Path} {loaded read : Disk}
    (hload : Ends (load (Disk.storage setting.cwd) root) tree.disk (.ok setting.project) loaded)
    (hgraph : Ends (readGraph (Disk.storage setting.cwd) setting.project) loaded
      (.ok setting.graph) read)
    (hgrounded : tree.Grounded) (hcwd : tree.entryAt? setting.cwd = some .directory)
    (hclear : ∀ target ∈ setting.project.manifest.targets,
      ∀ emitted, setting.emitted target = .ok emitted →
        ClearWay setting.cwd (setting.outputOf target) (outputFiles emitted) tree)
    (hapart : setting.project.manifest.targets.Pairwise setting.Apart) :
    Ends (generate (Disk.storage setting.cwd) root setting.cancelled) tree.disk
        (.ok ⟨setting.project.manifest.name,
          (setting.makeAll setting.project.manifest.targets tree.disk).1⟩)
        (setting.makeAll setting.project.manifest.targets tree.disk).2 ∧
      setting.Isolated tree := by
  obtain ⟨sources, hsources⟩ := exists_sources_of_readGraph hgraph
  refine ⟨generate_ends hload hgraph rfl, fun earlier target later horder => ?_⟩
  exact asAlone_of_apart hgrounded
    (fun other hother => ready_of_clear hsources hgrounded hcwd
      (hclear other (horder.mem_iff.mp hother)))
    ((horder.pairwise_iff Apart.symm).mpr hapart)

/-! ## Targets in each other's way -/

/-- Emitted files that are admitted are written. -/
theorem Went.laidIn {emitted : List EmittedFile} (h : setting.Went target tree after outcome)
    (hcancelled : setting.cancelled = false) (hemitted : setting.emitted target = .ok emitted)
    (hadmits : setting.Admits target tree) : outcome = .ok (setting.filesOf target).length ∧
      LaidIn setting.cwd (setting.outputOf target) (setting.filesOf target) tree after := by
  cases h with
  | cancelled h => simp [hcancelled] at h
  | unsupported _ hcause => simp [hemitted] at hcause
  | unwritten _ _ hno => exact absurd hadmits hno
  | written _ _ _ hlaid => exact ⟨rfl, hlaid⟩

/-- Emitted files that are not admitted are not written. -/
theorem Went.exists_unwritten {emitted : List EmittedFile}
    (h : setting.Went target tree after outcome) (hcancelled : setting.cancelled = false)
    (hemitted : setting.emitted target = .ok emitted) (hadmits : ¬ setting.Admits target tree) :
    ∃ cause, outcome = .error (.unwritten cause) := by
  cases h with
  | cancelled h => simp [hcancelled] at h
  | unsupported _ hcause => simp [hemitted] at hcause
  | unwritten => exact ⟨_, rfl⟩
  | written _ _ hyes => exact absurd hyes hadmits

/-- A target whose files lie in a directory with the path of a file of another target spoils that
one: alone the other target is made, but not after it. -/
theorem not_isolated_of_nested {file inner : OutputFile} {emitted others : List EmittedFile}
    (htargets : setting.project.manifest.targets = [target, other])
    (hcancelled : setting.cancelled = false) (hemitted : setting.emitted target = .ok emitted)
    (hothers : setting.emitted other = .ok others) (hready : setting.Ready target tree)
    (hother : setting.Ready other tree) (hgrounded : tree.Grounded)
    (hadmits : setting.Admits target tree) (hotherAdmits : setting.Admits other tree)
    (hinner : inner ∈ setting.filesOf target) (hfile : file ∈ setting.filesOf other)
    (hnested : setting.filePlace other file = goal setting.cwd (setting.outputOf target)) :
    ¬ setting.Isolated tree := by
  intro hisolated
  have halike := (hisolated [target] other [] (by rw [htargets]; exact .refl _)).outcome
  obtain ⟨report, between, hmake, hbetween, hwent⟩ := make_cases hgrounded hready
  obtain ⟨-, hlaid⟩ := hwent.laidIn hcancelled hemitted hadmits
  have hsuited := hready emitted hemitted
  rw [← filesOf_eq hemitted] at hsuited
  have hnext : setting.Ready other between := fun files hfiles =>
    (hother files hfiles).touched hwent.touched hsuited hbetween
  have hdirectory : between.entryAt? (setting.filePlace other file) = some .directory := by
    rw [hnested]
    exact hbetween _ inner.path.text (by rw [hlaid.content_eq inner hinner]; simp)
  have hrefused : ¬ setting.Admits other between := by
    rintro ⟨-, -, ⟨-, hplain⟩ | ⟨hnil, -⟩⟩
    · exact (hplain file hfile).1 hdirectory
    · simp [hnil] at hfile
  obtain ⟨late, final, hlate, -, hwentLate⟩ := make_cases hbetween hnext
  obtain ⟨alone, single, hsingle, -, hwentAlone⟩ := make_cases hgrounded hother
  obtain ⟨cause, hcause⟩ := hwentLate.exists_unwritten hcancelled hothers hrefused
  obtain ⟨hcount, -⟩ := hwentAlone.laidIn hcancelled hothers hotherAdmits
  have hlast : (setting.makeAll [target] tree.disk).2 = between.disk := by
    rw [makeAll_cons, hmake]
    rfl
  rw [hlast, hlate, hsingle] at halike
  simp [Alike, hcause, hcount] at halike

/-- Whether two targets are apart is told from the names of their files. -/
theorem Apart.of_names {names others : List String}
    (hnames : (setting.filesOf target).map (fun file => file.path.text) = names)
    (hothers : (setting.filesOf other).map (fun file => file.path.text) = others)
    (hfiles : ∀ name ∈ names, goal setting.cwd (setting.outputOf target) ++ [name] ∉
      way setting.cwd (setting.outputOf other))
    (hmore : ∀ name ∈ others, goal setting.cwd (setting.outputOf other) ++ [name] ∉
      way setting.cwd (setting.outputOf target))
    (hdifferent :
      ∀ name ∈ names, ∀ another ∈ others, goal setting.cwd (setting.outputOf target) ++ [name] ≠
        goal setting.cwd (setting.outputOf other) ++ [another]) :
    setting.Apart target other := by
  subst hnames hothers
  simp only [List.forall_mem_map] at hfiles hmore hdifferent
  exact ⟨fun file hfile => ⟨hfiles file hfile, hdifferent file hfile⟩,
    fun file hfile =>
      ⟨hmore file hfile,
        fun another hanother hsame => hdifferent another hanother file hfile hsame.symm⟩⟩

end Setting

/-! ## Sample projects -/

/-- A schema with one type. -/
def markText : String := "type Mark \x7b \x7d"

/-- The graph of a schema with one type. -/
def markGraph : TypeGraph := ⟨[⟨⟨"", "Mark"⟩, [], none, ⟨"a.ath", ⟨1, 1⟩⟩⟩]⟩

/-- A project with that schema in the working directory. -/
def markSetting (targets : List Target) : Setting :=
  ⟨[], ⟨⟨"."⟩, ⟨"./athalar.toml"⟩, ⟨"shapes", ["a.ath"], targets⟩⟩, markGraph, false⟩

/-- A tree with a manifest and a schema. -/
def markTree (manifest schema : ByteArray) : FileTree :=
  ⟨[(["athalar.toml"], .file manifest), (["a.ath"], .file schema)]⟩

/-- The schema with the mark gives the graph with the mark. -/
theorem graphOfSources_mark : graphOfSources [("a.ath", markText)] = .ok markGraph := by
  have htokens : (Schema.lex markText.toList).tokens =
      [⟨⟨1, 1⟩, .name "type"⟩, ⟨⟨1, 6⟩, .name "Mark"⟩, ⟨⟨1, 11⟩, .symbol .leftBrace⟩,
        ⟨⟨1, 13⟩, .symbol .rightBrace⟩] := by cbv
  have hdeclaration : Schema.Grammar.Declaration "a.ath" "" (Schema.lex markText.toList).tokens
      ⟨"Mark", "", [], none, ⟨"a.ath", ⟨1, 1⟩⟩⟩ := by
    rw [htokens]
    exact .mk ⟨1, 1⟩ ⟨1, 6⟩ ⟨1, 11⟩ ⟨1, 13⟩ "Mark" .nil (fun kind => by cases kind <;> decide)
      (.empty .nil)
  have hparse : Schema.parse "a.ath" markText =
      .ok ⟨"a.ath", "", [⟨"Mark", "", [], none, ⟨"a.ath", ⟨1, 1⟩⟩⟩]⟩ := by
    refine Schema.parse_of_derived (by cbv) ?_
    simpa using @Schema.Grammar.File.mk "a.ath" [] _ [] [] none _ .absent
      (.cons hdeclaration .nil) .nil
  have hbuild : Graph.build [⟨"a.ath", "", [⟨"Mark", "", [], none, ⟨"a.ath", ⟨1, 1⟩⟩⟩]⟩] =
      .ok markGraph := by cbv
  exact graphOfSources_singleton hparse hbuild

/-- The project is loaded from a manifest that is accepted. -/
theorem load_mark {targets : List Target} {manifest : String} {schema : ByteArray}
    (hmanifest : (Manifest.read "./athalar.toml" manifest).toOption =
      some ⟨"shapes", ["a.ath"], targets⟩)
    (houtputs : checkOutputs ⟨"."⟩ targets = .ok ()) :
    Ends (load (Disk.storage []) ⟨"."⟩) (markTree manifest.toUTF8 schema).disk
      (.ok (markSetting targets).project) (markTree manifest.toUTF8 schema).disk := by
  have hname : IsName "athalar.toml" := ⟨by decide, by decide, by decide, by decide⟩
  have hway : way [] ⟨"."⟩ = [] := by decide +kernel
  have hgoal : goal [] ⟨"."⟩ = [] := by decide +kernel
  have hentry : (markTree manifest.toUTF8 schema).entryAt? ["athalar.toml"] =
      some (.file manifest.toUTF8) := rfl
  have hroot : (markTree manifest.toUTF8 schema).find? [] .through ⟨"."⟩ =
      some ([], .directory) := by
    rw [find?, walk_of_directories (by decide +kernel) (by simp [hway]), hgoal]
  have hwalk : (markTree manifest.toUTF8 schema).walk [] .through
      (Path.join ⟨"."⟩ ⟨Manifest.fileName⟩) =
      .ok (.taken ["athalar.toml"] (.file manifest.toUTF8)) := by
    have hplain : ∀ target, (markTree manifest.toUTF8 schema).entryAt?
        (goal [] ⟨"."⟩ ++ ["athalar.toml"]) ≠ some (.link target) := by
      rw [hgoal, List.nil_append, hentry]
      simp
    rw [Manifest.fileName, walk_join hname (by decide +kernel) (by simp [hway])
      fun _ => hplain, hgoal]
    exact congrArg _ (arrivalAt_of_some hentry)
  exact load_ends hroot hwalk (eq_ok_of_toOption hmanifest) houtputs

/-- The schema of the project with the mark is discovered and makes the graph. -/
theorem readGraph_mark (targets : List Target) (manifest : ByteArray) :
    Ends (readGraph (Disk.storage []) (markSetting targets).project)
      (markTree manifest markText.toUTF8).disk
      (.ok (markSetting targets).graph) (markTree manifest markText.toUTF8).disk := by
  have hdiscover (schema : ByteArray) : Ends
      (discover (Disk.storage []) (markSetting targets).project)
      (markTree manifest schema).disk (.ok [⟨"a.ath"⟩]) (markTree manifest schema).disk := by
    rw [Ends, Gives]
    cbv
  have hwalk (schema : ByteArray) : (markTree manifest schema).walk [] .through ⟨"a.ath"⟩ =
      .ok (.taken ["a.ath"] (.file schema)) := by cbv
  have hname : nameOf ⟨"."⟩ ⟨"a.ath"⟩ = "a.ath" := by decide +kernel
  have hgraph : graphOfSources ([⟨"a.ath"⟩].map fun path => (nameOf ⟨"."⟩ path, markText)) =
      .ok markGraph := by
    rw [List.map_singleton, hname]
    exact graphOfSources_mark
  exact readGraph_ends (hdiscover _) (by simpa using ⟨_, hwalk _⟩) hgraph

/-- A target that overrides no names. -/
def plainTarget (language : Language) (output : String) : Target := ⟨language, output, ⟨none, none⟩⟩

/-- What is emitted with one path is one file. -/
theorem exists_eq_of_path_eq {result : Except Unsupported (List EmittedFile)} {path : String}
    (h : (result.toOption.map fun emitted => emitted.map EmittedFile.path) = some [path]) :
    ∃ content, result = .ok [⟨path, content⟩] := by
  cases result with
  | error cause => simp [Except.toOption] at h
  | ok emitted =>
    obtain ⟨⟨_, content⟩, rfl, rfl⟩ := List.map_eq_singleton_iff.mp (Option.some.inj h)
    exact ⟨content, rfl⟩

/-- A target for C is emitted as one header. -/
theorem emitted_header (targets : List Target) (output : String) :
    ∃ content, (markSetting targets).emitted (plainTarget .c output) = .ok [⟨"types.h", content⟩] :=
  exists_eq_of_path_eq (by cbv)

set_option maxRecDepth 2000 in
/-- A target for TypeScript is emitted as one module. -/
theorem emitted_interfaces (targets : List Target) (output : String) :
    ∃ content, (markSetting targets).emitted (plainTarget .typescript output) =
      .ok [⟨"types.ts", content⟩] :=
  exists_eq_of_path_eq (by cbv)

/-- One emitted file is one output file. -/
theorem outputFiles_singleton (file : EmittedFile) : outputFiles [file] = [file.output] := by
  simp [outputFiles, addOutput, EmittedFile.output]

/-- A target that is emitted as one file has that file. -/
theorem filesOf_singleton {setting : Setting} {target : Target} {path content : String}
    (h : setting.emitted target = .ok [⟨path, content⟩]) :
    setting.filesOf target = [⟨⟨path⟩, content⟩] := by
  rw [Setting.filesOf_eq h, outputFiles_singleton]
  rfl

/-- Whether the way to an output directory has only short names without hyphens, also with a file or
with the hidden directories that are made beside. -/
def Brief (out : Path) (name : String) (tree : FileTree) : Prop :=
  ¬ EndsInDot out ∧ (∀ move ∈ out.moves, '-' ∉ move.toList) ∧
    (out.join ⟨name⟩).text.utf8ByteSize ≤ pathLimit ∧
    ∀ hidden ∈ temporaryNames tree, hidden.utf8ByteSize ≤ Disk.nameLimit ∧
      ((surroundings out).join ⟨hidden⟩).text.utf8ByteSize ≤ pathLimit ∧
        (((surroundings out).join ⟨hidden⟩).join ⟨name⟩).text.utf8ByteSize ≤ pathLimit

instance (out : Path) (name : String) (tree : FileTree) : Decidable (Brief out name tree) :=
  inferInstanceAs (Decidable (_ ∧ _))

/-- A brief way is clear for the file if there are no links. -/
theorem clear_of_brief {setting : Setting} {target : Target} {out : Path} {tree : FileTree}
    {name content : String} (hlinks : tree.LinkFree)
    (hemitted : setting.emitted target = .ok [⟨name, content⟩]) (h : Brief out name tree) :
    ∀ emitted, setting.emitted target = .ok emitted →
      ClearWay setting.cwd out (outputFiles emitted) tree := by
  intro emitted hsame
  obtain rfl := Except.ok.inj (hemitted.symm.trans hsame)
  rw [outputFiles_singleton, EmittedFile.output]
  obtain ⟨hdot, hhyphen, hsize, hbeside⟩ := h
  refine ⟨fun stop _ target => hlinks stop target,
    fun hends => absurd hends hdot,
    fun number hmem => ?_, by simpa using hsize, fun hidden hmem => ?_⟩
  · exact hhyphen _ hmem (by rw [toList_hiddenName]; simp)
  · obtain ⟨hname, hhidden, hfile⟩ := hbeside hidden hmem
    exact ⟨hname, hhidden, by simpa using hfile⟩

/-- A file is admitted where nothing is on the way to it and all names are short. -/
theorem admits_of_free {setting : Setting} {target : Target} {tree : FileTree}
    {name content : String} (hemitted : setting.emitted target = .ok [⟨name, content⟩])
    (hpath : pathObstacle? (setting.outputOf target) = none)
    (hplace : goal setting.cwd (setting.outputOf target) ++ [name] ∉
      way setting.cwd (setting.outputOf target))
    (hfree : ∀ stop ∈ (goal setting.cwd (setting.outputOf target) ++
      [name]) :: way setting.cwd (setting.outputOf target), (tree.entryAt? stop).isNone ∧
      ∀ last ∈ stop.getLast?, last.utf8ByteSize ≤ Disk.nameLimit) :
    setting.Admits target tree := by
  rw [Setting.Admits, filesOf_singleton hemitted]
  rw [List.forall_mem_cons] at hfree
  obtain ⟨⟨hnone, hshort⟩, hway⟩ := hfree
  have hname : name.utf8ByteSize ≤ Disk.nameLimit := hshort name (by simp)
  refine ⟨hpath, by simpa using hname, .inl ⟨fun stop hstop => .inr ?_, ?_⟩⟩
  · exact ⟨Option.isNone_iff_eq_none.mp (hway stop hstop).1, (hway stop hstop).2⟩
  · rw [List.forall_mem_singleton, Option.isNone_iff_eq_none.mp hnone]
    exact ⟨by simp, hplace⟩

/-- The tree of the project with the mark has no links. -/
theorem linkFree_mark (manifest schema : ByteArray) : (markTree manifest schema).LinkFree :=
  linkFree_of_entries (by simp [markTree])

/-- In the tree of the project with the mark every entry stands in a directory. -/
theorem grounded_mark (manifest schema : ByteArray) : (markTree manifest schema).Grounded :=
  grounded_of_entries (by simp [markTree])

/-! ### Targets apart -/

/-- A header beside a directory of its own for interfaces, and a header whose way is blocked by the
schema. -/
def apartTargets : List Target :=
  [plainTarget .c "gen", plainTarget .typescript "gen/ts", plainTarget .c "a.ath/c"]

/-- A manifest with these targets. -/
def apartManifest : String :=
  "name = \"shapes\"\nschemas = [\"a.ath\"]\n[[targets]]\nlanguage = \"c\"\noutput = \"gen\"\n" ++
  "[[targets]]\nlanguage = \"typescript\"\noutput = \"gen/ts\"\n" ++
  "[[targets]]\nlanguage = \"c\"\noutput = \"a.ath/c\"\n"

/-- The three targets are isolated: two are admitted, one of them below the other, and the third one
is not. -/
theorem isolated_apartTargets :
    (Ends (generate (Disk.storage []) ⟨"."⟩ false)
      (markTree apartManifest.toUTF8 markText.toUTF8).disk
        (.ok ⟨"shapes", ((markSetting apartTargets).makeAll apartTargets
          (markTree apartManifest.toUTF8 markText.toUTF8).disk).1⟩)
        ((markSetting apartTargets).makeAll apartTargets
          (markTree apartManifest.toUTF8 markText.toUTF8).disk).2 ∧
      (markSetting apartTargets).Isolated (markTree apartManifest.toUTF8 markText.toUTF8)) ∧
    (markSetting apartTargets).Admits (plainTarget .c "gen") (markTree apartManifest.toUTF8
      markText.toUTF8) ∧
    (markSetting apartTargets).Admits (plainTarget .typescript "gen/ts")
    (markTree apartManifest.toUTF8 markText.toUTF8) ∧
    ¬ (markSetting apartTargets).Admits (plainTarget .c "a.ath/c")
      (markTree apartManifest.toUTF8 markText.toUTF8) := by
  obtain ⟨header, hheader⟩ := emitted_header apartTargets "gen"
  obtain ⟨interfaces, hinterfaces⟩ := emitted_interfaces apartTargets "gen/ts"
  obtain ⟨blocked, hblocked⟩ := emitted_header apartTargets "a.ath/c"
  have hnames {target : Target} {name content : String}
      (h : (markSetting apartTargets).emitted target = .ok [⟨name, content⟩]) :
      ((markSetting apartTargets).filesOf target).map (fun file => file.path.text) = [name] := by
    rw [filesOf_singleton h]
    rfl
  have hload :=
    @load_mark apartTargets apartManifest markText.toUTF8 (by decide +kernel) (by decide +kernel)
  have hgraph := readGraph_mark apartTargets apartManifest.toUTF8
  refine ⟨@Setting.generate_isolated (markSetting apartTargets) _ ⟨"."⟩ _ _ hload hgraph
    (grounded_mark _ _) rfl ?_ ?_, admits_of_free hheader (by decide +kernel) (by decide +kernel)
    (by decide +kernel), admits_of_free hinterfaces (by decide +kernel) (by decide +kernel)
    (by decide +kernel), ?_⟩
  · refine List.forall_mem_cons.mpr
      ⟨?_, List.forall_mem_cons.mpr ⟨?_, List.forall_mem_singleton.mpr ?_⟩⟩
    · exact clear_of_brief (linkFree_mark _ _) hheader (by decide +kernel)
    · exact clear_of_brief (linkFree_mark _ _) hinterfaces (by decide +kernel)
    · exact clear_of_brief (linkFree_mark _ _) hblocked (by decide +kernel)
  · refine List.pairwise_cons.mpr ⟨List.forall_mem_cons.mpr ⟨?_, List.forall_mem_singleton.mpr ?_⟩,
      List.pairwise_pair.mpr ?_⟩
    · exact .of_names (hnames hheader) (hnames hinterfaces) (by decide +kernel) (by decide +kernel)
        (by decide +kernel)
    · exact .of_names (hnames hheader) (hnames hblocked) (by decide +kernel) (by decide +kernel)
        (by decide +kernel)
    · exact .of_names (hnames hinterfaces) (hnames hblocked) (by decide +kernel) (by decide +kernel)
        (by decide +kernel)
  · rintro ⟨-, -, ⟨hway, -⟩ | ⟨hnil, -⟩⟩
    · have hin : ["a.ath"] ∈ way [] (Path.join ⟨"."⟩ ⟨"a.ath/c"⟩) := by decide +kernel
      have hfile : (markTree apartManifest.toUTF8 markText.toUTF8).entryAt? ["a.ath"] =
          some (.file markText.toUTF8) :=
        rfl
      have hpassable := hway ["a.ath"] hin
      rw [Passable, hfile] at hpassable
      simp at hpassable
    · simp [filesOf_singleton hblocked] at hnil

/-! ### Targets in each other's way -/

/-- Interfaces in a directory with the path of the header. -/
def nestedTargets : List Target := [plainTarget .typescript "gen/types.h", plainTarget .c "gen"]

/-- A manifest with these targets. -/
def nestedManifest : String :=
  "name = \"shapes\"\nschemas = [\"a.ath\"]\n\n" ++
  "[[targets]]\nlanguage = \"typescript\"\noutput = \"gen/types.h\"\n\n" ++
  "[[targets]]\nlanguage = \"c\"\noutput = \"gen\"\n"

/-- The manifest and the schema are accepted, but the targets are not isolated: the header is not
written behind the interfaces. -/
theorem not_isolated_nestedTargets :
    Ends (load (Disk.storage []) ⟨"."⟩) (markTree nestedManifest.toUTF8 markText.toUTF8).disk
        (.ok (markSetting nestedTargets).project) (markTree nestedManifest.toUTF8
          markText.toUTF8).disk ∧
      Ends (readGraph (Disk.storage []) (markSetting nestedTargets).project)
        (markTree nestedManifest.toUTF8 markText.toUTF8).disk
        (.ok (markSetting nestedTargets).graph)
        (markTree nestedManifest.toUTF8 markText.toUTF8).disk ∧
      ¬ (markSetting nestedTargets).Isolated (markTree nestedManifest.toUTF8 markText.toUTF8) := by
  obtain ⟨interfaces, hinterfaces⟩ := emitted_interfaces nestedTargets "gen/types.h"
  obtain ⟨header, hheader⟩ := emitted_header nestedTargets "gen"
  have hgrounded := grounded_mark nestedManifest.toUTF8 markText.toUTF8
  have hlinks := linkFree_mark nestedManifest.toUTF8 markText.toUTF8
  refine ⟨load_mark (by decide +kernel) (by decide +kernel), readGraph_mark nestedTargets _, ?_⟩
  have hnested : goal [] (Path.join ⟨"."⟩ ⟨"gen"⟩) ++ ["types.h"] =
      goal [] (Path.join ⟨"."⟩ ⟨"gen/types.h"⟩) := by
    decide +kernel
  have hinner : ⟨⟨"types.ts"⟩, interfaces⟩ ∈
      (markSetting nestedTargets).filesOf (plainTarget .typescript "gen/types.h") := by
    rw [filesOf_singleton hinterfaces]
    exact List.mem_singleton_self _
  have hfile : ⟨⟨"types.h"⟩, header⟩ ∈
      (markSetting nestedTargets).filesOf (plainTarget .c "gen") := by
    rw [filesOf_singleton hheader]
    exact List.mem_singleton_self _
  exact Setting.not_isolated_of_nested rfl rfl hinterfaces hheader
    (Setting.ready_of_clear graphOfSources_mark hgrounded rfl
      (clear_of_brief hlinks hinterfaces (by decide +kernel)))
    (Setting.ready_of_clear graphOfSources_mark hgrounded rfl
      (clear_of_brief hlinks hheader (by decide +kernel)))
    hgrounded (admits_of_free hinterfaces (by decide +kernel) (by decide +kernel)
      (by decide +kernel))
    (admits_of_free hheader (by decide +kernel) (by decide +kernel) (by decide +kernel))
    hinner hfile hnested

end SchemaBindings.Project
