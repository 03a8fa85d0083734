import SchemaBindings.Project.Generate
import SchemaBindings.Proofs.FileTree.Runs

/-!
# Generating on a file tree

A project is loaded and its schemas are read without changing anything on the disk. Then the targets
are made one after the other, in the order of the manifest.
-/

namespace SchemaBindings

open SchemaBindings.FileTree

/-! ## Looking without changing -/

section Looking

variable {ε α β : Type}

/-- Whether a program leaves the disk of every tree as it is. -/
def Looks (program : StateM Disk α) : Prop :=
  ∀ tree : FileTree, (program.run tree.disk).2 = tree.disk

namespace Looks

/-- A program that only answers changes nothing. -/
theorem pure (a : α) : Looks (pure a) := fun _ => rfl

/-- Where a program changes nothing, and neither does what comes behind, both of them change
nothing. -/
theorem bind {program : StateM Disk α} {next : α → StateM Disk β} (h : Looks program)
    (hnext : ∀ a, Looks (next a)) : Looks (program >>= next) := by
  intro tree
  change ((next (program.run tree.disk).1).run (program.run tree.disk).2).2 = _
  rw [h tree]
  exact hnext _ tree

/-- What changes nothing for any element changes nothing for a list of them. -/
theorem mapM {f : α → StateM Disk β} (h : ∀ a, Looks (f a)) (elements : List α) :
    Looks (elements.mapM f) := by
  induction elements with
  | nil => exact pure []
  | cons a elements ih =>
    rw [List.mapM_cons]
    exact bind (h a) fun b => bind ih fun bs => pure _

/-- A test that changes nothing for any element changes nothing for a list of them. -/
theorem filterM {f : α → StateM Disk Bool} (h : ∀ a, Looks (f a)) (elements : List α) :
    Looks (elements.filterM f) := by
  have hkept : ∀ kept, Looks (List.filterAuxM f elements kept) := by
    induction elements with
    | nil => exact pure
    | cons a elements ih => exact fun kept => bind (h a) fun fits => ih _
  exact bind (hkept []) fun kept => pure _

/-- A program that changes nothing ends on the disk that it began on. -/
theorem eq_of_gives {program : StateM Disk α} (h : Looks program) {tree : FileTree} {after : Disk}
    {a : α} (hgives : Gives program tree.disk a after) : after = tree.disk := by
  rw [← h tree, show program.run tree.disk = (a, after) from hgives]

/-- A program that only succeeds changes nothing. -/
theorem exceptPure (a : α) : Looks (Pure.pure a : ExceptT ε (StateM Disk) α).run :=
  pure (Except.ok a)

/-- A program that only fails changes nothing. -/
theorem throw (e : ε) : Looks (MonadExcept.throw e : ExceptT ε (StateM Disk) α).run :=
  pure (Except.error e)

/-- Where a program that may fail changes nothing, and neither does what comes behind, both of them
change nothing. -/
theorem exceptBind {program : ExceptT ε (StateM Disk) α} {next : α → ExceptT ε (StateM Disk) β}
    (h : Looks program.run) (hnext : ∀ a, Looks (next a).run) : Looks (program >>= next).run :=
  show Looks (program.run >>= ExceptT.bindCont next) from bind h fun result =>
    match result with
    | .ok a => hnext a
    | .error e => pure (Except.error e)

/-- A program that cannot fail changes nothing either among those that may. -/
theorem lift {program : StateM Disk α} (h : Looks program) :
    Looks (ExceptT.lift program : ExceptT ε (StateM Disk) α).run := bind h fun _ => pure _

/-- What may fail and changes nothing for any element changes nothing for a list of them. -/
theorem exceptMapM {f : α → ExceptT ε (StateM Disk) β} (h : ∀ a, Looks (f a).run)
    (elements : List α) :
    Looks (elements.mapM f).run := by
  induction elements with
  | nil => exact exceptPure []
  | cons a elements ih =>
    rw [List.mapM_cons]
    exact exceptBind (h a) fun b => exceptBind ih fun bs => exceptPure _

/-- Passing a result on changes nothing. -/
theorem ofExcept (result : Except ε α) :
    Looks (liftExcept result : ExceptT ε (StateM Disk) α).run := by
  cases result <;> exact fun _ => rfl

/-- A program that changes nothing changes nothing either where its failures are named otherwise. -/
theorem adapt {ε' : Type} {program : ExceptT ε (StateM Disk) α} (h : Looks program.run)
    (name : ε → ε') :
    Looks (program.adapt name).run :=
  bind h fun _ => pure _

/-- A program that goes on only after a positive answer changes nothing if what comes behind does
not. -/
theorem unlessThrow {asked : StateM Disk Bool} {e : ε} {next : ExceptT ε (StateM Disk) α}
    (h : Looks asked) (hnext : Looks next.run) : Looks (do
      unless ← asked do MonadExcept.throw e
      next : ExceptT ε (StateM Disk) α).run := by
  refine exceptBind (lift h) fun answer => ?_
  split
  · exact hnext
  · exact exceptBind (throw e) fun _ => hnext

end Looks

end Looking

/-- A glob looks for paths without changing anything. -/
theorem Glob.looks_expand (cwd : Place) :
    ∀ (steps : List Glob.Step) (path : Path), Looks (Glob.expand (Disk.storage cwd) steps path)
  | [], path => .pure [path]
  | .literal name :: rest, path => by
    have hrest (isThere : Bool) : Looks
        (if isThere = true then expand (Disk.storage cwd) rest (stepTo path name) else
        Pure.pure []) := by
      split
      · exact looks_expand cwd rest _
      · exact .pure []
    rw [expand]
    dsimp only
    split
    · exact @Looks.bind _ _ ((Disk.storage cwd).isDirectory path) _ (fun _ => rfl) hrest
    · exact @Looks.bind _ _ (Except.isOk <$> ((Disk.storage cwd).ownKind (stepTo path name)).run) _
        (fun _ => rfl) hrest
  | .pattern tokens :: rest, path => by
    rw [expand]
    refine @Looks.bind _ _ ((Disk.storage cwd).isDirectory path) _ (fun _ => rfl)
      fun isDirectory => ?_
    split
    · exact @Looks.bind _ _ ((Disk.storage cwd).names path) _ (fun _ => rfl) fun names =>
        .bind (.mapM (looks_expand cwd rest) _) fun found => .pure _
    · exact .pure []
  | [.anyDepth], path => by
    rw [expand]
    refine @Looks.bind _ _ ((Disk.storage cwd).isDirectory path) _ (fun _ => rfl)
      fun isDirectory => ?_
    split
    · exact @Looks.bind _ _ ((Disk.storage cwd).below path) _ (fun _ => rfl)
        fun steps => .filterM (fun path _ => rfl) _
    · exact .pure []
  | .anyDepth :: step :: rest, path => by
    rw [expand]
    refine @Looks.bind _ _ ((Disk.storage cwd).isDirectory path) _ (fun _ => rfl)
      fun isDirectory => ?_
    split
    · exact @Looks.bind _ _ ((Disk.storage cwd).below path) _ (fun _ => rfl) fun steps =>
        .bind (.mapM (looks_expand cwd rest) _) fun found => .pure _
    · exact .pure []

/-- What a glob finds is found without changing anything. -/
theorem Glob.looks_find (cwd : Place) (glob : Glob) : Looks (glob.find (Disk.storage cwd)) := by
  rw [find]
  split
  · exact .pure []
  · refine .bind (looks_expand cwd _ _) fun found => ?_
    split
    · exact .filterM (fun path _ => rfl) _
    · exact .pure found

/-- Searching for what a text finds changes nothing. -/
theorem Glob.looks_search (cwd : Place) (text : List Char) :
    Looks (Glob.search (Disk.storage cwd) text).run := by
  unfold search
  split
  · exact .throw _
  · exact .lift (looks_find cwd _)

namespace Project

/-- Reading a text changes nothing. -/
theorem looks_readText (cwd : Place) (path : Path) :
    Looks (readText (Disk.storage cwd) path).run := by
  refine .exceptBind (@Looks.lift _ _ ((Disk.storage cwd).read path) fun _ => rfl) fun bytes => ?_
  split
  · exact .throw _
  · split
    · exact .exceptPure _
    · exact .throw _

/-- Loading a project changes nothing. -/
theorem looks_load (cwd : Place) (root : Path) : Looks (load (Disk.storage cwd) root).run := by
  refine .unlessThrow (fun _ => rfl)
    (.unlessThrow (fun _ => rfl) (.exceptBind (looks_readText cwd _) fun text => ?_))
  split
  · exact .throw _
  · exact .exceptBind (.ofExcept _) fun _ => .exceptPure _

/-- Discovering schema files changes nothing. -/
theorem looks_discover (cwd : Place) (project : Project) :
    Looks (discover (Disk.storage cwd) project).run := by
  have hmatches (pattern : String) :
      Looks (matchesBy (Disk.storage cwd) (Glob.search (Disk.storage cwd))
        project.root pattern).run :=
    .exceptBind (.adapt (Glob.looks_search cwd _) _)
    fun found => .lift (.filterM (fun path _ => rfl) _)
  refine .exceptBind
    (.exceptMapM (fun pattern => .exceptBind (hmatches pattern) fun found => .exceptPure _) _)
    fun found => ?_
  dsimp only
  split
  · exact .exceptPure _
  · exact .exceptBind (.throw _) fun _ => .exceptPure _

/-- Reading the schemas of a project changes nothing. -/
theorem looks_readGraph (cwd : Place) (project : Project) :
    Looks (readGraph (Disk.storage cwd) project).run :=
  .exceptBind (looks_discover cwd project) fun paths =>
    .exceptBind (.exceptMapM
      (fun path => .exceptBind (looks_readText cwd path) fun _ => .exceptPure _) paths)
      fun _ => .ofExcept _

variable {cwd : Place} {tree : FileTree} {root : Path} {project : Project}

/-! ## Reading -/

/-- The bytes of a text are read as the text. -/
theorem fromUTF8?_toUTF8 (text : String) : String.fromUTF8? text.toUTF8 = some text := by
  rw [String.fromUTF8?, String.toUTF8_eq_toByteArray, dif_pos text.isValidUTF8]
  rfl

/-- A file is read as the text it holds. -/
theorem readText_ends {path : Path} {place : Place} {text : String}
    (h : tree.walk cwd .through path = .ok (.taken place (.file text.toUTF8))) :
    Ends (readText (Disk.storage cwd) path) tree.disk (.ok text) tree.disk := by
  have hread : Gives ((Disk.storage cwd).read path) tree.disk (.ok text.toUTF8) tree.disk := by
    change (tree.read cwd path, tree.disk) = _
    rw [FileTree.read, h]
  refine Ends.bind_ok (Ends.lift_ok hread) ?_
  dsimp only
  rw [fromUTF8?_toUTF8]
  exact Ends.pure_iff.mpr ⟨rfl, rfl⟩

/-- A project is loaded from a manifest that is accepted. -/
theorem load_ends {place file : Place} {entry : Entry} {text : String} {manifest : Manifest}
    (hroot : tree.find? cwd .through root = some (place, entry))
    (hfile : tree.walk cwd .through (root.join ⟨Manifest.fileName⟩) =
      .ok (.taken file (.file text.toUTF8)))
    (hmanifest : Manifest.read (root.join ⟨Manifest.fileName⟩).text text = .ok manifest)
    (houtputs : checkOutputs root manifest.targets = .ok ()) :
    Ends (load (Disk.storage cwd) root) tree.disk
      (.ok ⟨root, root.join ⟨Manifest.fileName⟩, manifest⟩) tree.disk := by
  have hthere : Gives ((Disk.storage cwd).isThere root) tree.disk true tree.disk := by
    change (((tree.find? cwd .through root).map fun found => found.2.kind).isSome, tree.disk) = _
    rw [hroot]
    rfl
  have hisFile : Gives ((Disk.storage cwd).isFile (root.join ⟨Manifest.fileName⟩)) tree.disk
      true tree.disk := by
    change (decide
      (((tree.find? cwd .through (root.join ⟨Manifest.fileName⟩)).map fun found => found.2.kind) =
      some .file), tree.disk) = _
    rw [FileTree.find?, hfile]
    rfl
  refine Ends.bind_ok (Ends.lift_ok hthere) ?_
  rw [if_pos rfl]
  refine Ends.bind_ok (Ends.lift_ok hisFile) ?_
  rw [if_pos rfl]
  refine Ends.bind_ok (readText_ends hfile) ?_
  rw [hmanifest]
  dsimp only
  rw [houtputs]
  exact Ends.bind_ok (Ends.pure_iff.mpr ⟨rfl, rfl⟩) (Ends.pure_iff.mpr ⟨rfl, rfl⟩)

/-- The graph of a project is that of the files that are discovered. -/
theorem readGraph_ends {paths : List Path} {textOf : Path → String} {graph : TypeGraph}
    (hdiscover : Ends (discover (Disk.storage cwd) project) tree.disk (.ok paths) tree.disk)
    (htexts : ∀ path ∈ paths,
      ∃ place, tree.walk cwd .through path = .ok (.taken place (.file (textOf path).toUTF8)))
    (hgraph : graphOfSources (paths.map fun path => (nameOf project.root path, textOf path)) =
      .ok graph) :
    Ends (readGraph (Disk.storage cwd) project) tree.disk (.ok graph) tree.disk := by
  have hsources : Ends
      (paths.mapM fun path =>
        do return (nameOf project.root path, ← readText (Disk.storage cwd) path))
      tree.disk (.ok (paths.map fun path => (nameOf project.root path, textOf path)))
        tree.disk := by
    clear hdiscover hgraph
    induction paths with
    | nil => exact Ends.pure_iff.mpr ⟨rfl, rfl⟩
    | cons path paths ih =>
      rw [List.forall_mem_cons] at htexts
      obtain ⟨⟨place, hplace⟩, hothers⟩ := htexts
      rw [List.mapM_cons]
      exact Ends.bind_ok (Ends.bind_ok (readText_ends hplace) (Ends.pure_iff.mpr ⟨rfl, rfl⟩))
        (Ends.bind_ok (ih hothers) (Ends.pure_iff.mpr ⟨rfl, rfl⟩))
  refine Ends.bind_ok hdiscover (Ends.bind_ok hsources ?_)
  rw [hgraph]
  exact Ends.pure_iff.mpr ⟨rfl, rfl⟩

/-! ## Making -/

/-- What is generated is what comes of making the targets in the order of the manifest, on the disk
as it was. -/
theorem generate_ends {graph : TypeGraph} {cancelled : Bool} {loaded read after : Disk}
    {reports : List TargetReport}
    (hload : Ends (load (Disk.storage cwd) root) tree.disk (.ok project) loaded)
    (hgraph : Ends (readGraph (Disk.storage cwd) project) loaded (.ok graph) read)
    (hmade : Gives
      (project.manifest.targets.mapM (reportTarget (Disk.storage cwd) project graph cancelled))
      tree.disk reports after) :
    Ends (generate (Disk.storage cwd) root cancelled) tree.disk
      (.ok ⟨project.manifest.name, reports⟩) after := by
  obtain rfl := (looks_load cwd root).eq_of_gives hload
  obtain rfl := (looks_readGraph cwd project).eq_of_gives hgraph
  exact Ends.bind_ok hload
    (Ends.bind_ok hgraph (Ends.bind_ok (Ends.lift_ok hmade) (Ends.pure_iff.mpr ⟨rfl, rfl⟩)))

/-- The graph of a project is one of sources. -/
theorem exists_sources_of_readGraph {graph : TypeGraph} {disk read : Disk}
    (h : Ends (readGraph (Disk.storage cwd) project) disk (.ok graph) read) :
    ∃ sources, graphOfSources sources = .ok graph := by
  obtain ⟨paths, _, -, hrest⟩ | ⟨error, herror, -⟩ := Ends.bind_iff.mp h
  · obtain ⟨sources, between, -, hgraph⟩ | ⟨error, herror, -⟩ := Ends.bind_iff.mp hrest
    · cases hmade : graphOfSources sources with
      | ok made =>
        rw [hmade] at hgraph
        obtain ⟨hsame, -⟩ := Ends.pure_iff.mp hgraph
        exact ⟨sources, hmade.trans hsame.symm⟩
      | error error =>
        rw [hmade] at hgraph
        obtain ⟨herror, -⟩ := Ends.throw_iff.mp hgraph
        contradiction
    · contradiction
  · contradiction

end Project

end SchemaBindings
