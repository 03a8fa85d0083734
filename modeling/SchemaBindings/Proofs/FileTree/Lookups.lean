import SchemaBindings.Proofs.FileTree.Hidden
import SchemaBindings.Proofs.FileTree.LinkFree
import SchemaBindings.Proofs.FileTree.Ways

/-!
# What paths lead to

A path leads to a directory or to a regular file at a place. Where there are no links, that place is
the goal of the path, so two paths lead to one file exactly if they have the same goal.
-/

namespace SchemaBindings.FileTree

open SchemaBindings.Path (blank movesOf)

/-! ## Directories and files -/

/-- Whether a path leads to a directory at a place. -/
def DirectoryAt (tree : FileTree) (cwd : Place) (path : Path) (place : Place) : Prop :=
  tree.find? cwd .through path = some (place, .directory)

/-- Whether a path leads to a regular file at a place. -/
def FileAt (tree : FileTree) (cwd : Place) (path : Path) (place : Place) : Prop :=
  ∃ content, tree.find? cwd .through path = some (place, .file content)

/-- Whether two paths lead to one regular file. -/
def SameFile (tree : FileTree) (cwd : Place) (path other : Path) : Prop :=
  ∃ place, tree.FileAt cwd path place ∧ tree.FileAt cwd other place

variable {tree : FileTree} {cwd : Place} {path other : Path} {place : Place}

/-- Without moves, a walk does not leave the directory where it starts. -/
theorem walkFrom_of_movesOf_eq_nil {last : LastLink} {links : Nat} {pieces : List String}
    (h : movesOf pieces = []) :
    tree.walkFrom last links place pieces = .ok (.taken place .directory) := by
  have hwalk := @walkFrom_passed tree last links place pieces [] (by simp [h, passed])
  rw [List.append_nil, h] at hwalk
  rw [hwalk, walkFrom]
  rfl

/-- A path that leads to a file makes moves. -/
theorem FileAt.moves_ne_nil (h : tree.FileAt cwd path place) : path.moves ≠ [] := by
  obtain ⟨content, hfound⟩ := h
  intro hmoves
  have hwalk := (walk_eq_ok_iff.mp (find?_eq_some.mp hfound)).2
  rw [walkFrom_of_movesOf_eq_nil hmoves] at hwalk
  simp at hwalk

/-- What is found at the goal of a path, behind directories. -/
theorem find?_eq_arrivalAt {last : LastLink} (front : List String) (name : String)
    (hpath : pathObstacle? path = none) (hpieces : path.pieces = front ++ [name])
    (hname : blank name = false ∧ name ≠ "..")
    (hway : ∀ stop ∈ passed (start cwd path) (movesOf front), (tree.entryAt? stop).map Entry.kind =
      some .directory)
    (hlink : (tree.entryAt? (goal cwd path)).map Entry.kind ≠ some .link) :
    tree.find? cwd last path =
      (tree.entryAt? (goal cwd path)).map fun entry => (goal cwd path, entry) := by
  have hdirectories : ∀ stop ∈ passed (start cwd path) (movesOf front), tree.entryAt? stop =
      some .directory := by
    intro stop hstop
    obtain ⟨entry, hentry, hkind⟩ := Option.map_eq_some_iff.mp (hway stop hstop)
    cases entry with
    | directory => exact hentry
    | file content => contradiction
    | link target => contradiction
  have hwalk : tree.walk cwd last path = .ok (tree.arrivalAt (goal cwd path)) :=
    walk_name hpath hpieces hname.1 hname.2 hdirectories
      fun _ target htarget => hlink (by rw [htarget]; rfl)
  rw [find?, hwalk, arrivalAt]
  cases tree.entryAt? (goal cwd path) <;> rfl

/-! ## Trees without links -/

namespace LinkFree

variable (hlinks : tree.LinkFree)

include hlinks

/-- A walk that ends at something ends where its moves lead. -/
theorem reached_eq_reach {last : LastLink} {links : Nat} {pieces : List String} {reached : Place}
    {entry : Entry} (h : tree.walkFrom last links place pieces = .ok (.taken reached entry)) :
    reached = reach place (movesOf pieces) := by
  induction pieces generalizing place with
  | nil =>
    rw [walkFrom] at h
    cases h
    rfl
  | cons piece rest ih =>
    rw [walkFrom] at h
    split at h
    · next hblank =>
      rw [Path.movesOf_cons_blank ((Path.blank_iff piece).mpr hblank)]
      exact ih h
    · next hmove =>
      have hblank : blank piece = false := by rwa [← Bool.not_eq_true, Path.blank_iff]
      rw [Path.movesOf_cons_move hblank, reach, List.foldl_cons, ← reach]
      split at h
      · next hup =>
        rw [moveTo, if_pos hup]
        exact ih h
      · next hup =>
        rw [moveTo_name hup]
        split at h
        · rw [arriveFree] at h
          split at h <;> simp at h
        · exact ih h
        · split at h
          · next hrest =>
            cases h
            rw [List.isEmpty_iff.mp hrest, Path.movesOf_nil]
            rfl
          · contradiction
        · next target hlink => exact absurd hlink (hlinks _ target)

/-- A path that leads to a file leads to its goal. -/
theorem eq_goal (h : tree.FileAt cwd path place) : place = goal cwd path := by
  obtain ⟨content, hfound⟩ := h
  exact hlinks.reached_eq_reach (walk_eq_ok_iff.mp (find?_eq_some.mp hfound)).2

/-- Paths that lead to files lead to the same file exactly if they have the same goal. -/
theorem sameFile_iff {inner : Place} (hpath : tree.FileAt cwd path place)
    (hother : tree.FileAt cwd other inner) :
    tree.SameFile cwd path other ↔ goal cwd path = goal cwd other := by
  constructor
  · rintro ⟨shared, hfirst, hsecond⟩
    rw [← hlinks.eq_goal hfirst, ← hlinks.eq_goal hsecond]
  · intro hgoal
    rw [← hlinks.eq_goal hpath, ← hlinks.eq_goal hother] at hgoal
    exact ⟨place, hpath, hgoal ▸ hother⟩

end LinkFree

/-! ## Names -/

/-- A name is a text without slashes that is neither empty nor one of the two that mean directories.
-/
theorem isName_iff (name : String) :
    IsName name ↔ name ≠ "" ∧ name ≠ "." ∧ name ≠ ".." ∧ '/' ∉ name.toList :=
  ⟨fun h => ⟨h.ne_empty, h.ne_dot, h.ne_dots, h.no_slash⟩,
    fun ⟨hempty, hdot, hdots, hslash⟩ => ⟨hempty, hdot, hdots, hslash⟩⟩

instance (name : String) : Decidable (IsName name) :=
  decidable_of_iff _ (isName_iff name).symm

/-- Whether all that leads from the root to the entries of a tree are names. -/
def Named (tree : FileTree) : Prop :=
  ∀ entry ∈ tree.entries, ∀ name ∈ entry.1, IsName name

instance (tree : FileTree) : Decidable tree.Named :=
  inferInstanceAs (Decidable (∀ entry ∈ tree.entries, ∀ name ∈ entry.1, IsName name))

namespace Named

variable (hnamed : tree.Named)

include hnamed

/-- What leads below a directory are names. -/
theorem isName_of_mem_below {names : List String} (h : names ∈ tree.below place) :
    ∀ name ∈ names, IsName name := by
  obtain ⟨entry, hentry, hsteps⟩ := List.mem_filterMap.mp h
  split at hsteps
  · rw [← Option.some.inj hsteps]
    exact fun name hname => hnamed entry hentry name (List.mem_of_mem_drop hname)
  · contradiction

/-- The names in a directory are names. -/
theorem isName_of_mem_names {name : String} (h : name ∈ tree.names place) : IsName name := by
  obtain ⟨names, hnames, hsingle⟩ := List.mem_filterMap.mp h
  split at hsingle
  · cases hsingle
    exact hnamed.isName_of_mem_below hnames name (List.mem_singleton_self name)
  · contradiction

end Named

end SchemaBindings.FileTree
