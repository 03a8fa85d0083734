import SchemaBindings.Proofs.FileTree.Changes
import SchemaBindings.Proofs.Path.Around

/-!
# Trees without links

Where there are no links, a walk along a path that never steps up ends at the names of the path.
Directories that are made, and files that are moved, bring no links.
-/

namespace SchemaBindings.FileTree

/-- Whether there are no links. -/
def LinkFree (tree : FileTree) : Prop :=
  ∀ place goal, tree.entryAt? place ≠ some (.link goal)

/-- Where no entry is a link, there are no links. -/
theorem linkFree_of_entries {tree : FileTree}
    (h : ∀ entry ∈ tree.entries, ∀ goal, entry.2 ≠ .link goal) :
    tree.LinkFree := by
  intro place goal hlink
  by_cases hnil : place = []
  · simp [hnil] at hlink
  · exact h _ (mem_entries_of_entryAt? hnil hlink) goal rfl

/-- The place that a path stands for, where there are no links and it never steps up. -/
def placeOf (cwd : Place) (path : Path) : Place :=
  start cwd path ++ path.names

variable {cwd : Place}

/-- The place of a joined path is below that of the one it is joined to. -/
theorem placeOf_join (base : Path) {path : Path} (hrelative : path.isAbsolute = false) :
    placeOf cwd (base.join path) = placeOf cwd base ++ path.names := by
  rw [placeOf, placeOf, start, start, Path.isAbsolute_join base hrelative,
    Path.names_join base hrelative, List.append_assoc]

/-- A path on the way of another one stands for a place above that of the other. -/
theorem placeOf_below {around path : Path} (h : Path.OnTheWay around path)
    (hne : around.text ≠ "") :
    placeOf cwd around <+: placeOf cwd path := by
  obtain hempty | ⟨hsame, -⟩ := h.start_eq
  · exact absurd hempty hne
  · rw [placeOf, placeOf, start, start, hsame, List.prefix_append_right_inj]
    exact h.names_below

namespace LinkFree

variable {tree : FileTree} (hlinks : tree.LinkFree)

include hlinks

/-- A walk along a path that never steps up ends at the place that the path stands for. -/
theorem place_eq {path : Path} (hforward : path.Forward) {last : LastLink} {arrival : Arrival}
    (h : tree.walk cwd last path = .ok arrival) : arrival.place = placeOf cwd path := by
  rw [placeOf, path.names_eq]
  exact place_of_walkFrom (path.forward_iff.mp hforward) (fun place goal _ _ _ => hlinks place goal)
    (walk_eq_ok_iff.mp h).2

/-- Where a tree grows, no links come to be. -/
theorem grows {grown : FileTree} (hgrows : tree.Grows grown) : grown.LinkFree :=
  fun place goal hlink => hlinks place goal (hgrows.eq_some_of_plain hlink (by simp))

/-- Where something is moved, no links come to be. -/
theorem moved {source target : Place} {entry : Entry} {moved : FileTree}
    (hmoved : Moved tree source target entry moved) :
    moved.LinkFree := by
  intro place goal hlink
  rw [hmoved.entryAt?_eq] at hlink
  split at hlink
  · exact hlinks source goal (hmoved.source_eq.trans hlink)
  · split at hlink
    · contradiction
    · exact hlinks place goal hlink

/-- Where something is removed, no links come to be. -/
theorem remove {place : Place} (hplace : place ≠ []) : (tree.remove place).LinkFree := by
  intro other goal hlink
  rw [entryAt?_remove_eq tree hplace] at hlink
  split at hlink
  · contradiction
  · exact hlinks other goal hlink

/-- Where there are no links, a tree that evolves keeps all that leads walks on. -/
theorem keeps {after : FileTree} (hevolves : tree.Evolves after) : tree.Keeps after := by
  intro place hleads
  rcases hleads with hdirectory | ⟨goal, hlink⟩
  · rw [hevolves.directory hdirectory, hdirectory]
  · exact absurd hlink (hlinks place goal)

end LinkFree

end SchemaBindings.FileTree
