import Mathlib
import SchemaBindings.FileTree.Lemmas

/-!
# Grounded trees

In a grounded tree everything lies in directories. So nothing lies below a file or a link, and
moving one of them changes two places only. Every change of a disk keeps trees grounded.
-/

namespace SchemaBindings.FileTree

/-- Whether everything lies in directories. -/
def Grounded (tree : FileTree) : Prop :=
  ∀ place name, tree.entryAt? (place ++ [name]) ≠ none → tree.entryAt? place = some .directory

/-- What is at a place other than the root is one of the entries. -/
theorem mem_entries_of_entryAt? {tree : FileTree} {place : Place} {entry : Entry} (hne : place ≠ [])
    (h : tree.entryAt? place = some entry) : (place, entry) ∈ tree.entries := by
  rw [entryAt?_of_ne_nil tree hne] at h
  obtain ⟨before, behind, hsplit, -⟩ := List.lookup_eq_some_iff.mp h
  simp [hsplit]

/-- A tree is grounded if each of its entries lies in a directory. -/
theorem grounded_of_entries {tree : FileTree}
    (h : ∀ entry ∈ tree.entries, tree.entryAt? entry.1.dropLast = some .directory) :
    tree.Grounded := by
  intro place name hthere
  obtain ⟨entry, hentry⟩ := Option.ne_none_iff_exists'.mp hthere
  have hplace := h (place ++ [name], entry) (mem_entries_of_entryAt? (by simp) hentry)
  rwa [List.dropLast_concat] at hplace

/-! ## What lies below -/

/-- The root is a directory. -/
@[simp] theorem entryAt?_nil (tree : FileTree) : tree.entryAt? [] = some .directory := rfl

namespace Grounded

variable {tree : FileTree} (hgrounded : tree.Grounded)

include hgrounded

/-- Something lies below directories only. -/
theorem directory_of_append {place steps : Place} (hsteps : steps ≠ [])
    (h : tree.entryAt? (place ++ steps) ≠ none) : tree.entryAt? place = some .directory := by
  induction steps using List.reverseRecOn with
  | nil => exact absurd rfl hsteps
  | append_singleton steps name ih =>
    rw [← List.append_assoc] at h
    have hparent := hgrounded (place ++ steps) name h
    by_cases hnil : steps = []
    · simpa [hnil] using hparent
    · exact ih hnil (by simp [hparent])

/-- Something lies below directories only. -/
theorem directory_of_below {place other : Place} (hbelow : place <+: other) (hne : other ≠ place)
    (h : tree.entryAt? other ≠ none) : tree.entryAt? place = some .directory := by
  obtain ⟨steps, rfl⟩ := hbelow
  exact hgrounded.directory_of_append (fun hnil => hne (by simp [hnil])) h

/-- On the way to a directory are directories only. -/
theorem directory_at_or_above {place other : Place} (hbelow : place <+: other)
    (h : tree.entryAt? other = some .directory) : tree.entryAt? place = some .directory := by
  by_cases hsame : other = place
  · rwa [← hsame]
  · exact hgrounded.directory_of_below hbelow hsame (h ▸ Option.some_ne_none _)

/-- Nothing lies below what is no directory. -/
theorem eq_none_of_below {place other : Place} (hplain : tree.entryAt? place ≠ some .directory)
    (hbelow : place <+: other) (hne : other ≠ place) : tree.entryAt? other = none := by
  by_contra h
  exact hplain (hgrounded.directory_of_below hbelow hne h)

/-- To take away all that is below what is no directory is to take away that alone. -/
theorem ite_below_eq {source : Place} (hplain : tree.entryAt? source ≠ some .directory)
    (place : Place) :
    (if source <+: place then none else tree.entryAt? place) = if place = source then none
    else tree.entryAt? place := by
  by_cases hsame : place = source
  · rw [if_pos hsame, if_pos (hsame ▸ List.prefix_rfl)]
  · rw [if_neg hsame]
    split
    · next hunder => exact (hgrounded.eq_none_of_below hplain hunder hsame).symm
    · rfl

/-- What holds something is a directory. -/
theorem directory_dropLast {place : Place} (h : tree.entryAt? place ≠ none) :
    tree.entryAt? place.dropLast = some .directory := by
  by_cases hnil : place = []
  · simp [hnil]
  · rw [← List.dropLast_concat_getLast hnil] at h
    exact hgrounded _ _ h

end Grounded

/-! ## Putting and removing -/

/-- Putting an entry somewhere below the root changes its own place alone. -/
theorem entryAt?_put_eq (tree : FileTree) {place : Place} (hplace : place ≠ []) (entry : Entry)
    (other : Place) :
    (tree.put place entry).entryAt? other = if other = place then some entry
    else tree.entryAt? other := by
  by_cases hother : other = []
  · rw [hother, if_neg hplace.symm, entryAt?_nil, entryAt?_nil]
  · exact entryAt?_put tree entry hother

/-- Removing a place below the root empties it and all places below it, and no others. -/
theorem entryAt?_remove_eq (tree : FileTree) {place : Place} (hplace : place ≠ []) (other : Place) :
    (tree.remove place).entryAt? other = if place <+: other then none else tree.entryAt? other := by
  by_cases hother : other = []
  · rw [hother, if_neg fun h => hplace (List.prefix_nil.mp h), entryAt?_nil, entryAt?_nil]
  · exact entryAt?_remove tree hother

/-- A tree stays grounded if something is put into a directory and no directory is covered by
anything else. -/
theorem Grounded.put {tree : FileTree} (hgrounded : tree.Grounded) {place : Place}
    (hplace : place ≠ []) {entry : Entry} (hparent : tree.entryAt? place.dropLast = some .directory)
    (hcovered : tree.entryAt? place = some .directory → entry = .directory) :
    (tree.put place entry).Grounded := by
  intro other name h
  rw [entryAt?_put_eq tree hplace] at h ⊢
  have hother : tree.entryAt? other = some .directory := by
    by_cases hsame : other ++ [name] = place
    · rwa [← hsame, List.dropLast_concat] at hparent
    · rw [if_neg hsame] at h
      exact hgrounded other name h
  split
  · next hsame => rw [hcovered (hsame ▸ hother)]
  · exact hother

/-- A tree stays grounded if a place is removed. -/
theorem Grounded.remove {tree : FileTree} (hgrounded : tree.Grounded) {place : Place}
    (hplace : place ≠ []) :
    (tree.remove place).Grounded := by
  intro other name h
  rw [entryAt?_remove_eq tree hplace] at h ⊢
  by_cases hbelow : place <+: other
  · exact absurd (if_pos (hbelow.trans (List.prefix_append other [name]))) h
  · rw [if_neg hbelow]
    refine hgrounded other name fun hnone => h ?_
    rw [hnone, ite_self]

/-! ## Moving what is no directory -/

/-- Whether a tree is another one after what is at a place, and no directory, was moved to another
place over whatever no directory was there. -/
structure Moved (tree : FileTree) (source target : Place) (entry : Entry) (moved : FileTree) :
    Prop where
  source_eq : tree.entryAt? source = some entry
  plain : entry ≠ .directory
  target_plain : tree.entryAt? target ≠ some .directory
  entryAt?_eq : ∀ place, moved.entryAt? place =
    if place = target then some entry else if place = source then none else tree.entryAt? place
  grounded : moved.Grounded

/-- No directory is moved. -/
theorem Moved.source_plain {tree moved : FileTree} {source target : Place} {entry : Entry}
    (hmoved : Moved tree source target entry moved) : tree.entryAt? source ≠ some .directory := by
  rw [hmoved.source_eq, ne_eq, Option.some_inj]
  exact hmoved.plain

/-- Whether a file or a link may be moved to a place: it is in a directory, and no directory
itself. -/
structure Fits (tree : FileTree) (target : Place) : Prop where
  named : target ≠ []
  parent : tree.entryAt? target.dropLast = some .directory
  plain : tree.entryAt? target ≠ some .directory

variable {tree : FileTree} {source target : Place} {entry : Entry}

/-- What holds of the places after a move keeps a tree grounded. -/
theorem Grounded.of_entryAt?_eq (hgrounded : tree.Grounded)
    (hsource : tree.entryAt? source = some entry) (hplain : entry ≠ .directory)
    (hfits : tree.Fits target) {moved : FileTree}
    (heq : ∀ place, moved.entryAt? place = if place = target then some entry else if place =
      source then none else tree.entryAt? place) :
    moved.Grounded := by
  have hsourceplain : tree.entryAt? source ≠ some .directory := by simpa [hsource] using hplain
  intro other name h
  rw [heq] at h ⊢
  have hother : tree.entryAt? other = some .directory := by
    by_cases hsame : other ++ [name] = target
    · have hparent := hfits.parent
      rwa [← hsame, List.dropLast_concat] at hparent
    · rw [if_neg hsame] at h
      refine hgrounded other name fun hnone => h ?_
      rw [hnone, ite_self]
  have htarget : other ≠ target := fun hsame => hfits.plain (hsame ▸ hother)
  have hsource : other ≠ source := fun hsame => hsourceplain (hsame ▸ hother)
  rw [if_neg htarget, if_neg hsource, hother]

/-- Moving what is no directory to a fitting place. -/
theorem moved_move (hgrounded : tree.Grounded) (hsource : tree.entryAt? source = some entry)
    (hplain : entry ≠ .directory) (hfits : tree.Fits target) (hne : source ≠ target) :
    Moved tree source target entry (tree.move source target) := by
  have hsourceplain : tree.entryAt? source ≠ some .directory := by simpa [hsource] using hplain
  have hnamed : source ≠ [] := by
    rintro rfl
    exact hsourceplain rfl
  have heq : ∀ place, (tree.move source target).entryAt? place =
      if place = target then some entry else if place = source then none
      else tree.entryAt? place := by
    intro place
    by_cases hplace : place = []
    · rw [hplace, if_neg hfits.named.symm, if_neg hnamed.symm, entryAt?_nil, entryAt?_nil]
    rw [entryAt?_move tree hnamed hplace]
    by_cases htarget : place = target
    · rw [if_pos htarget, if_pos (htarget ▸ List.prefix_rfl), htarget, List.drop_length,
        List.append_nil, hsource]
    rw [if_neg htarget]
    by_cases hbelow : target <+: place
    · have hnone := hgrounded.eq_none_of_below hfits.plain hbelow htarget
      have hdrop : place.drop target.length ≠ [] := by
        obtain ⟨steps, rfl⟩ := hbelow
        rw [List.drop_left]
        exact fun hnil => htarget (by simp [hnil])
      have hmoved : tree.entryAt? (source ++ place.drop target.length) = none :=
        hgrounded.eq_none_of_below hsourceplain (List.prefix_append _ _) (by simpa using hdrop)
      rw [if_pos hbelow, hmoved, hnone, ite_self]
    · rw [if_neg hbelow, hgrounded.ite_below_eq hsourceplain]
  exact ⟨hsource, hplain, hfits.plain, heq, hgrounded.of_entryAt?_eq hsource hplain hfits heq⟩

/-- Moving something to where it is changes nothing. -/
theorem moved_self (hgrounded : tree.Grounded) (hsource : tree.entryAt? source = some entry)
    (hplain : entry ≠ .directory) : Moved tree source source entry tree := by
  refine ⟨hsource, hplain, by simpa [hsource] using hplain, fun place => ?_, hgrounded⟩
  split
  · next hsame => rw [hsame, hsource]
  · rfl

/-- Taking a file or a link away changes its own place alone. -/
theorem entryAt?_remove_plain (hgrounded : tree.Grounded)
    (hsource : tree.entryAt? source = some entry) (hplain : entry ≠ .directory) (place : Place) :
    (tree.remove source).entryAt? place = if place = source then none else tree.entryAt? place := by
  have hsourceplain : tree.entryAt? source ≠ some .directory := by simpa [hsource] using hplain
  have hnamed : source ≠ [] := by
    rintro rfl
    exact hsourceplain rfl
  rw [entryAt?_remove_eq tree hnamed, hgrounded.ite_below_eq hsourceplain]

/-! ## Moving a directory -/

/-- Whether a tree is another one after a directory was moved to where nothing was, or over an empty
directory. -/
structure MovedDirectory (tree : FileTree) (source target : Place) (moved : FileTree) : Prop where
  source_eq : tree.entryAt? source = some .directory
  source_ne : source ≠ []
  target_ne : target ≠ []
  parent : tree.entryAt? target.dropLast = some .directory
  empty : ∀ place, target <+: place → place ≠ target → tree.entryAt? place = none
  apart : ¬ source <+: target
  moved_eq : moved = tree.move source target

namespace MovedDirectory

variable {moved : FileTree} (hmoved : MovedDirectory tree source target moved)

include hmoved

/-- The directory is at the target with all it holds, and gone from where it was. -/
theorem entryAt?_eq (place : Place) : moved.entryAt? place =
    if target <+: place then tree.entryAt? (source ++ place.drop target.length)
    else if source <+: place then none else tree.entryAt? place := by
  by_cases hplace : place = []
  · rw [hplace, if_neg fun h => hmoved.target_ne (List.prefix_nil.mp h),
      if_neg fun h => hmoved.source_ne (List.prefix_nil.mp h), entryAt?_nil, entryAt?_nil]
  · rw [hmoved.moved_eq]
    exact entryAt?_move tree hmoved.source_ne hplace

/-- The directory was not below the target. -/
theorem not_below_target : ¬ target <+: source := by
  intro hbelow
  have hnone := hmoved.empty source hbelow fun hsame => hmoved.apart (hsame ▸ List.prefix_rfl)
  rw [hmoved.source_eq] at hnone
  contradiction

/-- The tree stays grounded. -/
theorem grounded (hgrounded : tree.Grounded) : moved.Grounded := by
  intro place name hthere
  rw [hmoved.entryAt?_eq] at hthere ⊢
  by_cases hbelow : target <+: place
  · obtain ⟨steps, rfl⟩ := hbelow
    rw [List.append_assoc, if_pos (List.prefix_append _ _),
      List.drop_left, ← List.append_assoc] at hthere
    rw [if_pos (List.prefix_append _ _), List.drop_left]
    exact hgrounded _ _ hthere
  rw [if_neg hbelow]
  by_cases hat : target <+: place ++ [name]
  · have hsame : target = place ++ [name] := by
      rcases List.prefix_concat_iff.mp hat with hsame | hshorter
      · exact hsame
      · exact absurd hshorter hbelow
    have hparent := hmoved.parent
    have hapart := hmoved.apart
    rw [hsame] at hapart hparent
    rw [List.dropLast_concat] at hparent
    rw [if_neg fun hunder => hapart (hunder.trans (List.prefix_append _ _)), hparent]
  · rw [if_neg hat] at hthere
    split at hthere
    · contradiction
    · next hunder =>
      rw [if_neg fun habove => hunder (habove.trans (List.prefix_append _ _))]
      exact hgrounded place name hthere

end MovedDirectory

/-- Nothing lies below a place with an empty listing. -/
theorem eq_none_of_below_isEmpty {place other : Place} (h : (tree.below place).isEmpty = true)
    (hbelow : place <+: other) (hne : other ≠ place) : tree.entryAt? other = none := by
  by_contra hthere
  have hother : other ≠ [] := by
    rintro rfl
    exact hne (List.prefix_nil.mp hbelow).symm
  rw [entryAt?_of_ne_nil tree hother] at hthere
  obtain ⟨entry, hentry⟩ := Option.ne_none_iff_exists'.mp hthere
  obtain ⟨before, behind, hsplit, -⟩ := List.lookup_eq_some_iff.mp hentry
  have hmem : (other, entry) ∈ tree.entries := by simp [hsplit]
  have hsteps : other.drop place.length ∈ tree.below place := by
    refine List.mem_filterMap.mpr ⟨(other, entry), hmem, if_pos ?_⟩
    simp [hbelow, hne]
  rw [List.isEmpty_iff.mp h] at hsteps
  contradiction

end SchemaBindings.FileTree
