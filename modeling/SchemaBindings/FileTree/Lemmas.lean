import SchemaBindings.FileTree.Basic

/-!
# What operations do to a file tree

Every operation is described by what is at a place afterwards: putting touches one place, removing a
place and all below it, and moving takes them to another place over what was there. A name for a
hidden directory is found nowhere in the tree.
-/

namespace SchemaBindings.FileTree

/-- A place that a filter keeps has the entry it had. -/
theorem lookup_filter_of_kept (entries : List (Place × Entry)) (keep : Place → Bool) {place : Place}
    (hkept : keep place = true) :
    (entries.filter fun entry => keep entry.1).lookup place = entries.lookup place := by
  induction entries with
  | nil => rfl
  | cons entry rest ih =>
    obtain ⟨key, value⟩ := entry
    by_cases hsame : place = key
    · subst hsame
      simp [hkept]
    · have hdiffers : (place == key) = false := beq_eq_false_iff_ne.mpr hsame
      by_cases hstays : keep key = true <;> simp [hstays, ih, List.lookup_cons, hdiffers]

/-- A place that a filter drops has no entry. -/
theorem lookup_filter_of_dropped (entries : List (Place × Entry)) (keep : Place → Bool)
    {place : Place} (hdropped : keep place = false) :
    (entries.filter fun entry => keep entry.1).lookup place = none := by
  refine List.lookup_eq_none_iff.mpr fun entry hmember => ?_
  obtain ⟨_, hstays⟩ := List.mem_filter.mp hmember
  refine bne_iff_ne.mpr fun hsame => ?_
  rw [hsame, hstays] at hdropped
  exact Bool.noConfusion hdropped

/-- Other places than the root are looked up. -/
theorem entryAt?_of_ne_nil (tree : FileTree) {place : Place} (hnamed : place ≠ []) :
    tree.entryAt? place = tree.entries.lookup place := by
  cases place with
  | nil => exact absurd rfl hnamed
  | cons name names => rfl

/-- Putting an entry changes its own place alone. -/
theorem entryAt?_put (tree : FileTree) {place other : Place} (entry : Entry) (hnamed : other ≠ []) :
    (tree.put place entry).entryAt? other =
      if other = place then some entry else tree.entryAt? other := by
  rw [entryAt?_of_ne_nil _ hnamed, entryAt?_of_ne_nil _ hnamed]
  by_cases hsame : other = place
  · subst hsame
    simp [put]
  · have hdiffers : (other == place) = false := beq_eq_false_iff_ne.mpr hsame
    simp only [put, List.lookup_cons, hdiffers, hsame, if_false]
    exact lookup_filter_of_kept tree.entries (fun key => decide (key ≠ place)) (by simp [hsame])

/-- Removing a place empties it and all places below it, and no others. -/
theorem entryAt?_remove (tree : FileTree) {place other : Place} (hnamed : other ≠ []) :
    (tree.remove place).entryAt? other = if place <+: other then none else tree.entryAt? other := by
  rw [entryAt?_of_ne_nil _ hnamed, entryAt?_of_ne_nil _ hnamed]
  by_cases hbelow : place <+: other
  · simp only [hbelow, if_true]
    exact lookup_filter_of_dropped tree.entries (fun key => !place.isPrefixOf key)
      (by simpa using hbelow)
  · simp only [hbelow, if_false]
    exact lookup_filter_of_kept tree.entries (fun key => !place.isPrefixOf key)
      (by simpa [List.isPrefixOf_iff_prefix, Bool.eq_false_iff] using hbelow)

/-- An entry for another place does not count. -/
theorem lookup_cons_of_ne {place key : Place} (hdiffers : place ≠ key) (value : Entry)
    (entries : List (Place × Entry)) :
    ((key, value) :: entries).lookup place = entries.lookup place := by
  rw [List.lookup_cons, beq_eq_false_iff_ne.mpr hdiffers]

/-- What a place holds after a move comes from the moved place, if it is below the target, and from
itself otherwise. -/
theorem movedTo_eq_some_iff {source target place other : Place} :
    movedTo source target place = some other ↔
      if target <+: other then place = source ++ other.drop target.length
      else ¬source <+: place ∧ place = other := by
  unfold movedTo
  by_cases hinside : source <+: place
  · obtain ⟨steps, rfl⟩ := hinside
    by_cases hunder : target <+: other
    · obtain ⟨more, rfl⟩ := hunder
      simp
    · have hdiffers : target ++ steps ≠ other := fun hsame => hunder ⟨steps, hsame⟩
      simp [hunder, hdiffers]
  · by_cases hunder : target <+: other
    · obtain ⟨more, rfl⟩ := hunder
      have hdiffers : place ≠ source ++ more := fun hsame => hinside ⟨more, hsame.symm⟩
      by_cases hcovered : target <+: place
      · simp [hinside, hcovered, hdiffers]
      · have hapart : place ≠ target ++ more := fun hsame => hcovered ⟨more, hsame.symm⟩
        simp [hinside, hcovered, hdiffers, hapart]
    · by_cases hcovered : target <+: place
      · have hapart : place ≠ other := fun hsame => hunder (hsame ▸ hcovered)
        simp [hinside, hcovered, hunder, hapart]
      · simp [hinside, hcovered, hunder]

/-- One more entry counts after a move for the place where it then is. -/
theorem lookup_filterMap_movedTo_cons (source target key : Place) (value : Entry)
    (entries : List (Place × Entry)) (other : Place) :
    (((key, value) :: entries).filterMap fun entry =>
        (movedTo source target entry.1).map fun place => (place, entry.2)).lookup other =
      if movedTo source target key = some other then some value
      else (entries.filterMap fun entry =>
        (movedTo source target entry.1).map fun place => (place, entry.2)).lookup other := by
  cases hmoved : movedTo source target key with
  | none => simp [hmoved]
  | some place =>
    by_cases hsame : place = other
    · subst hsame
      simp [hmoved]
    · simp only [List.filterMap_cons, hmoved, Option.map_some, Option.some.injEq, hsame, if_false]
      exact lookup_cons_of_ne (Ne.symm hsame) value _

/-- What a place holds after a move, in terms of the entries before it. -/
theorem lookup_move (source target : Place) (entries : List (Place × Entry)) (other : Place) :
    (move ⟨entries⟩ source target).entries.lookup other =
      if target <+: other then entries.lookup (source ++ other.drop target.length)
      else if source <+: other then none else entries.lookup other := by
  induction entries with
  | nil => simp [move]
  | cons entry rest ih =>
    obtain ⟨key, value⟩ := entry
    simp only [move] at ih ⊢
    rw [lookup_filterMap_movedTo_cons, ih]
    by_cases hunder : target <+: other
    · simp only [hunder, if_true, movedTo_eq_some_iff]
      by_cases hsame : key = source ++ other.drop target.length
      · rw [if_pos hsame, hsame, List.lookup_cons_self]
      · rw [if_neg hsame, lookup_cons_of_ne (Ne.symm hsame)]
    · simp only [hunder, if_false, movedTo_eq_some_iff]
      by_cases hinside : source <+: other
      · have hstays : ¬(¬source <+: key ∧ key = other) := fun hboth => hboth.1 (hboth.2 ▸ hinside)
        rw [if_neg hstays, if_pos hinside, if_pos hinside]
      · rw [if_neg hinside, if_neg hinside]
        by_cases hsame : key = other
        · subst hsame
          rw [if_pos ⟨hinside, rfl⟩, List.lookup_cons_self]
        · rw [if_neg fun hboth => hsame hboth.2, lookup_cons_of_ne (Ne.symm hsame)]

/-- A move takes a place and all below it to the target; nothing else changes but what was there. -/
theorem entryAt?_move (tree : FileTree) {source target other : Place} (hmoved : source ≠ [])
    (hnamed : other ≠ []) :
    (tree.move source target).entryAt? other =
      if target <+: other then tree.entryAt? (source ++ other.drop target.length)
      else if source <+: other then none else tree.entryAt? other := by
  have hfound : source ++ other.drop target.length ≠ [] := fun hempty =>
    hmoved (List.append_eq_nil_iff.mp hempty).1
  rw [entryAt?_of_ne_nil _ hnamed, entryAt?_of_ne_nil _ hfound, entryAt?_of_ne_nil _ hnamed]
  exact lookup_move source target tree.entries other

/-- Different numbers have different hidden names. -/
theorem hiddenName_injective {a b : Nat} (hsame : hiddenName a = hiddenName b) : a = b := by
  have hlengths := congrArg String.length hsame
  simp only [hiddenName, String.length_append, String.length_ofList,
    List.length_replicate] at hlengths
  omega

/-- A list that holds the first few hidden names has at least as many members. -/
theorem length_of_hiddenNames (count : Nat) (names : List String)
    (hheld : ∀ number < count, hiddenName number ∈ names) : count ≤ names.length := by
  induction count generalizing names with
  | zero => exact Nat.zero_le _
  | succ count ih =>
    have hmember := hheld count (Nat.lt_succ_self count)
    have hrest := ih (names.erase (hiddenName count)) fun number hbelow =>
      (List.mem_erase_of_ne fun hsame => Nat.ne_of_lt hbelow (hiddenName_injective hsame)).mpr
        (hheld number (Nat.lt_succ_of_lt hbelow))
    rw [List.length_erase_of_mem hmember] at hrest
    have hfilled := List.length_pos_of_mem hmember
    omega

/-- The name for a hidden directory is not in use. -/
theorem unusedName_not_mem_usedNames (tree : FileTree) : tree.unusedName ∉ tree.usedNames := by
  dsimp only [unusedName]
  cases hfound : (List.range (tree.usedNames.length + 1)).find? fun number =>
      hiddenName number ∉ tree.usedNames with
  | some number => simpa using List.find?_some hfound
  | none =>
    have hheld : ∀ number < tree.usedNames.length + 1, hiddenName number ∈ tree.usedNames :=
      fun number hbelow => by
        simpa using List.find?_eq_none.mp hfound number (List.mem_range.mpr hbelow)
    exact absurd (length_of_hiddenNames _ _ hheld) (Nat.not_succ_le_self _)

/-- The name for a hidden directory is on the way to no place of the tree. -/
theorem unusedName_not_mem (tree : FileTree) {place : Place} {entry : Entry}
    (hmember : (place, entry) ∈ tree.entries) : tree.unusedName ∉ place :=
  fun hused => tree.unusedName_not_mem_usedNames (List.mem_flatMap.mpr ⟨_, hmember, hused⟩)

end SchemaBindings.FileTree
