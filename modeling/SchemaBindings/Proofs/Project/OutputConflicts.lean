import SchemaBindings.Project.Load
import SchemaBindings.Proofs.Path.Landing

/-!
# Which targets conflict

Two targets that write to the same place conflict, and the first conflict is reported. Places are
compared by reduced components. So the check finds exactly the conflicts up to pairs of climbs, and
exactly the conflicts where no output directory climbs more than once or from the root. Elsewhere it
takes different places for the same and the same place for different ones.
-/

namespace SchemaBindings.Project

open SchemaBindings.Manifest (Target)

/-! ## Conflicts -/

/-- Where the output directory of a target lands. -/
def outputLanding (root : Path) (target : Target) : Path.Landing :=
  (root.join ⟨target.output⟩).landing

/-- Whether two targets are the first to clash: no two targets in front of the second one do, and
the first one is among them. -/
def FirstClash (clash : Target → Target → Prop) (targets : List Target) (first second : Target) :
    Prop :=
  ∃ earlier later, targets = earlier ++ second :: later ∧
    earlier.Pairwise (fun a b => ¬ clash a b) ∧
    first ∈ earlier ∧ clash first second

/-- Whether checking the output directories of targets finds exactly the targets that clash: it
fails if and only if two targets clash, and the error names the first ones that do. -/
structure FindsClashes (clash : Target → Target → Prop) (root : Path) (targets : List Target) :
    Prop where
  fails_iff : (∃ error, checkOutputs root targets = .error error) ↔
    ¬ targets.Pairwise fun a b => ¬ clash a b
  error_iff : ∀ error, checkOutputs root targets = .error error ↔ ∃ first second,
    FirstClash clash targets first second ∧
    error = .outputConflict second.output first.language second.language

/-- Where two targets clash, two are the first to do so. -/
theorem exists_firstClash_iff (clash : Target → Target → Prop) (targets : List Target) :
    (∃ first second, FirstClash clash targets first second) ↔
      ¬ targets.Pairwise fun a b => ¬ clash a b := by
  constructor
  · rintro ⟨first, second, earlier, later, rfl, -, hfirst, hclash⟩ hpairwise
    exact (List.pairwise_append.mp hpairwise).2.2 first hfirst second List.mem_cons_self hclash
  · intro h
    induction targets using List.reverseRecOn with
    | nil => exact absurd List.Pairwise.nil h
    | append_singleton targets last ih =>
      by_cases hpairwise : targets.Pairwise fun a b => ¬ clash a b
      · simp only [List.pairwise_append, hpairwise, List.pairwise_singleton, List.mem_singleton,
          forall_eq, true_and, not_forall, not_not] at h
        obtain ⟨first, hfirst, hclash⟩ := h
        exact ⟨first, last, targets, [], rfl, hpairwise, hfirst, hclash⟩
      · obtain ⟨first, second, earlier, later, rfl, hclash⟩ := ih hpairwise
        exact ⟨first, second, earlier, later ++ [last], by simp, hclash⟩

/-- Behind targets that write to different places, the search finds the first target that writes
where one in front of it does. -/
theorem conflictAfter?_eq_some_iff (root : Path) {earlier : List Target}
    (hearlier : earlier.Pairwise fun a b => outputPlace root a ≠ outputPlace root b)
    (targets : List Target) (first second : Target) :
    conflictAfter? root earlier targets = some (first, second) ↔
      ∃ between later, targets = between ++ second :: later ∧
      (earlier ++ between).Pairwise (fun a b => outputPlace root a ≠ outputPlace root b) ∧
        first ∈ earlier ++ between ∧ outputPlace root first = outputPlace root second := by
  induction targets generalizing earlier with
  | nil => simp [conflictAfter?]
  | cons target rest ih =>
    rw [conflictAfter?]
    cases hfind : earlier.find? fun other => outputPlace root other = outputPlace root target with
    | some found =>
      have hsame : outputPlace root found = outputPlace root target := by
        simpa using List.find?_some hfind
      have hmem := List.mem_of_find?_eq_some hfind
      constructor
      · rintro ⟨⟩
        exact ⟨[], rest, rfl, by simpa using hearlier, by simpa using hmem, hsame⟩
      · rintro ⟨between, later, htargets, hpairwise, hfirst, hclash⟩
        cases between with
        | nil =>
          obtain ⟨rfl, rfl⟩ := List.cons.inj htargets
          have hnodup : (earlier.map (outputPlace root)).Nodup := List.pairwise_map.mpr hearlier
          have hone : found = first :=
            List.inj_on_of_nodup_map hnodup hmem (by simpa using hfirst) (hsame.trans hclash.symm)
          rw [hone]
        | cons other between =>
          obtain ⟨rfl, rfl⟩ := List.cons.inj htargets
          exact absurd hsame ((List.pairwise_append.mp hpairwise).2.2 found hmem
            target List.mem_cons_self)
    | none =>
      have hnew : ∀ other ∈ earlier, outputPlace root other ≠ outputPlace root target := by
        simpa using List.find?_eq_none.mp hfind
      have hpairwise : (earlier ++ [target]).Pairwise
          fun a b => outputPlace root a ≠ outputPlace root b :=
        List.pairwise_append.mpr ⟨hearlier, List.pairwise_singleton _ _, by simpa using hnew⟩
      refine (ih hpairwise).trans ⟨?_, ?_⟩
      · rintro ⟨between, later, rfl, hrest, hfirst, hclash⟩
        exact ⟨target :: between, later, rfl, by simpa using hrest, by simpa using hfirst, hclash⟩
      · rintro ⟨between, later, htargets, hrest, hfirst, hclash⟩
        cases between with
        | nil =>
          obtain ⟨rfl, rfl⟩ := List.cons.inj htargets
          exact absurd hclash (hnew first (by simpa using hfirst))
        | cons other between =>
          obtain ⟨rfl, rfl⟩ := List.cons.inj htargets
          exact ⟨between, later, rfl, by simpa using hrest, by simpa using hfirst, hclash⟩

/-- Checking finds exactly the targets whose reduced output directories are the same. -/
theorem findsClashes_outputPlace (root : Path) (targets : List Target) :
    FindsClashes (fun a b => outputPlace root a = outputPlace root b) root targets := by
  have hsome : ∀ first second, conflict? root targets = some (first, second) ↔
      FirstClash (fun a b => outputPlace root a = outputPlace root b) targets first
        second := fun first second =>
    conflictAfter?_eq_some_iff root List.Pairwise.nil targets first second
  have herror : ∀ error, checkOutputs root targets = .error error ↔ ∃ first second,
      FirstClash (fun a b => outputPlace root a = outputPlace root b) targets first second ∧
        error = .outputConflict second.output first.language second.language := by
    intro error
    simp only [← hsome]
    rw [checkOutputs]
    cases h : conflict? root targets with
    | none => simp
    | some pair => simp [Prod.ext_iff, eq_comm]
  refine ⟨?_, herror⟩
  rw [← exists_firstClash_iff]
  simp only [herror]
  exact ⟨fun ⟨_, first, second, hclash, _⟩ => ⟨first, second, hclash⟩,
    fun ⟨first, second, hclash⟩ => ⟨_, first, second, hclash, rfl⟩⟩

/-- Finding clashes depends only on which of the targets clash. -/
theorem FindsClashes.congr {clash clash' : Target → Target → Prop} {root : Path}
    {targets : List Target} (h : FindsClashes clash root targets)
    (hclash : ∀ a ∈ targets, ∀ b ∈ targets, clash a b ↔ clash' a b) :
    FindsClashes clash' root targets := by
  have hpairwise : ∀ part ⊆ targets, part.Pairwise (fun a b => ¬ clash a b) ↔
      part.Pairwise fun a b => ¬ clash' a b :=
    fun part hpart =>
      List.Pairwise.iff_of_mem fun {_ _} ha hb => not_congr (hclash _ (hpart ha) _ (hpart hb))
  have hfirst : ∀ first second, FirstClash clash targets first second ↔
      FirstClash clash' targets first second := by
    intro first second
    refine exists_congr fun earlier => exists_congr fun later => and_congr_right fun htargets => ?_
    have hearlier : earlier ⊆ targets := by simp [htargets]
    have hsecond : second ∈ targets := by simp [htargets]
    refine and_congr (hpairwise earlier hearlier) (and_congr_right fun hmem => ?_)
    exact hclash first (hearlier hmem) second hsecond
  refine ⟨h.fails_iff.trans (not_congr (hpairwise targets (List.Subset.refl _))),
    fun error => (h.error_iff error).trans ?_⟩
  simp only [hfirst]

/-- Checking the output directories finds exactly the targets that land at the same place up to
pairs of climbs, and exactly those that land at the same place if no target climbs more than once or
from the root. -/
theorem findsClashes_outputLanding (root : Path) (targets : List Target) :
    FindsClashes (fun a b => (outputLanding root a).SameUpToPairs (outputLanding root b))
        root targets ∧
      ((∀ target ∈ targets, (outputLanding root target).Shallow) →
        FindsClashes (fun a b => (outputLanding root a).Same (outputLanding root b))
          root targets) := by
  have hpairs : FindsClashes
      (fun a b => (outputLanding root a).SameUpToPairs (outputLanding root b)) root targets :=
    (findsClashes_outputPlace root targets).congr fun a _ b _ => Path.reduced_eq_iff _ _
  exact ⟨hpairs, fun hshallow => hpairs.congr fun a ha b hb =>
    Path.Landing.sameUpToPairs_iff (hshallow a ha) (hshallow b hb)⟩

/-- A target for each of two output directories. -/
def targetsFor (first second : String) : List Target :=
  [⟨.c, first, .none⟩, ⟨.python, second, .none⟩]

/-- Directories that differ in dots and slashes only are found to be the same. -/
theorem findsClashes_dotted :
    (∀ target ∈ targetsFor "gen" "./out/..//gen/", (outputLanding ⟨"proj"⟩ target).Shallow) ∧
      FindsClashes (fun a b => (outputLanding ⟨"proj"⟩ a).Same (outputLanding ⟨"proj"⟩ b)) ⟨"proj"⟩
        (targetsFor "gen" "./out/..//gen/") ∧
      checkOutputs ⟨"proj"⟩ (targetsFor "gen" "./out/..//gen/") =
        .error (.outputConflict "./out/..//gen/" .c .python) :=
  have hshallow : ∀ target ∈ targetsFor "gen" "./out/..//gen/",
      (outputLanding ⟨"proj"⟩ target).Shallow := by decide
  ⟨hshallow, (findsClashes_outputLanding ⟨"proj"⟩ _).2 hshallow, by decide⟩

/-- Directories that climb two levels apart are found to be the same, and a directory written above
the root is not found to be the one at the root. -/
theorem outputs_found_wrongly :
    ¬ FindsClashes (fun a b => (outputLanding ⟨"proj"⟩ a).Same (outputLanding ⟨"proj"⟩ b)) ⟨"proj"⟩
        (targetsFor "../x" "../../../x") ∧
      ¬ FindsClashes (fun a b => (outputLanding ⟨"proj"⟩ a).Same (outputLanding ⟨"proj"⟩ b))
        ⟨"proj"⟩ (targetsFor "/x" "/../x") := by
  constructor
  · intro hfinds
    have herror : checkOutputs ⟨"proj"⟩ (targetsFor "../x" "../../../x") =
        .error (.outputConflict "../../../x" .c .python) := by decide
    exact hfinds.fails_iff.mp ⟨_, herror⟩ (by decide)
  · intro hfinds
    have hok : checkOutputs ⟨"proj"⟩ (targetsFor "/x" "/../x") = .ok () := by decide
    obtain ⟨error, herror⟩ := hfinds.fails_iff.mpr (by decide)
    exact absurd (hok.symm.trans herror) (by simp)

end SchemaBindings.Project
