import SchemaBindings.Proofs.Glob.Rooted

/-!
# What patterns match

A pattern matches the regular files that its glob finds, each by the path that the pattern spells.
All patterns that do not start at the root of the tree start from the root of the project, which is
escaped.

A level pattern takes no step up. So files that level patterns match are told apart by the
components of their paths, as long as all the patterns start from the same directory.
-/

namespace SchemaBindings.Project

open SchemaBindings.Glob (Leads Step along steps?)
open SchemaBindings.Path (Descends split)

/-! ## Patterns -/

/-- Whether the glob of a pattern finds a path that leads to a regular file. -/
def Matches (tree : FileTree) (cwd : Place) (root : Path) (pattern : String) (path : Path) : Prop :=
  ∃ glob, Glob.ofText (fullPattern root pattern) = .ok glob ∧ Glob.Finds tree cwd glob path ∧
    ∃ place, tree.FileAt cwd path place

/-- Whether a pattern takes no step up. -/
def LevelPattern (pattern : String) : Prop :=
  ∃ glob, Glob.ofText pattern.toList = .ok glob ∧ ∀ step ∈ glob.steps, ¬ step.Climbs

/-- Whether no pattern takes a step up, and all of them start at the root or none does. -/
structure LevelPatterns (patterns : List String) : Prop where
  level : ∀ pattern ∈ patterns, LevelPattern pattern
  alike : ∀ pattern ∈ patterns, ∀ other ∈ patterns, (Path.mk pattern).isAbsolute =
    (Path.mk other).isAbsolute

/-- A path without the slashes at its end. -/
def trimmed (root : Path) : List Char :=
  root.text.toList.rdropWhile fun c => decide (c = '/')

/-- What relative patterns start from. -/
def stem (root : Path) : Path :=
  match trimmed root with
  | [] => ⟨"/"⟩
  | '/' :: rest => along ⟨"/"⟩ (split rest)
  | text => along ⟨"."⟩ (split text)

/-- The root does not start with a dot. -/
theorem undotted_root : (Path.mk "/").Undotted := by
  intro h
  revert h
  decide

/-- The current directory starts with a dot and leads nowhere else. -/
theorem undotted_here : (Path.mk ".").Undotted := by
  intro _
  decide

/-- What relative patterns start from leads nowhere else if a dot is its first piece. -/
theorem undotted_stem (root : Path) : (stem root).Undotted := by
  unfold stem
  split
  · exact undotted_root
  · exact Glob.undotted_along undotted_root fun piece => Glob.no_slash_of_mem_split
  · exact Glob.undotted_along undotted_here fun piece => Glob.no_slash_of_mem_split

/-- A relative pattern is put behind the escaped root of the project. -/
theorem fullPattern_of_relative (root : Path) {pattern : String}
    (hrelative : (Path.mk pattern).isAbsolute = false) :
    fullPattern root pattern = Glob.escape (trimmed root) ++ '/' :: pattern.toList := by
  rw [fullPattern, if_neg (by simp [hrelative]), trimmed, ← Glob.rdropWhile_escape]
  rfl

variable {tree : FileTree} {cwd : Place} {root : Path} {glob : Glob} {found : Path}
  {pattern : String}

/-- What a relative pattern leads to, its own steps lead to from where all of them start. -/
theorem exists_leads_stem (hrelative : (Path.mk pattern).isAbsolute = false)
    (hglob : Glob.ofText (fullPattern root pattern) = .ok glob)
    (h : Leads tree cwd glob.steps ⟨if glob.absolute then "/" else "."⟩ found) :
    ∃ steps, (steps? pattern.toList = .ok steps ∨ steps = [.literal ""]) ∧
      Leads tree cwd steps (stem root) found := by
  rw [fullPattern_of_relative root hrelative] at hglob
  unfold stem
  split
  · next htrimmed =>
    rw [htrimmed] at hglob
    obtain ⟨habsolute, hsteps⟩ := Glob.steps_of_slash hglob
    rw [habsolute] at h
    exact ⟨_, hsteps.imp_right And.right, h⟩
  · next rest htrimmed =>
    rw [htrimmed, Glob.escape_cons, Glob.isWildcard_slash] at hglob
    obtain ⟨habsolute, hsteps | ⟨hnil, -⟩⟩ := Glob.steps_of_slash hglob
    · obtain ⟨steps, hpattern, hall⟩ := Glob.steps?_escape_append hsteps
      rw [habsolute, hall] at h
      exact ⟨steps, .inl hpattern, h.of_escapedSteps⟩
    · exact absurd hnil (List.append_ne_nil_of_right_ne_nil _ (List.cons_ne_nil _ _))
  · next hne hslash =>
    obtain ⟨c, rest, htrimmed⟩ := List.exists_cons_of_ne_nil hne
    have hc : c ≠ '/' := fun heq => hslash rest (heq ▸ htrimmed)
    have hhead : (Glob.escape (trimmed root) ++ '/' :: pattern.toList).head? ≠ some '/' := by
      rw [htrimmed, Glob.escape_cons]
      split <;> simp [hc]
    obtain ⟨habsolute, hread⟩ := Glob.steps_of_relative hhead hglob
    obtain ⟨steps, hpattern, hall⟩ := Glob.steps?_escape_append hread
    rw [habsolute, hall] at h
    exact ⟨steps, .inl hpattern, h.of_escapedSteps⟩

/-- What level patterns start from. -/
def baseOf (root : Path) (pattern : String) : Path :=
  if (Path.mk pattern).isAbsolute then ⟨"/"⟩ else stem root

/-- What a pattern starts from leads nowhere else if a dot is its first piece. -/
theorem undotted_baseOf (root : Path) (pattern : String) : (baseOf root pattern).Undotted := by
  unfold baseOf
  split
  · exact undotted_root
  · exact undotted_stem root

/-- A level pattern matches paths that go down from where it starts. -/
theorem Matches.descends (hnamed : tree.Named) (hlevel : LevelPattern pattern)
    (h : Matches tree cwd root pattern found) : Descends (baseOf root pattern) found := by
  obtain ⟨full, hfull, hfinds, -⟩ := h
  obtain ⟨glob, hglob, hclimbs⟩ := hlevel
  have hleads := hfinds.leads
  unfold baseOf
  cases habsolute : (Path.mk pattern).isAbsolute with
  | true =>
    obtain ⟨rest, hrest⟩ := List.head?_eq_some_iff.mp (of_decide_eq_true habsolute)
    rw [fullPattern, if_pos habsolute] at hfull
    obtain rfl := Except.ok.inj (hfull.symm.trans hglob)
    rw [hrest] at hglob
    obtain ⟨hfrom, hsteps | ⟨-, hsteps⟩⟩ := Glob.steps_of_slash hglob
    · rw [hfrom] at hleads
      exact hleads.descends hnamed (Glob.isPiece_of_steps? hsteps) hclimbs
    · rw [hfrom] at hleads
      exact hleads.descends hnamed (by simp [hsteps, Step.IsPiece]) hclimbs
  | false =>
    obtain ⟨steps, hsteps | rfl, hleads⟩ := exists_leads_stem habsolute hfull hleads
    · obtain ⟨-, hown⟩ := Glob.steps_of_relative (of_decide_eq_false habsolute) hglob
      obtain rfl := Except.ok.inj (hsteps.symm.trans hown)
      exact hleads.descends hnamed (Glob.isPiece_of_steps? hsteps) hclimbs
    · exact hleads.descends hnamed (by simp [Step.IsPiece]) (by simp [Step.Climbs])

/-- Whether what patterns match is spelled with the literal components of the patterns. So what a
pattern that takes no step up matches goes down from where the pattern starts. -/
def KeepsComponents (root : Path) (matching : String → Path → Prop) : Prop :=
  ∀ pattern, LevelPattern pattern →
    ∀ path, matching pattern path → Descends (baseOf root pattern) path

/-- What globs match is spelled with the literal components of the patterns. -/
theorem keepsComponents_matches (hnamed : tree.Named) :
    KeepsComponents root (Matches tree cwd root) :=
  fun _ hlevel _ h => h.descends hnamed hlevel

/-- Of the paths that level patterns match, those that lead to one file have the same components. -/
theorem LevelPatterns.components_eq (hlinks : tree.LinkFree) {matching : String → Path → Prop}
    (hkeeps : KeepsComponents root matching) {patterns : List String}
    (hlevel : LevelPatterns patterns) {other : String} (hpattern : pattern ∈ patterns)
    (hother : other ∈ patterns) {path another : Path} (hpath : matching pattern path)
    (hanother : matching other another) (h : tree.SameFile cwd path another) :
    path.components = another.components := by
  have hbase : baseOf root other = baseOf root pattern := by
    rw [baseOf, baseOf, hlevel.alike other hother pattern hpattern]
  exact Glob.components_eq_of_sameFile hlinks (undotted_baseOf root pattern)
    (hkeeps pattern (hlevel.level pattern hpattern) path hpath)
    (hbase ▸ hkeeps other (hlevel.level other hother) another hanother) h

end SchemaBindings.Project
