import SchemaBindings.Proofs.Path.Order
import SchemaBindings.Proofs.Project.Patterns

/-!
# Which schema files are discovered

Where every pattern of a project matches a regular file, the files that the patterns match are
discovered, strictly increasing and each under the way in which a pattern spells it. Which ones
depends on the patterns alone, not on their order. Where some patterns match nothing, exactly these
are reported.

Paths are told apart by their components, so a file is discovered twice if two patterns lead to it
in ways that differ by steps up. Level patterns, which take no step up, discover no file twice, as
long as all of them start at the root or none does.
-/

namespace SchemaBindings

/-! ## Runs one after the other -/

/-- Programs that succeed without changing anything do so one after the other. -/
theorem Ends.mapM_ok {ε α β : Type} {f : α → ExceptT ε (StateM Disk) β} {result : α → β}
    {disk : Disk} {elements : List α} (h : ∀ a ∈ elements, Ends (f a) disk (.ok (result a)) disk) :
    Ends (elements.mapM f) disk (.ok (elements.map result)) disk := by
  induction elements with
  | nil => exact Ends.pure_iff.mpr ⟨rfl, rfl⟩
  | cons a elements ih =>
    rw [List.forall_mem_cons] at h
    rw [List.mapM_cons]
    exact Ends.bind_ok h.1 (Ends.bind_ok (ih h.2) (Ends.pure_iff.mpr ⟨rfl, rfl⟩))

namespace Project

open SchemaBindings.FileTree (goal)

variable {tree : FileTree} {cwd : Place} {root : Path}
  {search : List Char → ExceptT Glob.PatternFault (StateM Disk) (List Path)}
  {matching : String → Path → Prop}

/-! ## Runs -/

/-- Whether a search finds paths for some patterns on a tree and changes nothing: what it finds and
leads to a regular file is what the patterns match. -/
def Searches (search : List Char → ExceptT Glob.PatternFault (StateM Disk) (List Path))
    (tree : FileTree) (cwd : Place) (root : Path) (patterns : List String)
    (matching : String → Path → Prop) : Prop :=
  ∀ pattern ∈ patterns, ∃ found,
    Ends (search (fullPattern root pattern)) tree.disk (.ok found) tree.disk ∧
      ∀ path, matching pattern path ↔ path ∈ found ∧ ∃ place, tree.FileAt cwd path place

/-- A search for globs finds what patterns match, if all of them are globs. -/
theorem searches_globs (tree : FileTree) (cwd : Place) {patterns : List String}
    (hglobs : ∀ pattern ∈ patterns, ∃ glob, Glob.ofText (fullPattern root pattern) = .ok glob) :
    Searches (Glob.search (Disk.storage cwd)) tree cwd root patterns (Matches tree cwd root) := by
  intro pattern hpattern
  obtain ⟨glob, hglob⟩ := hglobs pattern hpattern
  refine ⟨answer (glob.find (Disk.storage cwd)) tree, ?_, fun path => ?_⟩
  · rw [Glob.search, hglob]
    exact Ends.lift_ok ((Glob.looks_find cwd glob).gives tree)
  · rw [Glob.mem_find_iff]
    constructor
    · rintro ⟨other, hother, hfinds, hfile⟩
      obtain rfl := Except.ok.inj (hother.symm.trans hglob)
      exact ⟨hfinds, hfile⟩
    · rintro ⟨hfinds, hfile⟩
      exact ⟨glob, hglob, hfinds, hfile⟩

/-- The matches of patterns are found. -/
theorem Searches.matchesBy_ends {patterns : List String}
    (h : Searches search tree cwd root patterns matching) {pattern : String}
    (hpattern : pattern ∈ patterns) :
    ∃ found,
      Ends (matchesBy (Disk.storage cwd) search root pattern) tree.disk (.ok found) tree.disk ∧
        ∀ path, path ∈ found ↔ matching pattern path := by
  obtain ⟨found, hfound, hmatching⟩ := h pattern hpattern
  have hfilter : Looks (found.filterM (Disk.storage cwd).isFile) := .filterM (fun _ _ => rfl) found
  refine ⟨answer (found.filterM (Disk.storage cwd).isFile) tree, ?_, fun path => ?_⟩
  · exact Ends.bind_ok (Ends.adapt hfound _) (Ends.lift_ok (hfilter.gives tree))
  · rw [Looks.answer_filterM fun _ _ => rfl, List.mem_filter, FileTree.answer_isFile, hmatching]

/-- Where all patterns are read, what they match is discovered in order, unless some of them match
nothing. -/
theorem discoverBy_ends {project : Project} {found : String → List Path}
    (hfound : ∀ pattern ∈ project.manifest.schemas,
      Ends (matchesBy (Disk.storage cwd) search project.root pattern) tree.disk
        (.ok (found pattern)) tree.disk) :
    Ends (discoverBy (Disk.storage cwd) search project) tree.disk
      (if ∀ pattern ∈ project.manifest.schemas, found pattern ≠ [] then
        .ok (Path.inOrder (project.manifest.schemas.flatMap found))
      else .error (.unmatched
        (project.manifest.schemas.filter fun pattern => (found pattern).isEmpty))) tree.disk := by
  have hall : Ends (matchAll (Disk.storage cwd) search project) tree.disk
      (.ok (project.manifest.schemas.map fun pattern => (pattern, found pattern))) tree.disk :=
    Ends.mapM_ok fun pattern hpattern => Ends.bind_ok (hfound pattern hpattern)
      (Ends.pure_iff.mpr ⟨rfl, rfl⟩)
  refine Ends.bind_ok hall ?_
  have hunmatched : ((project.manifest.schemas.map fun pattern => (pattern, found pattern)).filter
      fun entry => entry.2.isEmpty).map Prod.fst = project.manifest.schemas.filter fun pattern =>
        (found pattern).isEmpty := by
    rw [List.filter_map, List.map_map]
    exact List.map_id _
  have hmatches : (project.manifest.schemas.map fun pattern => (pattern, found pattern)).flatMap
      Prod.snd = project.manifest.schemas.flatMap found := List.flatMap_map ..
  have hnone : (project.manifest.schemas.filter fun pattern => (found pattern).isEmpty).isEmpty =
      true ↔
      ∀ pattern ∈ project.manifest.schemas, found pattern ≠ [] := by
    simp
  rw [hunmatched, hmatches]
  by_cases hempty :
    (project.manifest.schemas.filter fun pattern => (found pattern).isEmpty).isEmpty = true
  · rw [if_pos hempty, if_pos (hnone.mp hempty)]
    exact Ends.pure_iff.mpr ⟨rfl, rfl⟩
  · rw [if_neg hempty, if_neg (mt hnone.mpr hempty)]
    exact Ends.bind_error (Ends.throw_iff.mpr ⟨rfl, rfl⟩)

/-! ## Discovered files -/

/-- What is discovered for some patterns: paths that they match, strictly increasing, and one for
the components of each match. -/
structure Discovered (matching : String → Path → Prop) (patterns : List String)
    (paths : List Path) : Prop where
  increasing : Path.Increasing paths
  matched : ∀ path ∈ paths, ∃ pattern ∈ patterns, matching pattern path
  complete : ∀ pattern ∈ patterns, ∀ path, matching pattern path →
    ∃ other ∈ paths, other.components = path.components

/-- Paths with the same components have the same goal. -/
theorem goal_eq_of_components_eq (cwd : Place) {path other : Path}
    (h : path.components = other.components) :
    goal cwd path = goal cwd other := by
  have hlanding : path.landing = other.landing := by rw [Path.landing, Path.landing, h]
  exact (Path.same_landing_iff path other).mp (hlanding ▸ ⟨rfl, rfl, fun _ => rfl⟩) cwd

/-- Whether the matches of patterns are told apart by where they lead. -/
def ToldApart (cwd : Place) (matching : String → Path → Prop) (patterns : List String) : Prop :=
  ∀ pattern ∈ patterns, ∀ other ∈ patterns, ∀ path another, matching pattern path →
    matching other another → goal cwd path = goal cwd another → path.components = another.components

/-- Whether all that patterns match is regular files. -/
def OnlyFiles (tree : FileTree) (cwd : Place) (matching : String → Path → Prop)
    (patterns : List String) : Prop :=
  ∀ pattern ∈ patterns, ∀ path, matching pattern path → ∃ place, tree.FileAt cwd path place

/-- All that is searched for is regular files. -/
theorem Searches.onlyFiles {patterns : List String}
    (h : Searches search tree cwd root patterns matching) :
    OnlyFiles tree cwd matching patterns := by
  intro pattern hpattern path hmatches
  obtain ⟨found, -, hmatching⟩ := h pattern hpattern
  exact ((hmatching path).mp hmatches).2

/-- Matches of level patterns are told apart by where they lead. -/
theorem LevelPatterns.toldApart (hlinks : tree.LinkFree) (hkeeps : KeepsComponents root matching)
    {patterns : List String} (hlevel : LevelPatterns patterns)
    (hfiles : OnlyFiles tree cwd matching patterns) :
    ToldApart cwd matching patterns := by
  intro pattern hpattern other hother path another hpath hanother hgoal
  obtain ⟨place, hfile⟩ := hfiles pattern hpattern path hpath
  obtain ⟨inner, hotherfile⟩ := hfiles other hother another hanother
  exact hlevel.components_eq hlinks hkeeps hpattern hother hpath hanother
    ((hlinks.sameFile_iff hfile hotherfile).mpr hgoal)

namespace Discovered

variable {patterns : List String} {paths : List Path} (h : Discovered matching patterns paths)

include h

/-- The order of patterns and their repeats have no influence. -/
theorem map_components_eq {more : List String} {others : List Path}
    (hothers : Discovered matching more others)
    (hsame : ∀ pattern, pattern ∈ more ↔ pattern ∈ patterns) :
    others.map Path.components = paths.map Path.components := by
  refine Path.map_components_eq_of_increasing hothers.increasing h.increasing (fun path hpath => ?_)
    fun path hpath => ?_
  · obtain ⟨pattern, hpattern, hmatches⟩ := hothers.matched path hpath
    exact h.complete pattern ((hsame pattern).mp hpattern) path hmatches
  · obtain ⟨pattern, hpattern, hmatches⟩ := h.matched path hpath
    exact hothers.complete pattern ((hsame pattern).mpr hpattern) path hmatches

/-- Different discovered paths have different components. -/
theorem components_ne : paths.Pairwise fun path other => path.components ≠ other.components := by
  refine h.increasing.imp fun {path other} hbefore hsame => ?_
  rw [Path.before_iff, (Path.key_eq_iff path other).mpr hsame] at hbefore
  exact lt_irrefl _ hbefore

variable (hfiles : OnlyFiles tree cwd matching patterns) (hlinks : tree.LinkFree)

include hfiles hlinks

/-- Discovered paths lead to one file exactly if they have the same goal. -/
theorem sameFile_iff {path other : Path} (hpath : path ∈ paths) (hother : other ∈ paths) :
    tree.SameFile cwd path other ↔ goal cwd path = goal cwd other := by
  obtain ⟨pattern, hpattern, hmatches⟩ := h.matched path hpath
  obtain ⟨another, hanother, hothermatches⟩ := h.matched other hother
  obtain ⟨place, hfile⟩ := hfiles pattern hpattern path hmatches
  obtain ⟨inner, hotherfile⟩ := hfiles another hanother other hothermatches
  exact hlinks.sameFile_iff hfile hotherfile

/-- No file is discovered twice exactly if matches are told apart by where they lead. -/
theorem pairwise_iff :
    paths.Pairwise (fun path other => ¬ tree.SameFile cwd path other) ↔
    ToldApart cwd matching patterns := by
  constructor
  · intro hpairwise pattern hpattern other hother path another hpath hanother hgoal
    obtain ⟨first, hfirst, hfirstSame⟩ := h.complete pattern hpattern path hpath
    obtain ⟨second, hsecond, hsecondSame⟩ := h.complete other hother another hanother
    have hgoals : goal cwd first = goal cwd second := by
      rw [goal_eq_of_components_eq cwd hfirstSame, hgoal, goal_eq_of_components_eq cwd hsecondSame]
    have hone : first = second := by
      by_contra hne
      have : Std.Symm fun path other => ¬ tree.SameFile cwd path other :=
        ⟨fun _ _ hnot ⟨place, hother, hpath⟩ => hnot ⟨place, hpath, hother⟩⟩
      exact hpairwise.forall hfirst hsecond hne
        ((h.sameFile_iff hfiles hlinks hfirst hsecond).mpr hgoals)
    rw [← hfirstSame, ← hsecondSame, hone]
  · intro happart
    refine h.components_ne.imp_of_mem fun {path other} hpath hother hne hsame => hne ?_
    obtain ⟨pattern, hpattern, hmatches⟩ := h.matched path hpath
    obtain ⟨another, hanother, hothermatches⟩ := h.matched other hother
    exact happart pattern hpattern another hanother path other hmatches hothermatches
      ((h.sameFile_iff hfiles hlinks hpath hother).mp hsame)

end Discovered

open Classical in
/-- The patterns that match nothing, in order. -/
noncomputable def unmatchedAmong (matching : String → Path → Prop) (patterns : List String) :
    List String :=
  patterns.filter fun pattern => ¬ ∃ path, matching pattern path

/-! ## Discovering -/

section Discovering

variable {project : Project}
  (hsearches : Searches search tree cwd project.root project.manifest.schemas matching)

include hsearches

/-- What is discovered comes from lists of the matches of each pattern. -/
theorem exists_matches : ∃ found : String → List Path,
    (∀ pattern ∈ project.manifest.schemas, ∀ path, path ∈ found pattern ↔ matching pattern path) ∧
      (∀ pattern ∈ project.manifest.schemas, (found pattern ≠ [] ↔ ∃ path, matching pattern path)) ∧
      Ends (discoverBy (Disk.storage cwd) search project) tree.disk
        (if ∀ pattern ∈ project.manifest.schemas, found pattern ≠ [] then
          .ok (Path.inOrder (project.manifest.schemas.flatMap found))
        else .error (.unmatched
          (project.manifest.schemas.filter fun pattern => (found pattern).isEmpty))) tree.disk := by
  have hfinds : ∀ pattern ∈ project.manifest.schemas, ∃ found,
      Ends (matchesBy (Disk.storage cwd) search project.root pattern) tree.disk
          (.ok found) tree.disk ∧
        ∀ path, path ∈ found ↔ matching pattern path := fun pattern => hsearches.matchesBy_ends
  choose! found hends hmem using hfinds
  refine ⟨found, hmem, fun pattern hpattern => ?_, discoverBy_ends hends⟩
  rw [Ne, List.eq_nil_iff_forall_not_mem, not_forall_not]
  exact exists_congr (hmem pattern hpattern)

/-- Where every pattern matches something, what the patterns match is discovered. -/
theorem exists_discovered
    (hmatched : ∀ pattern ∈ project.manifest.schemas, ∃ path, matching pattern path) :
    ∃ paths, Ends (discoverBy (Disk.storage cwd) search project) tree.disk (.ok paths) tree.disk ∧
      Discovered matching project.manifest.schemas paths := by
  obtain ⟨found, hmem, hsome, hends⟩ := exists_matches hsearches
  rw [if_pos fun pattern hpattern => (hsome pattern hpattern).mpr
    (hmatched pattern hpattern)] at hends
  refine ⟨_, hends, Path.increasing_inOrder _,
    fun path hpath => ?_, fun pattern hpattern path hmatches => ?_⟩
  · obtain ⟨pattern, hpattern, hin⟩ := List.mem_flatMap.mp (Path.mem_of_mem_inOrder hpath)
    exact ⟨pattern, hpattern, (hmem pattern hpattern path).mp hin⟩
  · exact Path.exists_mem_inOrder
      (List.mem_flatMap.mpr ⟨pattern, hpattern, (hmem pattern hpattern path).mpr hmatches⟩)

/-- Where some patterns match nothing, these are reported. -/
theorem discoverBy_unmatched
    (hnot : ¬ ∀ pattern ∈ project.manifest.schemas, ∃ path, matching pattern path) :
    Ends (discoverBy (Disk.storage cwd) search project) tree.disk
      (.error (.unmatched (unmatchedAmong matching project.manifest.schemas))) tree.disk := by
  classical
  obtain ⟨found, -, hsome, hends⟩ := exists_matches hsearches
  rw [if_neg fun hall =>
    hnot fun pattern hpattern => (hsome pattern hpattern).mp (hall pattern hpattern)] at hends
  have hsame : (project.manifest.schemas.filter fun pattern => (found pattern).isEmpty) =
      unmatchedAmong matching project.manifest.schemas := by
    refine List.filter_congr fun pattern hpattern => ?_
    rw [Bool.eq_iff_iff, decide_eq_true_eq, ← hsome pattern hpattern, not_not, List.isEmpty_iff]
  rwa [hsame] at hends

/-- Where there are no links, and a search keeps the literal components of patterns: if every
pattern matches a regular file, what the patterns match is discovered in order, whatever the order
and the repeats of the patterns, and no file twice exactly if the matches are told apart by where
they lead, as those of level patterns are. Otherwise exactly the patterns that match nothing are
reported. -/
theorem discoversBy_matches (hlinks : tree.LinkFree)
    (hkeeps : KeepsComponents project.root matching) :
    ((∀ pattern ∈ project.manifest.schemas, ∃ path, matching pattern path) →
      ∃ paths, Ends (discoverBy (Disk.storage cwd) search project) tree.disk (.ok paths) tree.disk ∧
        Discovered matching project.manifest.schemas paths ∧
        (∀ path ∈ paths, ∀ other ∈ paths, tree.SameFile cwd path other ↔
          goal cwd path = goal cwd other) ∧
        (paths.Pairwise (fun path other => ¬ tree.SameFile cwd path other) ↔
          ToldApart cwd matching project.manifest.schemas) ∧
        (LevelPatterns project.manifest.schemas →
          paths.Pairwise fun path other => ¬ tree.SameFile cwd path other) ∧
        ∀ other : Project, other.root = project.root →
          (∀ pattern, pattern ∈ other.manifest.schemas ↔ pattern ∈ project.manifest.schemas) →
          ∃ others, Ends (discoverBy (Disk.storage cwd) search other) tree.disk
              (.ok others) tree.disk ∧
            others.map Path.components = paths.map Path.components) ∧
      ((¬ ∀ pattern ∈ project.manifest.schemas, ∃ path, matching pattern path) →
        Ends (discoverBy (Disk.storage cwd) search project) tree.disk
          (.error (.unmatched (unmatchedAmong matching project.manifest.schemas))) tree.disk) := by
  refine ⟨fun hmatched => ?_, discoverBy_unmatched hsearches⟩
  have hfiles := hsearches.onlyFiles
  obtain ⟨paths, hends, hdiscovered⟩ := exists_discovered hsearches hmatched
  refine ⟨paths, hends, hdiscovered,
    fun path hpath other hother => hdiscovered.sameFile_iff hfiles hlinks hpath hother,
    hdiscovered.pairwise_iff hfiles hlinks, fun hlevel => ?_, fun other hroot hsame => ?_⟩
  · exact (hdiscovered.pairwise_iff hfiles hlinks).mpr (hlevel.toldApart hlinks hkeeps hfiles)
  · have hothersearches : Searches search tree cwd other.root other.manifest.schemas matching :=
      fun pattern hpattern => hroot ▸ hsearches pattern ((hsame pattern).mp hpattern)
    obtain ⟨others, hotherEnds, hothers⟩ := exists_discovered hothersearches fun pattern hpattern =>
      hmatched pattern ((hsame pattern).mp hpattern)
    exact ⟨others, hotherEnds, hdiscovered.map_components_eq hothers hsame⟩

end Discovering

/-- Where there are no links and all patterns are globs: if every pattern matches a regular file,
what the patterns match is discovered in order, whatever the order and the repeats of the patterns,
and no file twice exactly if the matches are told apart by where they lead, as those of level
patterns are. Otherwise exactly the patterns that match nothing are reported. -/
theorem discovers_matches {project : Project} (hlinks : tree.LinkFree) (hnamed : tree.Named)
    (hglobs : ∀ pattern ∈ project.manifest.schemas,
      ∃ glob, Glob.ofText (fullPattern project.root pattern) = .ok glob) :
    ((∀ pattern ∈ project.manifest.schemas, ∃ path, Matches tree cwd project.root pattern path) →
      ∃ paths, Ends (discover (Disk.storage cwd) project) tree.disk (.ok paths) tree.disk ∧
        Discovered (Matches tree cwd project.root) project.manifest.schemas paths ∧
        (∀ path ∈ paths, ∀ other ∈ paths, tree.SameFile cwd path other ↔
          goal cwd path = goal cwd other) ∧
        (paths.Pairwise (fun path other => ¬ tree.SameFile cwd path other) ↔
          ToldApart cwd (Matches tree cwd project.root) project.manifest.schemas) ∧
        (LevelPatterns project.manifest.schemas →
          paths.Pairwise fun path other => ¬ tree.SameFile cwd path other) ∧
        ∀ other : Project, other.root = project.root →
          (∀ pattern, pattern ∈ other.manifest.schemas ↔ pattern ∈ project.manifest.schemas) →
          ∃ others, Ends (discover (Disk.storage cwd) other) tree.disk (.ok others) tree.disk ∧
            others.map Path.components = paths.map Path.components) ∧
      ((¬ ∀ pattern ∈ project.manifest.schemas,
        ∃ path, Matches tree cwd project.root pattern path) →
        Ends (discover (Disk.storage cwd) project) tree.disk
          (.error (.unmatched
            (unmatchedAmong (Matches tree cwd project.root) project.manifest.schemas)))
            tree.disk) :=
  discoversBy_matches (searches_globs tree cwd hglobs) hlinks (keepsComponents_matches hnamed)

/-! ## Sample patterns -/

section Samples

open SchemaBindings.FileTree
open SchemaBindings.Glob (leads_name)

/-- A project with some patterns. -/
def patternProject (patterns : List String) : Project :=
  ⟨⟨"proj"⟩, ⟨"proj/athalar.toml"⟩, ⟨"demo", patterns, []⟩⟩

/-- A tree with two schema files. -/
def patternTree : FileTree :=
  ⟨[(["proj"], .directory), (["proj", "a.ath"], .file .empty), (["proj", "sub"], .directory),
    (["proj", "sub", "b.ath"], .file .empty)]⟩

/-- The tree has no links. -/
theorem linkFree_patternTree : patternTree.LinkFree :=
  linkFree_of_entries (by simp [patternTree])

/-- All entries of the tree have names. -/
theorem named_patternTree : patternTree.Named := by decide

/-- The directory of the project is found, whatever is done with links. -/
theorem find?_patternTree_proj (last : LastLink) :
    patternTree.find? [] last ⟨"proj"⟩ = some (["proj"], .directory) :=
  find?_eq_arrivalAt [] "proj" (by decide) (by decide) (by decide)
    (by decide) (by decide)

/-! ### Patterns that overlap -/

/-- Everything that may be a schema, one of the files, and everything again. -/
def overlappingPatterns : List String := ["**/*.ath", "a.ath", "**/*.ath"]

/-- The pattern for all files at any depth is a glob. -/
theorem ofText_deepPattern : Glob.ofText (fullPattern ⟨"proj"⟩ "**/*.ath") =
    .ok ⟨false, [.literal "proj", .anyDepth, .pattern [.anyRun, .char '.', .char 'a', .char 't',
      .char 'h']], false⟩ := by
  have hfull : fullPattern ⟨"proj"⟩ "**/*.ath" = "proj/**/*.ath".toList := by decide
  rw [hfull]
  cbv

/-- The pattern for one of the files is a glob. -/
theorem ofText_plainPattern :
    Glob.ofText (fullPattern ⟨"proj"⟩ "a.ath") =
      .ok ⟨false, [.literal "proj", .literal "a.ath"], false⟩ := by
  have hfull : fullPattern ⟨"proj"⟩ "a.ath" = "proj/a.ath".toList := by decide
  rw [hfull]
  cbv

/-- The pattern for a file that is not there is a glob. -/
theorem ofText_missingPattern :
    Glob.ofText (fullPattern ⟨"proj"⟩ "c.ath") =
      .ok ⟨false, [.literal "proj", .literal "c.ath"], false⟩ := by
  have hfull : fullPattern ⟨"proj"⟩ "c.ath" = "proj/c.ath".toList := by decide
  rw [hfull]
  cbv

/-- The pattern for all files at any depth matches one in a directory below. -/
theorem matches_deepPattern : Matches patternTree [] ⟨"proj"⟩ "**/*.ath" ⟨"proj/sub/b.ath"⟩ := by
  have hfile : patternTree.find? [] .through ⟨"proj/sub/b.ath"⟩ =
      some (["proj", "sub", "b.ath"], .file .empty) :=
    find?_eq_arrivalAt ["proj", "sub"] "b.ath" (by decide) (by decide)
      (by decide) (by decide) (by decide)
  refine ⟨_, ofText_deepPattern, ⟨by simp, ?_, by simp⟩, _, _, hfile⟩
  refine leads_name (by decide) (by decide) (find?_patternTree_proj _) ?_
  have hfound : ["sub", "b.ath"].foldl Glob.stepTo ⟨"proj"⟩ = ⟨"proj/sub/b.ath"⟩ := by decide
  have hbelow : ["sub", "b.ath"] ∈ patternTree.below ["proj"] := by decide
  exact .deeper (find?_patternTree_proj _) hbelow rfl (by cbv) (hfound ▸ .done _)

/-- The pattern for one of the files matches it. -/
theorem matches_plainPattern : Matches patternTree [] ⟨"proj"⟩ "a.ath" ⟨"proj/a.ath"⟩ := by
  have hfile (last : LastLink) : patternTree.find? [] last ⟨"proj/a.ath"⟩ =
      some (["proj", "a.ath"], .file .empty) :=
    find?_eq_arrivalAt ["proj"] "a.ath" (by decide) (by decide) (by decide)
      (by decide) (by decide)
  refine ⟨_, ofText_plainPattern, ⟨by simp, ?_, by simp⟩, _, _, hfile .through⟩
  refine leads_name (by decide) (by decide) (find?_patternTree_proj _) ?_
  exact leads_name (by decide) (by decide) (hfile .unlessSlash) (.done _)

/-- The pattern for a file that is not there matches nothing. -/
theorem not_matches_missingPattern (path : Path) :
    ¬ Matches patternTree [] ⟨"proj"⟩ "c.ath" path := by
  rintro ⟨glob, hglob, hfinds, -⟩
  obtain rfl := Except.ok.inj (hglob.symm.trans ofText_missingPattern)
  have hnone : patternTree.find? [] .unlessSlash ⟨"proj/c.ath"⟩ = none :=
    find?_eq_arrivalAt ["proj"] "c.ath" (by decide) (by decide) (by decide)
      (by decide) (by decide)
  have hnext : Glob.stepTo (Glob.stepTo ⟨"."⟩ "proj") "c.ath" = ⟨"proj/c.ath"⟩ := by decide
  cases hfinds.leads with
  | literal _ h =>
    cases h with
    | literal hthere _ =>
      rw [Glob.IsThere, if_neg (by decide), if_neg (by decide), hnext] at hthere
      exact hthere hnone

/-- None of the patterns that overlap takes a step up, and none starts at the root. -/
theorem levelPatterns_overlapping : LevelPatterns overlappingPatterns := by
  have hdeep : LevelPattern "**/*.ath" :=
    ⟨⟨false, [.anyDepth, .pattern [.anyRun, .char '.', .char 'a', .char 't', .char 'h']],
      false⟩, by cbv, by decide⟩
  have hplain : LevelPattern "a.ath" := ⟨⟨false, [.literal "a.ath"], false⟩, by cbv, by decide⟩
  refine ⟨?_, by decide⟩
  simp [overlappingPatterns, hdeep, hplain]

/-- Patterns that overlap discover no file twice, and of patterns of which one matches nothing, that
one is reported. -/
theorem discovers_overlapping :
    (patternTree.LinkFree ∧ patternTree.Named ∧
      (∀ pattern ∈ overlappingPatterns,
        ∃ glob, Glob.ofText (fullPattern ⟨"proj"⟩ pattern) = .ok glob) ∧
      (∀ pattern ∈ overlappingPatterns, ∃ path, Matches patternTree [] ⟨"proj"⟩ pattern path) ∧
      LevelPatterns overlappingPatterns) ∧
    (∃ paths, Ends (discover (Disk.storage []) (patternProject overlappingPatterns))
      patternTree.disk (.ok paths)
        patternTree.disk ∧
      Discovered (Matches patternTree [] ⟨"proj"⟩) overlappingPatterns paths ∧
      paths.Pairwise fun path other => ¬ patternTree.SameFile [] path other) ∧
    Ends (discover (Disk.storage []) (patternProject ["c.ath", "a.ath"])) patternTree.disk
      (.error (.unmatched ["c.ath"])) patternTree.disk := by
  have hglobs : ∀ pattern ∈ overlappingPatterns, ∃ glob,
      Glob.ofText (fullPattern ⟨"proj"⟩ pattern) = .ok glob := by
    simp [overlappingPatterns, ofText_deepPattern, ofText_plainPattern]
  have hmatched : ∀ pattern ∈ overlappingPatterns, ∃ path, Matches patternTree []
      ⟨"proj"⟩ pattern path := by
    simp only [overlappingPatterns, List.forall_mem_cons]
    exact ⟨⟨_, matches_deepPattern⟩, ⟨_, matches_plainPattern⟩, ⟨_, matches_deepPattern⟩, by simp⟩
  obtain ⟨paths, hends, hdiscovered, -, -, hlevel, -⟩ := (@discovers_matches patternTree []
    (patternProject overlappingPatterns) linkFree_patternTree named_patternTree hglobs).1 hmatched
  refine ⟨⟨linkFree_patternTree, named_patternTree, hglobs, hmatched, levelPatterns_overlapping⟩,
    ⟨paths, hends, hdiscovered, hlevel levelPatterns_overlapping⟩, ?_⟩
  have hunmatched : unmatchedAmong (Matches patternTree [] ⟨"proj"⟩) ["c.ath", "a.ath"] =
      ["c.ath"] := by
    have hplain : ∃ path, Matches patternTree [] ⟨"proj"⟩ "a.ath" path := ⟨_, matches_plainPattern⟩
    simp [unmatchedAmong, not_matches_missingPattern, hplain]
  have hreported := (@discovers_matches patternTree [] (patternProject ["c.ath", "a.ath"])
    linkFree_patternTree
    named_patternTree (by simp [patternProject, ofText_missingPattern, ofText_plainPattern])).2
    fun hall => (hall "c.ath" List.mem_cons_self).elim not_matches_missingPattern
  exact hunmatched ▸ hreported

/-! ### A pattern that steps up -/

/-- One of the files, and the same one through the directory around the project. -/
def climbingPatterns : List String := ["a.ath", "../proj/a.ath"]

/-- The pattern that steps up and down again is a glob. -/
theorem ofText_climbingPattern : Glob.ofText (fullPattern ⟨"proj"⟩ "../proj/a.ath") =
    .ok ⟨false, [.literal "proj", .literal "..", .literal "proj", .literal "a.ath"], false⟩ := by
  have hfull : fullPattern ⟨"proj"⟩ "../proj/a.ath" = "proj/../proj/a.ath".toList := by decide
  rw [hfull]
  cbv

/-- The pattern that steps up and down again matches the file in the project. -/
theorem matches_climbingPattern :
    Matches patternTree [] ⟨"proj"⟩ "../proj/a.ath" ⟨"proj/../proj/a.ath"⟩ := by
  have hinner : patternTree.find? [] .unlessSlash ⟨"proj/../proj"⟩ = some (["proj"], .directory) :=
    find?_eq_arrivalAt ["proj", ".."] "proj" (by decide) (by decide)
      (by decide) (by decide) (by decide)
  have hfile (last : LastLink) :
      patternTree.find? [] last ⟨"proj/../proj/a.ath"⟩ = some (["proj", "a.ath"], .file .empty) :=
    find?_eq_arrivalAt ["proj", "..", "proj"] "a.ath" (by decide) (by decide)
      (by decide) (by decide) (by decide)
  refine ⟨_, ofText_climbingPattern, ⟨by simp, ?_, by simp⟩, _, _, hfile .through⟩
  refine leads_name (by decide) (by decide) (find?_patternTree_proj _) ?_
  refine .literal ?_ (leads_name (by decide) (by decide) hinner ?_)
  · rw [Glob.IsThere, if_pos (.inr rfl)]
    exact ⟨_, find?_patternTree_proj _⟩
  · exact leads_name (by decide) (by decide) (hfile .unlessSlash) (.done _)

/-- There are no links and every pattern matches a regular file, but one file is discovered
twice. -/
theorem discovers_twice :
    patternTree.LinkFree ∧ patternTree.Named ∧
      (∀ pattern ∈ climbingPatterns,
        ∃ glob, Glob.ofText (fullPattern ⟨"proj"⟩ pattern) = .ok glob) ∧
      (∀ pattern ∈ climbingPatterns, ∃ path, Matches patternTree [] ⟨"proj"⟩ pattern path) ∧
      ∃ paths, Ends (discover (Disk.storage []) (patternProject climbingPatterns))
        patternTree.disk (.ok paths)
          patternTree.disk ∧
        ∃ path ∈ paths, ∃ other ∈ paths, path.components ≠ other.components ∧
          patternTree.SameFile [] path other := by
  have hglobs : ∀ pattern ∈ climbingPatterns, ∃ glob, Glob.ofText (fullPattern ⟨"proj"⟩ pattern) =
      .ok glob := by
    simp [climbingPatterns, ofText_plainPattern, ofText_climbingPattern]
  have hmatched : ∀ pattern ∈ climbingPatterns, ∃ path, Matches patternTree []
      ⟨"proj"⟩ pattern path := by
    simp only [climbingPatterns, List.forall_mem_cons]
    exact ⟨⟨_, matches_plainPattern⟩, ⟨_, matches_climbingPattern⟩, by simp⟩
  have hsearches := searches_globs patternTree [] hglobs
  obtain ⟨paths, hends, hdiscovered⟩ :
      ∃ paths, Ends (discover (Disk.storage []) (patternProject climbingPatterns))
        patternTree.disk (.ok paths)
          patternTree.disk ∧
        Discovered (Matches patternTree [] ⟨"proj"⟩) climbingPatterns paths :=
        exists_discovered hsearches hmatched
  obtain ⟨path, hpath, hsame⟩ := hdiscovered.complete "a.ath" (by decide) _ matches_plainPattern
  obtain ⟨other, hother, hotherSame⟩ :=
    hdiscovered.complete "../proj/a.ath" (by decide) _ matches_climbingPattern
  refine ⟨linkFree_patternTree, named_patternTree, hglobs, hmatched, paths, hends, path, hpath,
    other, hother, ?_, ?_⟩
  · rw [hsame, hotherSame]
    decide
  · rw [hdiscovered.sameFile_iff hsearches.onlyFiles linkFree_patternTree hpath hother,
      goal_eq_of_components_eq [] hsame, goal_eq_of_components_eq [] hotherSame]
    decide

end Samples

end Project

end SchemaBindings
