import SchemaBindings.Proofs.FileTree.Lookups
import SchemaBindings.Proofs.Project.Generating

/-!
# What a glob finds on a file tree

Steps lead from a path to others, by what the path leads to and what is in there. On a tree, a glob
finds the paths that its steps lead to, and no others.
-/

namespace SchemaBindings

/-! ## Answers -/

/-- What a program comes out with on the tree of a tree. -/
def answer {α : Type} (program : StateM Disk α) (tree : FileTree) : α :=
  (program.run tree.disk).1

/-- A question is answered from the tree. -/
theorem answer_asks {α : Type} (tree : FileTree) (question : FileTree → α) :
    answer (Disk.asks question) tree = question tree :=
  rfl

namespace Looks

variable {α β : Type} {tree : FileTree}

/-- A program that changes nothing gives its answer and the tree that it began on. -/
theorem gives {program : StateM Disk α} (h : Looks program) (tree : FileTree) :
    Gives program tree.disk (answer program tree) tree.disk :=
  Prod.ext rfl (h tree)

/-- Behind a program that changes nothing, the next one answers from the same tree. -/
theorem answer_bind {program : StateM Disk α} (h : Looks program) (next : α → StateM Disk β) :
    answer (program >>= next) tree = answer (next (answer program tree)) tree := by
  change ((next (program.run tree.disk).1).run (program.run tree.disk).2).1 = _
  rw [h tree]
  rfl

/-- Where no element changes anything, each of them is answered from the same tree. -/
theorem answer_mapM {f : α → StateM Disk β} (h : ∀ a, Looks (f a)) (elements : List α) :
    answer (elements.mapM f) tree = elements.map fun a => answer (f a) tree := by
  induction elements with
  | nil => rfl
  | cons a elements ih =>
    rw [List.mapM_cons, answer_bind (h a), answer_bind (.mapM h elements), ih, List.map_cons]
    rfl

/-- Where no test changes anything, each element is tested on the same tree. -/
theorem answer_filterM {f : α → StateM Disk Bool} (h : ∀ a, Looks (f a)) (elements : List α) :
    answer (elements.filterM f) tree = elements.filter fun a => answer (f a) tree := by
  have hkept : ∀ kept, Looks (List.filterAuxM f elements kept) ∧
      answer (List.filterAuxM f elements kept) tree =
        (elements.filter fun a => answer (f a) tree).reverse ++ kept := by
    induction elements with
    | nil => exact fun kept => ⟨.pure kept, rfl⟩
    | cons a elements ih =>
      refine fun kept => ⟨.bind (h a) fun fits => (ih _).1, ?_⟩
      rw [List.filterAuxM, answer_bind (h a), (ih _).2]
      cases hfits : answer (f a) tree <;> simp [hfits]
  rw [List.filterM, answer_bind (hkept []).1, (hkept []).2, List.append_nil]
  exact List.reverse_reverse _

end Looks

namespace FileTree

variable (cwd : Place) (path : Path)

/-- A path is said to lead to a directory exactly if it does. -/
theorem answer_isDirectory (tree : FileTree) :
    answer ((Disk.storage cwd).isDirectory path) tree = true ↔
    ∃ place, tree.DirectoryAt cwd path place := by
  change decide (((tree.find? cwd .through path).map fun found => found.2.kind) = some .directory) =
    true ↔ _
  rw [decide_eq_true_eq, Option.map_eq_some_iff]
  constructor
  · rintro ⟨⟨place, entry⟩, hfound, hkind⟩
    cases entry with
    | directory => exact ⟨place, hfound⟩
    | file content => contradiction
    | link goal => contradiction
  · exact fun ⟨place, hfound⟩ => ⟨_, hfound, rfl⟩

/-- A path is said to lead to a regular file exactly if it does. -/
theorem answer_isFile (tree : FileTree) : answer ((Disk.storage cwd).isFile path) tree = true ↔
    ∃ place, tree.FileAt cwd path place := by
  change decide (((tree.find? cwd .through path).map fun found => found.2.kind) = some .file) =
    true ↔ _
  rw [decide_eq_true_eq, Option.map_eq_some_iff]
  constructor
  · rintro ⟨⟨place, entry⟩, hfound, hkind⟩
    cases entry with
    | directory => contradiction
    | file content => exact ⟨place, content, hfound⟩
    | link goal => contradiction
  · exact fun ⟨place, content, hfound⟩ => ⟨_, hfound, rfl⟩

end FileTree

namespace Glob

/-! ## Where steps lead -/

/-- Whether a name is there behind a path. Dots are where there is a directory. -/
def IsThere (tree : FileTree) (cwd : Place) (path : Path) (name : String) : Prop :=
  if name = "." ∨ name = ".." then ∃ place, tree.DirectoryAt cwd path place
  else tree.find? cwd .unlessSlash (stepTo path name) ≠ none

/-- Where steps lead from a path on a file tree. -/
inductive Leads (tree : FileTree) (cwd : Place) : List Step → Path → Path → Prop
  | done (path : Path) : Leads tree cwd [] path path
  | literal {name : String} {rest : List Step} {path found : Path}
      (hthere : IsThere tree cwd path name)
      (h : Leads tree cwd rest (stepTo path name) found) :
      Leads tree cwd (.literal name :: rest) path found
  | name {tokens : List Token} {rest : List Step} {path found : Path}
      {place : Place} {name : String}
      (hplace : tree.DirectoryAt cwd path place) (hname : name ∈ tree.names place)
      (hfits : fits tokens name.toList = true) (h : Leads tree cwd rest (stepTo path name) found) :
      Leads tree cwd (.pattern tokens :: rest) path found
  | dots {tokens : List Token} {rest : List Step} {path found : Path}
      {place : Place} {name : String}
      (hplace : tree.DirectoryAt cwd path place) (hname : name ∈ dots tokens)
      (h : Leads tree cwd rest (path.join ⟨name⟩) found) :
      Leads tree cwd (.pattern tokens :: rest) path found
  | deep {path : Path} {place inner : Place} {names : List String}
      (hplace : tree.DirectoryAt cwd path place)
      (hnames : names ∈ tree.below place)
      (hinner : tree.DirectoryAt cwd (names.foldl stepTo path) inner) :
      Leads tree cwd [.anyDepth] path (names.foldl stepTo path)
  | deeper {step : Step} {rest : List Step} {path found : Path} {place : Place}
      {names : List String} {last : String}
      (hplace : tree.DirectoryAt cwd path place) (hnames : names ∈ tree.below place)
      (hlast : names.getLast? = some last) (hadmits : step.admits last = true)
      (h : Leads tree cwd rest (names.foldl stepTo path) found) :
      Leads tree cwd (.anyDepth :: step :: rest) path found

variable {tree : FileTree} {cwd : Place} {path found : Path}

/-- The place of a directory is where its names are looked up. -/
theorem answer_names {place : Place} (h : tree.DirectoryAt cwd path place) :
    answer ((Disk.storage cwd).names path) tree = tree.names place := by
  rw [FileTree.DirectoryAt] at h
  simp only [Disk.storage, answer_asks, h]

/-- The place of a directory is where everything below it is looked up. -/
theorem answer_below {place : Place} (h : tree.DirectoryAt cwd path place) :
    answer ((Disk.storage cwd).below path) tree = tree.below place := by
  rw [FileTree.DirectoryAt] at h
  simp only [Disk.storage, answer_asks, h]

/-- Where a program asks for a directory first, it goes on only with one. -/
theorem mem_answer_in_directory_iff {next : StateM Disk (List Path)} :
    found ∈ answer (do if ← (Disk.storage cwd).isDirectory path then next else return []) tree ↔
      ∃ place, tree.DirectoryAt cwd path place ∧ found ∈ answer next tree := by
  rw [@Looks.answer_bind _ _ _ ((Disk.storage cwd).isDirectory path) (fun _ => rfl)]
  have hdirectory := FileTree.answer_isDirectory cwd path tree
  cases hanswer : answer ((Disk.storage cwd).isDirectory path) tree with
  | true =>
    obtain ⟨place, hplace⟩ := hdirectory.mp hanswer
    exact ⟨fun h => ⟨place, hplace, h⟩, fun ⟨_, _, h⟩ => h⟩
  | false =>
    refine iff_of_false List.not_mem_nil fun ⟨place, hplace, _⟩ => ?_
    exact Bool.noConfusion (hanswer.symm.trans (hdirectory.mpr ⟨place, hplace⟩))

/-- From several paths, steps lead to what they lead to from each of them. -/
theorem answer_flatten_expand (rest : List Step) (next : List Path) :
    answer (do return (← next.mapM (expand (Disk.storage cwd) rest)).flatten) tree =
      next.flatMap fun path => answer (expand (Disk.storage cwd) rest path) tree := by
  rw [Looks.answer_bind (.mapM (looks_expand cwd rest) next),
    Looks.answer_mapM (looks_expand cwd rest)]
  rfl

section Steps

variable {rest : List Step}

/-- A step along a name finds what the rest finds behind the name, if that is there. -/
theorem mem_expand_literal_iff {name : String} :
    found ∈ answer (expand (Disk.storage cwd) (.literal name :: rest) path) tree ↔
      IsThere tree cwd path name ∧
      found ∈ answer (expand (Disk.storage cwd) rest (stepTo path name)) tree := by
  have hmem (isThere : Bool) (h : isThere = true ↔ IsThere tree cwd path name) :
      found ∈ answer (if isThere = true then expand (Disk.storage cwd) rest (stepTo path name)
        else pure []) tree ↔
        IsThere tree cwd path name ∧
        found ∈ answer (expand (Disk.storage cwd) rest (stepTo path name)) tree := by
    rw [← h]
    cases isThere with
    | true => simp
    | false => exact iff_of_false List.not_mem_nil (by simp)
  rw [expand]
  dsimp only
  by_cases hdots : name = "." ∨ name = ".."
  · rw [if_pos (by simpa using hdots),
      @Looks.answer_bind _ _ _ ((Disk.storage cwd).isDirectory path) (fun _ => rfl)]
    refine hmem _ ?_
    rw [FileTree.answer_isDirectory, IsThere, if_pos hdots]
  · rw [if_neg (by simpa using hdots), @Looks.answer_bind _ _ _
      (Except.isOk <$> ((Disk.storage cwd).ownKind (stepTo path name)).run) (fun _ => rfl)]
    refine hmem _ ?_
    change ((tree.lookAt cwd (stepTo path name)).map Prod.snd).isOk = true ↔ _
    rw [IsThere, if_neg hdots]
    rcases tree.lookAt_cases cwd (stepTo path name) with ⟨place, entry, hfound, hseen⟩ |
      ⟨hnone, obstacle, hseen⟩
    · rw [hseen, hfound]
      exact iff_of_true rfl (Option.some_ne_none _)
    · rw [hseen, hnone]
      exact iff_of_false Bool.false_ne_true (fun hne => hne rfl)

/-- A step along a pattern finds what the rest finds behind the names and dots that fit it. -/
theorem mem_expand_pattern_iff {tokens : List Token} :
    found ∈ answer (expand (Disk.storage cwd) (.pattern tokens :: rest) path) tree ↔
      ∃ place, tree.DirectoryAt cwd path place ∧
        ((∃ name ∈ tree.names place, fits tokens name.toList = true ∧
            found ∈ answer (expand (Disk.storage cwd) rest (stepTo path name)) tree) ∨
          ∃ name ∈ dots tokens, found ∈
            answer (expand (Disk.storage cwd) rest (path.join ⟨name⟩)) tree) := by
  rw [expand, mem_answer_in_directory_iff]
  refine exists_congr fun place => and_congr_right fun hplace => ?_
  rw [@Looks.answer_bind _ _ _ ((Disk.storage cwd).names path) (fun _ => rfl), answer_names hplace,
    answer_flatten_expand, List.flatMap_append, List.mem_append, List.flatMap_map, List.flatMap_map]
  simp only [List.mem_flatMap, List.mem_filter, and_assoc]

/-- Any depth at the end finds the directories below. -/
theorem mem_expand_anyDepth_iff :
    found ∈ answer (expand (Disk.storage cwd) [.anyDepth] path) tree ↔
      ∃ place, tree.DirectoryAt cwd path place ∧ ∃ names ∈ tree.below place,
        (∃ inner, tree.DirectoryAt cwd (names.foldl stepTo path) inner) ∧
          names.foldl stepTo path = found := by
  rw [expand, mem_answer_in_directory_iff]
  refine exists_congr fun place => and_congr_right fun hplace => ?_
  rw [@Looks.answer_bind _ _ _ ((Disk.storage cwd).below path) (fun _ => rfl), answer_below hplace,
    Looks.answer_filterM fun _ _ => rfl, List.mem_filter, List.mem_map, FileTree.answer_isDirectory]
  constructor
  · rintro ⟨⟨names, hnames, rfl⟩, hinner⟩
    exact ⟨names, hnames, hinner, rfl⟩
  · rintro ⟨names, hnames, hinner, rfl⟩
    exact ⟨⟨names, hnames, rfl⟩, hinner⟩

/-- Any depth in front of a step finds what the rest finds behind everything below that the step
admits. -/
theorem mem_expand_anyDepth_cons_iff {step : Step} :
    found ∈ answer (expand (Disk.storage cwd) (.anyDepth :: step :: rest) path) tree ↔
      ∃ place, tree.DirectoryAt cwd path place ∧ ∃ names ∈ tree.below place,
        (∃ last, names.getLast? = some last ∧ step.admits last = true) ∧
          found ∈ answer (expand (Disk.storage cwd) rest (names.foldl stepTo path)) tree := by
  have hlast (names : List String) : (names.getLast?.map step.admits).getD false = true ↔
      ∃ last, names.getLast? = some last ∧ step.admits last = true := by
    cases names.getLast? <;> simp
  rw [expand, mem_answer_in_directory_iff]
  refine exists_congr fun place => and_congr_right fun hplace => ?_
  rw [@Looks.answer_bind _ _ _ ((Disk.storage cwd).below path) (fun _ => rfl), answer_below hplace,
    answer_flatten_expand, List.flatMap_map]
  simp only [List.mem_flatMap, List.mem_filter, and_assoc, hlast]

end Steps

/-- Expanding some steps gives the paths that they lead to. -/
theorem mem_expand_iff : ∀ (steps : List Step) (path : Path),
    found ∈ answer (expand (Disk.storage cwd) steps path) tree ↔ Leads tree cwd steps path found
  | [], path => by
    refine List.mem_singleton.trans ⟨?_, ?_⟩
    · rintro rfl
      exact .done _
    · rintro ⟨⟩
      rfl
  | .literal name :: rest, path => by
    rw [mem_expand_literal_iff, mem_expand_iff rest]
    constructor
    · rintro ⟨hthere, h⟩
      exact .literal hthere h
    · intro h
      cases h with
      | literal hthere h => exact ⟨hthere, h⟩
  | .pattern tokens :: rest, path => by
    simp only [mem_expand_pattern_iff, mem_expand_iff rest]
    constructor
    · rintro ⟨place, hplace, ⟨name, hname, hfits, h⟩ | ⟨name, hname, h⟩⟩
      · exact .name hplace hname hfits h
      · exact .dots hplace hname h
    · intro h
      cases h with
      | name hplace hname hfits h => exact ⟨_, hplace, .inl ⟨_, hname, hfits, h⟩⟩
      | dots hplace hname h => exact ⟨_, hplace, .inr ⟨_, hname, h⟩⟩
  | [.anyDepth], path => by
    rw [mem_expand_anyDepth_iff]
    constructor
    · rintro ⟨place, hplace, names, hnames, ⟨inner, hinner⟩, rfl⟩
      exact .deep hplace hnames hinner
    · intro h
      cases h with
      | deep hplace hnames hinner => exact ⟨_, hplace, _, hnames, ⟨_, hinner⟩, rfl⟩
  | .anyDepth :: step :: rest, path => by
    simp only [mem_expand_anyDepth_cons_iff, mem_expand_iff rest]
    constructor
    · rintro ⟨place, hplace, names, hnames, ⟨last, hlast, hadmits⟩, h⟩
      exact .deeper hplace hnames hlast hadmits h
    · intro h
      cases h with
      | deeper hplace hnames hlast hadmits h => exact ⟨_, hplace, _, hnames, ⟨_, hlast, hadmits⟩, h⟩

/-- A step along a name leads to what has the name. -/
theorem leads_name {tree : FileTree} {path next : Path} {name : String} {rest : List Step}
    {entry : Place × Entry} (hname : name ≠ "." ∧ name ≠ "..") (hnext : stepTo path name = next)
    (hthere : tree.find? cwd .unlessSlash next = some entry) (h : Leads tree cwd rest next found) :
    Leads tree cwd (.literal name :: rest) path found := by
  subst hnext
  refine .literal ?_ h
  rw [IsThere, if_neg (not_or.mpr hname), hthere]
  exact Option.some_ne_none entry

/-! ## Finding -/

/-- Whether a glob finds a path on a file tree. -/
structure Finds (tree : FileTree) (cwd : Place) (glob : Glob) (path : Path) : Prop where
  steps_ne : glob.steps ≠ []
  leads : Leads tree cwd glob.steps ⟨if glob.absolute then "/" else "."⟩ path
  directory : glob.directoriesOnly = true → ∃ place, tree.DirectoryAt cwd path place

/-- The answer of a glob is what it finds on the tree. -/
theorem mem_find_iff (glob : Glob) :
    found ∈ answer (glob.find (Disk.storage cwd)) tree ↔ Finds tree cwd glob found := by
  by_cases hsteps : glob.steps = []
  · rw [find, if_pos (by simp [hsteps])]
    exact iff_of_false List.not_mem_nil fun h => h.steps_ne hsteps
  · rw [find, if_neg (by simp [hsteps]), Looks.answer_bind (looks_expand cwd _ _)]
    by_cases honly : glob.directoriesOnly = true
    · rw [if_pos honly, Looks.answer_filterM fun _ _ => rfl, List.mem_filter, mem_expand_iff,
        FileTree.answer_isDirectory]
      constructor
      · rintro ⟨hleads, hdirectory⟩
        exact ⟨hsteps, hleads, fun _ => hdirectory⟩
      · exact fun h => ⟨h.leads, h.directory honly⟩
    · rw [if_neg honly]
      refine Iff.trans (mem_expand_iff _ _)
        ⟨fun h => ⟨hsteps, h, fun h => absurd h honly⟩, Finds.leads⟩

end Glob

end SchemaBindings
