import SchemaBindings.Proofs.Glob.Finding
import SchemaBindings.Proofs.Path.Landing

/-!
# Level steps

Steps are level if none of them can lead to two dots. Level steps lead from a path down along names,
whatever is in the tree. So of the files that level steps lead to from one path, no two are the same
unless their paths have the same components.
-/

namespace SchemaBindings

open SchemaBindings.FileTree (IsName goal moveTo reach)

namespace Path

/-! ## Going down -/

/-- Whether a path leads nowhere else if a dot is its first piece. -/
def Undotted (path : Path) : Prop :=
  path.pieces.head? = some "." → path.moves = []

/-- Whether a path goes on from another one along names. -/
structure Descends (base path : Path) : Prop where
  isAbsolute_eq : path.isAbsolute = base.isAbsolute
  moves_eq : ∃ names, ".." ∉ names ∧ path.moves = base.moves ++ names
  undotted : base.Undotted → path.Undotted

/-- A path descends from itself. -/
theorem Descends.refl (path : Path) : Descends path path :=
  ⟨rfl, ⟨[], List.not_mem_nil, (List.append_nil _).symm⟩, id⟩

/-- A path that descends from one that descends from a third one descends from the third one. -/
theorem Descends.trans {base between path : Path} (hfirst : Descends base between)
    (hsecond : Descends between path) :
    Descends base path := by
  obtain ⟨names, hnames, hbetween⟩ := hfirst.moves_eq
  obtain ⟨more, hmore, hpath⟩ := hsecond.moves_eq
  refine ⟨hsecond.isAbsolute_eq.trans hfirst.isAbsolute_eq, ⟨names ++ more, ?_, ?_⟩,
    hsecond.undotted ∘ hfirst.undotted⟩
  · rw [List.mem_append, not_or]
    exact ⟨hnames, hmore⟩
  · rw [hpath, hbetween, List.append_assoc]

/-- A path that starts with a dot has the dot and its moves as components. -/
theorem components_of_dot {path : Path} (h : path.pieces.head? = some ".") :
    path.components = .here :: path.moves.map meaning := by
  obtain ⟨rest, hpieces⟩ := List.head?_eq_some_iff.mp h
  have hhere : Component.here ∈ path.components := (mem_components_iff hpieces _).mpr (.inl rfl)
  have hmeaning : Component.here ∉ path.moves.map meaning := by
    intro hmem
    obtain ⟨move, -, hmove⟩ := List.mem_map.mp hmem
    unfold meaning at hmove
    split at hmove <;> contradiction
  rcases path.components_cases with ⟨-, hroot⟩ | ⟨-, hnames | hdot⟩
  · rw [hroot, List.mem_cons] at hhere
    rcases hhere with h | h
    · contradiction
    · exact absurd h hmeaning
  · exact absurd (hnames ▸ hhere) hmeaning
  · exact hdot

/-- A path that makes moves and is undotted has nothing but them as components, behind the root if
it starts there. -/
theorem components_of_undotted {path : Path} (hundotted : path.Undotted)
    (hmoves : path.moves ≠ []) :
    path.components = (if path.isAbsolute then [.root] else []) ++ path.moves.map meaning := by
  rcases path.components_cases with ⟨habsolute, h⟩ | ⟨habsolute, h | h⟩
  · rw [h, habsolute]
    rfl
  · rw [h, habsolute]
    rfl
  · obtain ⟨first, rest, hpieces⟩ := List.exists_cons_of_ne_nil path.pieces_ne_nil
    have hhere : Component.here ∈ path.components := h ▸ List.mem_cons_self
    rcases (mem_components_iff hpieces _).mp hhere with hfirst | ⟨piece, -, hinner⟩
    · have hdot : first = "." := by
        unfold Part.first Part.inner at hfirst
        split_ifs at hfirst <;> simp_all
      exact absurd (hundotted (by rw [hpieces, hdot, List.head?_cons])) hmoves
    · rw [component?_inner] at hinner
      unfold meaning at hinner
      split_ifs at hinner <;> simp at hinner

/-- The moves of a path that a piece is joined to. -/
theorem moves_join_piece (base : Path) {piece : String} (hslash : '/' ∉ piece.toList) :
    (base.join ⟨piece⟩).moves = base.moves ++ movesOf [piece] := by
  rw [moves, pieces_join base (isAbsolute_of_no_slash hslash), pieces_of_no_slash hslash,
    movesOf_append, movesOf_front]

/-- An undotted path stays so with a piece joined to it, if the piece leads nowhere else behind a
dot. -/
theorem undotted_join {base : Path} (hbase : base.Undotted) {piece : String}
    (hslash : '/' ∉ piece.toList) (hdotted : base.pieces.head? = some "." → blank piece = true) :
    (base.join ⟨piece⟩).Undotted := by
  intro hhead
  rw [pieces_join base (isAbsolute_of_no_slash hslash), pieces_of_no_slash hslash] at hhead
  rw [base.moves_join_piece hslash]
  cases hfront : base.front with
  | nil =>
    have hmoves : base.moves = [] := by
      rw [← movesOf_front, hfront, movesOf_nil]
    rw [hfront] at hhead
    obtain rfl : piece = "." := by simpa using hhead
    rw [hmoves, movesOf_cons_blank (by decide)]
    rfl
  | cons first others =>
    rw [hfront] at hhead
    have hdot : base.pieces.head? = some "." := by
      rcases base.pieces_eq_front with h | h <;> rw [h, hfront] <;> exact hhead
    rw [hbase hdot, movesOf_cons_blank (hdotted hdot)]
    rfl

/-- A piece that does not step up makes no move up. -/
theorem up_not_mem_movesOf {piece : String} (hup : piece ≠ "..") : ".." ∉ movesOf [piece] :=
  fun hmem => hup (List.mem_singleton.mp (List.mem_of_mem_filter hmem)).symm

/-- A piece that is no step up leads down. -/
theorem descends_join {base : Path} {piece : String} (hslash : '/' ∉ piece.toList)
    (hup : piece ≠ "..")
    (hdotted : base.Undotted → base.pieces.head? = some "." → blank piece = true) :
    Descends base (base.join ⟨piece⟩) := by
  have hmoves := base.moves_join_piece hslash
  exact ⟨base.isAbsolute_join (isAbsolute_of_no_slash hslash),
    ⟨movesOf [piece], up_not_mem_movesOf hup, hmoves⟩,
    fun hbase => undotted_join hbase hslash (hdotted hbase)⟩

end Path

namespace Glob

open SchemaBindings.Path (Descends Undotted blank movesOf)

/-! ## One step -/

/-- Behind the working directory alone, a step starts anew. -/
theorem start_of_components_eq {path : Path} (h : path.components = [.here]) :
    path.isAbsolute = false ∧ path.moves = [] := by
  rcases path.components_cases with ⟨-, hroot⟩ | ⟨hrelative, hnames | hdot⟩
  · simp [h] at hroot
  · rw [h] at hnames
    obtain ⟨move, -, hmove⟩ := List.map_eq_singleton_iff.mp hnames.symm
    unfold Path.meaning at hmove
    split at hmove <;> simp at hmove
  · rw [h, List.cons.injEq] at hdot
    exact ⟨hrelative, List.map_eq_nil_iff.mp hdot.2.symm⟩

/-- A dot in front of moves is more than the working directory. -/
theorem not_dotted_of_components_ne {path : Path} (h : path.components ≠ [.here])
    (hundotted : path.Undotted) :
    path.pieces.head? ≠ some "." := by
  intro hdot
  refine h ?_
  rw [Path.components_of_dot hdot, hundotted hdot]
  rfl

/-- Steps keep paths undotted. -/
theorem undotted_stepTo {path : Path} (hpath : path.Undotted) {name : String}
    (hslash : '/' ∉ name.toList) :
    (stepTo path name).Undotted := by
  unfold stepTo
  split
  · intro hhead
    rw [Path.pieces_of_no_slash hslash, List.head?_cons, Option.some.injEq] at hhead
    rw [Path.moves, hhead]
    decide
  · next hne =>
    exact Path.undotted_join hpath hslash
      fun hdot => absurd hdot (not_dotted_of_components_ne hne hpath)

/-- A step that is no step up leads down. -/
theorem descends_stepTo (path : Path) {name : String} (hslash : '/' ∉ name.toList)
    (hup : name ≠ "..") :
    Descends path (stepTo path name) := by
  refine ⟨?_, ⟨movesOf [name], Path.up_not_mem_movesOf hup, ?_⟩,
    fun hpath => undotted_stepTo hpath hslash⟩
  · unfold stepTo
    split
    · next h => rw [(start_of_components_eq h).1, Path.isAbsolute_of_no_slash hslash]
    · exact path.isAbsolute_join (Path.isAbsolute_of_no_slash hslash)
  · unfold stepTo
    split
    · next h => rw [(start_of_components_eq h).2, Path.moves, Path.pieces_of_no_slash hslash,
        List.nil_append]
    · exact path.moves_join_piece hslash

/-! ## Level steps -/

/-- Whether a step may lead to two dots. -/
def Step.Climbs : Step → Prop
  | .literal name => name = ".."
  | .pattern tokens => ".." ∈ dots tokens
  | .anyDepth => False

instance (step : Step) : Decidable step.Climbs :=
  match step with
  | .literal name => inferInstanceAs (Decidable (name = ".."))
  | .pattern tokens => inferInstanceAs (Decidable (".." ∈ dots tokens))
  | .anyDepth => inferInstanceAs (Decidable False)

/-- Whether the text of a step, if it has one, is a single piece. -/
def Step.IsPiece : Step → Prop
  | .literal name => '/' ∉ name.toList
  | _ => True

variable {tree : FileTree} {cwd : Place} {path found : Path}

/-- Names lead down. -/
theorem descends_foldl_stepTo {names : List String} (hnames : ∀ name ∈ names, IsName name)
    (path : Path) :
    Descends path (names.foldl stepTo path) := by
  induction names generalizing path with
  | nil => exact .refl path
  | cons name names ih =>
    rw [List.forall_mem_cons] at hnames
    exact (descends_stepTo path hnames.1.no_slash hnames.1.ne_dots).trans (ih hnames.2 _)

/-- Level steps lead down along names. -/
theorem Leads.descends (hnamed : tree.Named) {steps : List Step}
    (hpieces : ∀ step ∈ steps, step.IsPiece) (hlevel : ∀ step ∈ steps, ¬ step.Climbs)
    (h : Leads tree cwd steps path found) : Descends path found := by
  induction h with
  | done path => exact .refl path
  | @literal name rest path found _ _ ih =>
    rw [List.forall_mem_cons] at hpieces hlevel
    exact (descends_stepTo path hpieces.1 hlevel.1).trans (ih hpieces.2 hlevel.2)
  | @name tokens rest path found place name _ hname _ _ ih =>
    rw [List.forall_mem_cons] at hpieces hlevel
    have hisName := hnamed.isName_of_mem_names hname
    exact (descends_stepTo path hisName.no_slash hisName.ne_dots).trans (ih hpieces.2 hlevel.2)
  | @dots tokens rest path found place name _ hname _ ih =>
    rw [List.forall_mem_cons] at hpieces hlevel
    have hdot : name = "." := by
      have hdots : name = "." ∨ name = ".." := by
        unfold Glob.dots at hname
        split at hname
        · simpa using List.mem_of_mem_filter hname
        · simp at hname
      exact hdots.resolve_right fun hup => hlevel.1 (show ".." ∈ Glob.dots tokens from hup ▸ hname)
    obtain rfl := hdot
    exact (Path.descends_join (by decide) (by decide) fun _ _ => rfl).trans (ih hpieces.2 hlevel.2)
  | deep _ hnames _ => exact descends_foldl_stepTo (hnamed.isName_of_mem_below hnames) _
  | deeper _ hnames _ _ _ ih =>
    rw [List.forall_mem_cons, List.forall_mem_cons] at hpieces hlevel
    exact (descends_foldl_stepTo (hnamed.isName_of_mem_below hnames) _).trans
      (ih hpieces.2.2 hlevel.2.2)

/-! ## Files -/

/-- Moves without a step up lead down along themselves. -/
theorem reach_names {names : List String} (h : ".." ∉ names) (place : Place) :
    reach place names = place ++ names := by
  induction names generalizing place with
  | nil => exact (List.append_nil place).symm
  | cons name names ih =>
    rw [List.mem_cons, not_or] at h
    rw [reach, List.foldl_cons, ← reach, FileTree.moveTo_name (Ne.symm h.1),
      ih h.2, List.append_assoc]
    rfl

/-- Paths that go down from one path to one file have the same components. -/
theorem components_eq_of_sameFile (hlinks : tree.LinkFree) {base other : Path}
    (hbase : base.Undotted) (hpath : Descends base path) (hother : Descends base other)
    (h : tree.SameFile cwd path other) :
    path.components = other.components := by
  obtain ⟨place, hfile, hotherfile⟩ := h
  obtain ⟨names, hnames, hmoves⟩ := hpath.moves_eq
  obtain ⟨more, hmore, hothermoves⟩ := hother.moves_eq
  have hgoals : goal cwd path = goal cwd other :=
    (hlinks.eq_goal hfile).symm.trans (hlinks.eq_goal hotherfile)
  have habsolute : path.isAbsolute = other.isAbsolute :=
    hpath.isAbsolute_eq.trans hother.isAbsolute_eq.symm
  have hsame : path.moves = other.moves := by
    have hfront (names : List String) (place : Place) : reach place (base.moves ++ names) =
        reach (reach place base.moves) names := List.foldl_append ..
    rw [goal, goal, FileTree.start, FileTree.start, habsolute, hmoves, hothermoves, hfront,
      hfront, reach_names hnames, reach_names hmore, List.append_cancel_left_eq] at hgoals
    rw [hmoves, hothermoves, hgoals]
  rw [Path.components_of_undotted (hpath.undotted hbase) hfile.moves_ne_nil,
    Path.components_of_undotted (hother.undotted hbase) hotherfile.moves_ne_nil, habsolute, hsame]

end Glob

end SchemaBindings
