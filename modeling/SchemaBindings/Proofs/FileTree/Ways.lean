import SchemaBindings.Proofs.FileTree.Changes
import SchemaBindings.Proofs.Path.Moves

/-!
# The way of a path

A path leads through places, whatever is there: a name leads below a place and two dots back above
it. As far as these places are directories a walk passes through them, and where one of them is
something else it stops.
-/

namespace SchemaBindings.FileTree

open SchemaBindings.Path (blank movesOf)

/-! ## Places on the way -/

/-- The place that a move leads to. -/
def moveTo (place : Place) (move : String) : Place :=
  if move = ".." then place.dropLast else place ++ [move]

/-- The place that moves lead to in the end. -/
def reach (place : Place) (moves : List String) : Place :=
  moves.foldl moveTo place

/-- The places that moves lead to, one after the other. -/
def passed (place : Place) : List String → List Place
  | [] => []
  | move :: rest => moveTo place move :: passed (moveTo place move) rest

/-- The place that a path leads to. -/
def goal (cwd : Place) (path : Path) : Place :=
  reach (start cwd path) path.moves

/-- The places that a path leads through, its goal included. -/
def way (cwd : Place) (path : Path) : List Place :=
  passed (start cwd path) path.moves

/-- A move that does not step up goes to an entry of the directory. -/
theorem moveTo_name {move : String} (h : move ≠ "..") (place : Place) :
    moveTo place move = place ++ [move] :=
  if_neg h

/-- Moves reach what their last one reaches from where the others lead. -/
theorem reach_concat (place : Place) (moves : List String) (last : String) :
    reach place (moves ++ [last]) = moveTo (reach place moves) last := by
  rw [reach, List.foldl_append]
  rfl

/-- Moves pass what the first ones pass, and what the others pass from there on. -/
theorem passed_append (place : Place) (moves more : List String) :
    passed place (moves ++ more) = passed place moves ++ passed (reach place moves) more := by
  induction moves generalizing place with
  | nil => rfl
  | cons move moves ih => rw [List.cons_append, passed, passed, ih, List.cons_append]; rfl

/-- Moves pass what all but the last one pass, and where the last one leads. -/
theorem passed_concat (place : Place) (moves : List String) (last : String) :
    passed place (moves ++ [last]) = passed place moves ++ [moveTo (reach place moves) last] :=
  passed_append place moves [last]

/-- The goal of a path is on its way, unless the path goes nowhere. -/
theorem goal_mem_way (cwd : Place) (path : Path) :
    goal cwd path ∈ way cwd path ∨ goal cwd path = start cwd path := by
  rcases List.eq_nil_or_concat path.moves with hnil | ⟨moves, last, hmoves⟩
  · exact .inr (by rw [goal, hnil, reach, List.foldl_nil])
  · rw [List.concat_eq_append] at hmoves
    exact .inl (by rw [goal, way, hmoves, passed_concat, reach_concat]; simp)

/-- Moves through directories lead to a directory. -/
theorem directory_reach {tree : FileTree} {place : Place} {moves : List String}
    (hplace : tree.entryAt? place = some .directory)
    (h : ∀ stop ∈ passed place moves, tree.entryAt? stop = some .directory) :
    tree.entryAt? (reach place moves) = some .directory := by
  induction moves generalizing place with
  | nil => exact hplace
  | cons move moves ih =>
    exact ih (h _ List.mem_cons_self) fun stop hstop => h stop (List.mem_cons_of_mem _ hstop)

/-- The names of a place on the way are names of the place where it starts, or moves. -/
theorem mem_of_mem_passed {place stop : Place} {moves : List String} {name : String}
    (hstop : stop ∈ passed place moves) (hname : name ∈ stop) : name ∈ place ∨ name ∈ moves := by
  induction moves generalizing place with
  | nil => simp [passed] at hstop
  | cons move moves ih =>
    have hmove : name ∈ moveTo place move → name ∈ place ∨ name = move := by
      unfold moveTo
      split
      · exact fun h => .inl (List.mem_of_mem_dropLast h)
      · simp
    rw [passed, List.mem_cons] at hstop
    rcases hstop with rfl | hstop
    · exact (hmove hname).imp_right fun hsame => by simp [hsame]
    · rcases ih hstop with hplace | hmoves
      · exact (hmove hplace).imp_right fun hsame => by simp [hsame]
      · exact .inr (List.mem_cons_of_mem _ hmoves)

/-! ## Walks along the way -/

variable {tree : FileTree} {last : LastLink} {links : Nat} {place : Place}

/-- A walk passes through directories. -/
theorem walkFrom_passed {pieces : List String} (rest : List String)
    (h : ∀ stop ∈ passed place (movesOf pieces), tree.entryAt? stop = some .directory) :
    tree.walkFrom last links place (pieces ++ rest) =
      tree.walkFrom last links (reach place (movesOf pieces)) rest := by
  induction pieces generalizing place with
  | nil => rfl
  | cons piece pieces ih =>
    rw [List.cons_append, walkFrom]
    cases hblank : blank piece with
    | true =>
      rw [Path.movesOf_cons_blank hblank] at h ⊢
      rw [if_pos ((Path.blank_iff piece).mp hblank)]
      exact ih h
    | false =>
      have hmove : ¬(piece = "" ∨ piece = ".") :=
        fun hor => by simp [(Path.blank_iff piece).mpr hor] at hblank
      rw [Path.movesOf_cons_move hblank] at h ⊢
      have hrest := ih fun stop hstop => h stop (List.mem_cons_of_mem _ hstop)
      have hstop := h _ List.mem_cons_self
      rw [if_neg hmove]
      unfold moveTo at hrest hstop
      by_cases hup : piece = ".."
      · rw [if_pos hup] at hrest ⊢
        rw [hrest, reach, reach, List.foldl_cons, moveTo, if_pos hup]
      · rw [if_neg hup] at hrest hstop ⊢
        rw [hstop, reach, List.foldl_cons, moveTo_name hup]
        exact hrest

/-- A walk that does not end in front of a place that is no directory stops there. -/
theorem walkFrom_blocked {pieces rest : List String} (hrest : ¬ rest.all String.isEmpty = true)
    (h : ¬ ∀ stop ∈ passed place (movesOf pieces), tree.entryAt? stop = some .directory)
    (hgrounded : tree.Grounded) (hplace : tree.entryAt? place = some .directory) :
    ∃ stop ∈ passed place (movesOf pieces),
      (tree.entryAt? stop = none ∧ tree.walkFrom last links place (pieces ++ rest) =
        .error .missing) ∨
      (∃ content, tree.entryAt? stop = some (.file content) ∧
        tree.walkFrom last links place (pieces ++ rest) = .error .notDirectory) ∨
      ∃ goal, tree.entryAt? stop = some (.link goal) := by
  induction pieces generalizing place with
  | nil => simp [passed] at h
  | cons piece pieces ih =>
    rw [List.cons_append, walkFrom]
    cases hblank : blank piece with
    | true =>
      rw [Path.movesOf_cons_blank hblank] at h ⊢
      rw [if_pos ((Path.blank_iff piece).mp hblank)]
      exact ih h hplace
    | false =>
      have hmove : ¬(piece = "" ∨ piece = ".") :=
        fun hor => by simp [(Path.blank_iff piece).mpr hor] at hblank
      rw [Path.movesOf_cons_move hblank] at h ⊢
      have hbehind : ¬ (pieces ++ rest).all String.isEmpty = true := by
        rw [List.all_append, Bool.and_eq_true]
        exact fun hall => hrest hall.2
      have hnext (hstop : tree.entryAt? (moveTo place piece) = some .directory) := @ih
        (moveTo place piece) (fun hall => h (List.forall_mem_cons.mpr ⟨hstop, hall⟩)) hstop
      rw [if_neg hmove]
      unfold moveTo at hnext
      by_cases hup : piece = ".."
      · rw [if_pos hup] at hnext ⊢
        obtain ⟨stop, hstop, hcases⟩ := hnext (hgrounded.directory_dropLast (by simp [hplace]))
        refine ⟨stop, ?_, hcases⟩
        rw [passed, moveTo, if_pos hup]
        exact List.mem_cons_of_mem _ hstop
      · rw [if_neg hup] at hnext ⊢
        rw [passed, moveTo_name hup]
        cases hentry : tree.entryAt? (place ++ [piece]) with
        | none =>
          refine ⟨_, List.mem_cons_self, .inl ⟨hentry, ?_⟩⟩
          rw [arriveFree, if_neg hbehind]
        | some entry =>
          cases entry with
          | directory =>
            obtain ⟨stop, hstop, hcases⟩ := hnext hentry
            exact ⟨stop, List.mem_cons_of_mem _ hstop, hcases⟩
          | file content =>
            refine ⟨_, List.mem_cons_self, .inr (.inl ⟨content, hentry, ?_⟩)⟩
            refine if_neg fun hempty => hbehind ?_
            rw [List.isEmpty_iff.mp hempty]
            rfl
          | link other => exact ⟨_, List.mem_cons_self, .inr (.inr ⟨other, hentry⟩)⟩

/-- Where a walk ends at a place in a directory, if it does not go through a link. -/
def arrivalAt (tree : FileTree) (place : Place) : Arrival :=
  match tree.entryAt? place with
  | none => .free place false
  | some entry => .taken place entry

/-- At the end of a path, a walk from a directory ends at what has the last name. -/
theorem walkFrom_name {name : String} (hblank : blank name = false) (hup : name ≠ "..")
    (hlink : last = .through → ∀ goal, tree.entryAt? (place ++ [name]) ≠ some (.link goal)) :
    tree.walkFrom last links place [name] = .ok (tree.arrivalAt (place ++ [name])) := by
  have hmove : ¬(name = "" ∨ name = ".") :=
    fun hor => by simp [(Path.blank_iff name).mpr hor] at hblank
  rw [walkFrom, if_neg hmove, if_neg hup, arrivalAt]
  cases hentry : tree.entryAt? (place ++ [name]) with
  | none => rfl
  | some entry =>
    cases entry with
    | directory => rw [walkFrom]
    | file content => rfl
    | link goal =>
      have hends : last.endsAt [] = true := by
        cases last with
        | through => exact absurd hentry (hlink rfl goal)
        | unlessSlash => rfl
        | never => rfl
      simp only [hends, if_true]

/-! ## Walks along paths -/

variable {cwd : Place} {path : Path}

/-- A walk along a path starts at a directory. -/
theorem directory_start (hcwd : tree.entryAt? cwd = some .directory) (path : Path) :
    tree.entryAt? (start cwd path) = some .directory := by
  unfold start
  split
  · rfl
  · exact hcwd

/-- A way of directories leads to a directory. -/
theorem directory_goal (hcwd : tree.entryAt? cwd = some .directory)
    (h : ∀ stop ∈ way cwd path, tree.entryAt? stop = some .directory) :
    tree.entryAt? (goal cwd path) = some .directory :=
  directory_reach (directory_start hcwd path) h

/-- A walk through directories ends at the goal of its path. -/
theorem walk_of_directories (hpath : pathObstacle? path = none)
    (h : ∀ stop ∈ way cwd path, tree.entryAt? stop = some .directory) :
    tree.walk cwd last path = .ok (.taken (goal cwd path) .directory) := by
  refine walk_eq_ok_iff.mpr ⟨hpath, ?_⟩
  have hwalk := @walkFrom_passed tree last linkLimit _ _ [] h
  rw [List.append_nil] at hwalk
  rw [hwalk, walkFrom]
  rfl

/-- A walk through directories ends at what is at the goal of its path, if a name is the last
piece. -/
theorem walk_name (hpath : pathObstacle? path = none) {front : List String} {name : String}
    (hpieces : path.pieces = front ++ [name]) (hblank : blank name = false) (hup : name ≠ "..")
    (h : ∀ stop ∈ passed (start cwd path) (movesOf front), tree.entryAt? stop = some .directory)
    (hlink : last = .through → ∀ target, tree.entryAt? (goal cwd path) ≠ some (.link target)) :
    tree.walk cwd last path = .ok (tree.arrivalAt (goal cwd path)) := by
  have hgoal : goal cwd path = reach (start cwd path) (movesOf front) ++ [name] := by
    rw [goal, Path.moves, hpieces, Path.movesOf_append, Path.movesOf_cons_move hblank,
      Path.movesOf_nil, reach_concat, moveTo_name hup]
  rw [hgoal] at hlink ⊢
  refine walk_eq_ok_iff.mpr ⟨hpath, ?_⟩
  rw [hpieces, walkFrom_passed [name] h]
  exact walkFrom_name hblank hup hlink

end SchemaBindings.FileTree
