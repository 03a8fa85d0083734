import SchemaBindings.FileTree.Storage

/-!
# Walks by structural recursion

A walk is a recursion over the pieces of a path, within one over the links that it may still go
through. Written so, walks in a given tree can be evaluated.
-/

namespace SchemaBindings.FileTree

/-- Walks from a directory along pieces, given how a walk goes on through a link, if it may. -/
def walkPieces (tree : FileTree) (last : LastLink)
    (through? : Option (Place → List String → Except Obstacle Arrival)) :
    Place → List String → Except Obstacle Arrival
  | place, [] => .ok (.taken place .directory)
  | place, piece :: rest =>
    if piece = "" ∨ piece = "." then walkPieces tree last through? place rest
    else if piece = ".." then walkPieces tree last through? place.dropLast rest
    else
      match tree.entryAt? (place ++ [piece]) with
      | none => arriveFree (place ++ [piece]) rest
      | some .directory => walkPieces tree last through? (place ++ [piece]) rest
      | some (.file content) =>
        if rest.isEmpty then .ok (.taken (place ++ [piece]) (.file content))
        else .error .notDirectory
      | some (.link goal) =>
        if last.endsAt rest then .ok (.taken (place ++ [piece]) (.link goal))
        else if goal.isEmpty then .error .missing
        else
          match through? with
          | none => .error .linkLoop
          | some through => through (if (Path.mk goal).isAbsolute then [] else place)
              ((Path.mk goal).pieces ++ rest)

/-- Walks from a directory along pieces, through so many links at most. -/
def walkSteps (tree : FileTree) (last : LastLink) :
    Nat → Place → List String → Except Obstacle Arrival
  | 0 => tree.walkPieces last none
  | links + 1 => tree.walkPieces last (some (tree.walkSteps last links))

/-- A walk along pieces knows how to go on through a link as long as it may. -/
theorem walkSteps_eq (tree : FileTree) (last : LastLink) (links : Nat) :
    tree.walkSteps last links = tree.walkPieces last
      (match links with
      | 0 => none
      | links + 1 => some (tree.walkSteps last links)) := by
  cases links <;> rfl

/-- Walks are such recursions. -/
theorem walkFrom_eq_walkSteps : walkFrom = walkSteps := by
  funext tree last links place pieces
  fun_induction walkFrom tree last links place pieces with
  | case1 links place => rw [walkSteps_eq, walkPieces]
  | case2 links place piece rest hblank ih => rw [ih, walkSteps_eq, walkPieces, if_pos hblank]
  | case3 links place rest hblank ih => rw [ih, walkSteps_eq, walkPieces, if_neg hblank, if_pos rfl]
  | case4 links place piece rest hblank hup hnone =>
    rw [walkSteps_eq, walkPieces, if_neg hblank, if_neg hup, hnone]
  | case5 links place piece rest hblank hup hdirectory ih =>
    rw [ih, walkSteps_eq, walkPieces, if_neg hblank, if_neg hup, hdirectory]
  | case6 links place piece rest hblank hup content hfile hrest =>
    rw [walkSteps_eq, walkPieces]
    simp only [if_neg hblank, if_neg hup, hfile, if_pos hrest]
  | case7 links place piece rest hblank hup content hfile hrest =>
    rw [walkSteps_eq, walkPieces]
    simp only [if_neg hblank, if_neg hup, hfile, if_neg hrest]
  | case8 links place piece rest hblank hup goal hlink hends =>
    rw [walkSteps_eq, walkPieces]
    simp only [if_neg hblank, if_neg hup, hlink, if_pos hends]
  | case9 links place piece rest hblank hup goal hlink hends hgoal =>
    rw [walkSteps_eq, walkPieces]
    simp only [if_neg hblank, if_neg hup, hlink, if_neg hends, if_pos hgoal]
  | case10 place piece rest hblank hup goal hlink hends hgoal =>
    simp only [walkSteps, walkPieces, if_neg hblank, if_neg hup, hlink, if_neg hends, if_neg hgoal]
  | case11 place piece rest hblank hup goal hlink hends hgoal links ih =>
    simp only [walkSteps, walkPieces, if_neg hblank, if_neg hup, hlink, if_neg hends, if_neg hgoal]
    simpa using ih

end SchemaBindings.FileTree
