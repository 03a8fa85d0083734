import SchemaBindings.FileTree.Walk
import SchemaBindings.Proofs.FileTree.Grounded
import SchemaBindings.Proofs.Path.Pieces

/-!
# Where walks end

A walk ends at an entry of the tree or at a free place in a directory. Only directories and links
lead it on. So if those stay as they are, walks end where they ended, and if links may be lost or
replaced by files, walks that still succeed end where they ended.
-/

namespace SchemaBindings.FileTree

/-! ## Arrivals -/

/-- The place where a walk ends. -/
def Arrival.place : Arrival → Place
  | .taken place _ => place
  | .free place _ => place

/-- The place of an arrival at something is where it stands. -/
@[simp] theorem Arrival.place_taken (place : Place) (entry : Entry) :
    (Arrival.taken place entry).place = place :=
  rfl

/-- The place of an arrival at nothing is where something could stand. -/
@[simp] theorem Arrival.place_free (place : Place) (forDirectory : Bool) :
    (Arrival.free place forDirectory).place = place := rfl

/-- Whether an arrival is right about a tree: the entry is there, or nothing is, but a directory
around it. -/
def Arrival.Sound (tree : FileTree) : Arrival → Prop
  | .taken place entry => tree.entryAt? place = some entry
  | .free place _ => tree.entryAt? place = none ∧ place ≠ [] ∧
      tree.entryAt? place.dropLast = some .directory

/-- A walk ends at a free place only in front of slashes. -/
theorem arriveFree_eq_ok {place : Place} {rest : List String} {arrival : Arrival}
    (h : arriveFree place rest = .ok arrival) :
    rest.all String.isEmpty = true ∧ arrival = .free place (!rest.isEmpty) := by
  unfold arriveFree at h
  split at h
  · next hall => exact ⟨hall, (Except.ok.inj h).symm⟩
  · contradiction

/-- In a grounded tree, walks from directories end right. -/
theorem sound_of_walkFrom {tree : FileTree} (hgrounded : tree.Grounded) {last : LastLink}
    {links : Nat} {place : Place} {pieces : List String} {arrival : Arrival}
    (hplace : tree.entryAt? place = some .directory)
    (h : tree.walkFrom last links place pieces = .ok arrival) : arrival.Sound tree := by
  fun_induction walkFrom tree last links place pieces with
  | case1 links place =>
    obtain rfl := Except.ok.inj h
    exact hplace
  | case2 links place piece rest hblank ih => exact ih hplace h
  | case3 links place rest hblank ih => exact ih (hgrounded.directory_dropLast (by simp [hplace])) h
  | case4 links place piece rest hblank hup hnone =>
    obtain ⟨-, rfl⟩ := arriveFree_eq_ok h
    exact ⟨hnone, by simp, by rwa [List.dropLast_concat]⟩
  | case5 links place piece rest hblank hup hdirectory ih => exact ih hdirectory h
  | case6 links place piece rest hblank hup content hfile hrest =>
    obtain rfl := Except.ok.inj h
    exact hfile
  | case7 => contradiction
  | case8 links place piece rest hblank hup goal hlink hends =>
    obtain rfl := Except.ok.inj h
    exact hlink
  | case9 => contradiction
  | case10 => contradiction
  | case11 place piece rest hblank hup goal hlink hends hgoal links ih =>
    refine ih ?_ h
    split
    · rfl
    · exact hplace

/-! ## Trees that lead walks alike -/

/-- Whether a walk may go on from a place: a directory or a link is there. -/
def Leads (tree : FileTree) (place : Place) : Prop :=
  tree.entryAt? place = some .directory ∨ ∃ goal, tree.entryAt? place = some (.link goal)

/-- Whether directories and links stay as they are. -/
def Keeps (before after : FileTree) : Prop :=
  ∀ place, before.Leads place → after.entryAt? place = before.entryAt? place

/-- Whether directories stay as they are, and links stay too or no longer lead anywhere. -/
def Evolves (before after : FileTree) : Prop :=
  ∀ place, before.Leads place → after.entryAt? place = before.entryAt? place ∨
    (before.entryAt? place ≠ some .directory ∧ ¬ after.Leads place)

/-- A tree keeps what it has itself. -/
theorem Keeps.refl (tree : FileTree) : tree.Keeps tree :=
  fun _ _ => rfl

/-- What stays as it is evolves. -/
theorem Keeps.evolves {before after : FileTree} (h : before.Keeps after) : before.Evolves after :=
  fun place hleads => .inl (h place hleads)

/-- Directories stay where a tree evolves. -/
theorem Evolves.directory {before after : FileTree} (h : before.Evolves after) {place : Place}
    (hplace : before.entryAt? place = some .directory) :
    after.entryAt? place = some .directory := by
  rcases h place (.inl hplace) with hsame | ⟨hne, -⟩
  · rw [hsame, hplace]
  · exact absurd hplace hne

/-- Where a tree evolves, a link stays, or nothing is left of it, or there is a file. -/
theorem Evolves.link {before after : FileTree} (h : before.Evolves after) {place : Place}
    {goal : String} (hplace : before.entryAt? place = some (.link goal)) :
    after.entryAt? place = some (.link goal) ∨ after.entryAt? place = none ∨
      ∃ content, after.entryAt? place = some (.file content) := by
  rcases h place (.inr ⟨goal, hplace⟩) with hsame | ⟨-, hleads⟩
  · exact .inl (hsame.trans hplace)
  · cases hafter : after.entryAt? place with
    | none => exact .inr (.inl rfl)
    | some entry =>
      cases entry with
      | directory => exact absurd (.inl hafter) hleads
      | file content => exact .inr (.inr ⟨content, rfl⟩)
      | link other => exact absurd (.inr ⟨other, hafter⟩) hleads

/-! ## Ends of walks -/

/-- In front of slashes alone, a walk ends at the directory where it is. -/
theorem walkFrom_of_all_isEmpty (tree : FileTree) (last : LastLink) (links : Nat) (place : Place)
    {rest : List String} (h : rest.all String.isEmpty = true) :
    tree.walkFrom last links place rest = .ok (.taken place .directory) := by
  induction rest with
  | nil => rw [walkFrom]
  | cons piece rest ih =>
    simp only [List.all_cons, Bool.and_eq_true, String.isEmpty_iff] at h
    rw [walkFrom, if_pos (.inl h.1)]
    exact ih h.2

/-- A walk that ends at links ends at the place of a name in front of slashes, whatever is there. -/
theorem place_of_walkFrom_cons {tree : FileTree} {links : Nat} {place : Place} {piece : String}
    {rest : List String} (hblank : ¬(piece = "" ∨ piece = ".")) (hup : piece ≠ "..")
    (hrest : rest.all String.isEmpty = true) {arrival : Arrival}
    (h : tree.walkFrom .never links place (piece :: rest) = .ok arrival) :
    arrival.place = place ++ [piece] := by
  rw [walkFrom, if_neg hblank, if_neg hup] at h
  split at h
  · obtain ⟨-, rfl⟩ := arriveFree_eq_ok h
    rfl
  · rw [walkFrom_of_all_isEmpty tree _ _ _ hrest] at h
    obtain rfl := Except.ok.inj h
    rfl
  · split at h
    · obtain rfl := Except.ok.inj h
      rfl
    · contradiction
  · rw [if_pos (show LastLink.never.endsAt rest = true from hrest)] at h
    obtain rfl := Except.ok.inj h
    rfl

/-- Where a tree evolves, walks that succeed before and after it end at the same place. A walk
through a link has more than slashes behind the link, which must still be there. -/
theorem place_eq_of_evolves {before after : FileTree} (hevolves : before.Evolves after)
    {links : Nat} {place : Place} {pieces : List String} {arrival other : Arrival}
    (hbefore : before.walkFrom .never links place pieces = .ok arrival)
    (hafter : after.walkFrom .never links place pieces = .ok other) :
    other.place = arrival.place := by
  fun_induction walkFrom before .never links place pieces with
  | case1 links place =>
    rw [walkFrom] at hafter
    rw [← Except.ok.inj hbefore, ← Except.ok.inj hafter]
  | case2 links place piece rest hblank ih =>
    rw [walkFrom, if_pos hblank] at hafter
    exact ih hbefore hafter
  | case3 links place rest hblank ih =>
    rw [walkFrom, if_neg hblank, if_pos rfl] at hafter
    exact ih hbefore hafter
  | case4 links place piece rest hblank hup hnone =>
    obtain ⟨hrest, rfl⟩ := arriveFree_eq_ok hbefore
    exact place_of_walkFrom_cons hblank hup hrest hafter
  | case5 links place piece rest hblank hup hdirectory ih =>
    rw [walkFrom, if_neg hblank, if_neg hup, hevolves.directory hdirectory] at hafter
    exact ih hbefore hafter
  | case6 links place piece rest hblank hup content hfile hrest =>
    obtain rfl := Except.ok.inj hbefore
    obtain rfl : rest = [] := List.isEmpty_iff.mp hrest
    exact place_of_walkFrom_cons hblank hup rfl hafter
  | case7 => contradiction
  | case8 links place piece rest hblank hup goal hlink hends =>
    obtain rfl := Except.ok.inj hbefore
    exact place_of_walkFrom_cons hblank hup hends hafter
  | case9 => contradiction
  | case10 => contradiction
  | case11 place piece rest hblank hup goal hlink hends hgoal links ih =>
    have hrest : ¬ rest.all String.isEmpty = true := hends
    rw [walkFrom, if_neg hblank, if_neg hup] at hafter
    rcases hevolves.link hlink with hsame | hnone | ⟨content, hfile⟩
    · simp only [hsame] at hafter
      rw [if_neg hends, if_neg hgoal] at hafter
      exact ih hbefore hafter
    · simp only [hnone] at hafter
      exact absurd (arriveFree_eq_ok hafter).1 hrest
    · simp only [hfile] at hafter
      split at hafter
      · next hempty =>
        obtain rfl : rest = [] := List.isEmpty_iff.mp hempty
        exact absurd rfl hrest
      · contradiction

/-- Where everything stays, a walk that ends at something ends there again. -/
theorem walkFrom_taken_of_extends {before after : FileTree}
    (hextends : ∀ place entry, before.entryAt? place = some entry →
      after.entryAt? place = some entry)
    {last : LastLink} {links : Nat} {place reached : Place} {pieces : List String} {entry : Entry}
    (h : before.walkFrom last links place pieces = .ok (.taken reached entry)) :
    after.walkFrom last links place pieces = .ok (.taken reached entry) := by
  fun_induction walkFrom before last links place pieces with
  | case1 links place => rwa [walkFrom]
  | case2 links place piece rest hblank ih =>
    rw [walkFrom, if_pos hblank]
    exact ih h
  | case3 links place rest hblank ih =>
    rw [walkFrom, if_neg hblank, if_pos rfl]
    exact ih h
  | case4 links place piece rest hblank hup hnone =>
    obtain ⟨-, hfree⟩ := arriveFree_eq_ok h
    contradiction
  | case5 links place piece rest hblank hup hdirectory ih =>
    rw [walkFrom, if_neg hblank, if_neg hup, hextends _ _ hdirectory]
    exact ih h
  | case6 links place piece rest hblank hup content hfile hrest =>
    rw [walkFrom, if_neg hblank, if_neg hup, hextends _ _ hfile]
    simpa [hrest] using h
  | case7 => contradiction
  | case8 links place piece rest hblank hup goal hlink hends =>
    rw [walkFrom, if_neg hblank, if_neg hup, hextends _ _ hlink]
    simpa [hends] using h
  | case9 => contradiction
  | case10 => contradiction
  | case11 place piece rest hblank hup goal hlink hends hgoal links ih =>
    rw [walkFrom, if_neg hblank, if_neg hup, hextends _ _ hlink]
    simp only [if_neg hends, if_neg hgoal]
    exact ih h

/-! ## Walks along the beginning of a path -/

/-- Walks along pieces that others follow: where the walk is then, and how many links it may still
go through. -/
def follow (tree : FileTree) (links : Nat) (place : Place) : List String → Option (Nat × Place)
  | [] => some (links, place)
  | piece :: rest =>
    if piece = "" ∨ piece = "." then follow tree links place rest
    else if piece = ".." then follow tree links place.dropLast rest
    else
      match tree.entryAt? (place ++ [piece]) with
      | some .directory => follow tree links (place ++ [piece]) rest
      | some (.link goal) =>
        if goal.isEmpty then none
        else
          match links with
          | 0 => none
          | links + 1 =>
            follow tree links (if (Path.mk goal).isAbsolute then [] else place)
              ((Path.mk goal).pieces ++ rest)
      | _ => none
termination_by pieces => (links, pieces.length)

/-- A walk along pieces that more than slashes follow first walks along the beginning. -/
theorem walkFrom_append_of_follow (tree : FileTree) (last : LastLink) (links : Nat) (place : Place)
    (pieces : List String) {behind : List String} (hbehind : ¬ behind.all String.isEmpty = true) :
    (∀ fewer reached, tree.follow links place pieces = some (fewer, reached) →
      tree.walkFrom last links place (pieces ++ behind) = tree.walkFrom last fewer reached behind) ∧
    (tree.follow links place pieces = none →
      ∃ obstacle, tree.walkFrom last links place (pieces ++ behind) = .error obstacle) := by
  have hnotall : ∀ rest : List String, ¬ (rest ++ behind).all String.isEmpty = true := fun rest h =>
    hbehind (by rw [List.all_append, Bool.and_eq_true] at h; exact h.2)
  have hnonempty : ∀ rest : List String, (rest ++ behind).isEmpty = false := fun rest =>
    Bool.eq_false_iff.mpr fun h => hnotall rest (by rw [List.isEmpty_iff.mp h]; rfl)
  have hends : ∀ rest : List String, last.endsAt (rest ++ behind) = false := by
    intro rest
    cases last with
    | through => rfl
    | unlessSlash => exact hnonempty rest
    | never => exact Bool.eq_false_iff.mpr (hnotall rest)
  fun_induction follow tree links place pieces with
  | case1 links place => simp
  | case2 links place piece rest hblank ih =>
    rw [List.cons_append, walkFrom, if_pos hblank]
    exact ih
  | case3 links place rest hblank ih =>
    rw [List.cons_append, walkFrom, if_neg hblank, if_pos rfl]
    exact ih
  | case4 links place piece rest hblank hup hdirectory ih =>
    rw [List.cons_append, walkFrom, if_neg hblank, if_neg hup, hdirectory]
    exact ih
  | case5 links place piece rest hblank hup goal hlink hgoal =>
    rw [List.cons_append, walkFrom, if_neg hblank, if_neg hup, hlink]
    simp only [hends, Bool.false_eq_true, if_false, if_pos hgoal]
    simp
  | case6 place piece rest hblank hup goal hlink hgoal =>
    rw [List.cons_append, walkFrom, if_neg hblank, if_neg hup, hlink]
    simp only [hends, Bool.false_eq_true, if_false, if_neg hgoal]
    simp
  | case7 place piece rest hblank hup goal hlink hgoal links ih =>
    rw [List.cons_append, walkFrom, if_neg hblank, if_neg hup, hlink]
    simp only [hends, Bool.false_eq_true, if_false, if_neg hgoal, ← List.append_assoc]
    exact ih
  | case8 links place piece rest hblank hup hother hlink =>
    rw [List.cons_append, walkFrom, if_neg hblank, if_neg hup]
    refine ⟨by simp, fun _ => ?_⟩
    cases hentry : tree.entryAt? (place ++ [piece]) with
    | none => simp [arriveFree, hnotall]
    | some entry =>
      cases entry with
      | directory => exact absurd hentry hother
      | file content => simp [hnonempty]
      | link goal => exact absurd hentry (hlink goal)

/-- Where a tree evolves, walks along the beginning of a path come to the same place or get lost. -/
theorem follow_of_evolves {before after : FileTree} (hevolves : before.Evolves after) {links : Nat}
    {place : Place} {pieces : List String} {reached : Nat × Place}
    (h : before.follow links place pieces = some reached) :
    after.follow links place pieces = some reached ∨ after.follow links place pieces = none := by
  fun_induction follow before links place pieces with
  | case1 links place =>
    rw [follow]
    exact .inl h
  | case2 links place piece rest hblank ih =>
    rw [follow, if_pos hblank]
    exact ih h
  | case3 links place rest hblank ih =>
    rw [follow, if_neg hblank, if_pos rfl]
    exact ih h
  | case4 links place piece rest hblank hup hdirectory ih =>
    rw [follow, if_neg hblank, if_neg hup, hevolves.directory hdirectory]
    exact ih h
  | case5 => contradiction
  | case6 => contradiction
  | case7 place piece rest hblank hup goal hlink hgoal links ih =>
    rw [follow, if_neg hblank, if_neg hup]
    rcases hevolves.link hlink with hsame | hnone | ⟨content, hfile⟩
    · simp only [hsame, if_neg hgoal]
      exact ih h
    · simp [hnone]
    · simp [hfile]
  | case8 => contradiction

/-- Where directories and links stay, walks along the beginning of a path come to the same place. -/
theorem follow_of_keeps {before after : FileTree} (hkeeps : before.Keeps after) {links : Nat}
    {place : Place} {pieces : List String} {reached : Nat × Place}
    (h : before.follow links place pieces = some reached) :
    after.follow links place pieces = some reached := by
  fun_induction follow before links place pieces with
  | case1 links place =>
    rw [follow]
    exact h
  | case2 links place piece rest hblank ih =>
    rw [follow, if_pos hblank]
    exact ih h
  | case3 links place rest hblank ih =>
    rw [follow, if_neg hblank, if_pos rfl]
    exact ih h
  | case4 links place piece rest hblank hup hdirectory ih =>
    rw [follow, if_neg hblank, if_neg hup, hkeeps.evolves.directory hdirectory]
    exact ih h
  | case5 => contradiction
  | case6 => contradiction
  | case7 place piece rest hblank hup goal hlink hgoal links ih =>
    rw [follow, if_neg hblank, if_neg hup]
    simp only [hkeeps _ (.inr ⟨goal, hlink⟩), hlink, if_neg hgoal]
    exact ih h
  | case8 => contradiction

/-! ## Walks to files -/

/-- Whether a file may be written where a walk ended. -/
def Arrival.ForFile : Arrival → Prop
  | .free _ forDirectory => forDirectory = false
  | .taken _ (.file _) => True
  | .taken _ _ => False

/-- A path along which a walk ends where a file may be has a name as its last piece. -/
theorem getLast?_of_forFile {tree : FileTree} {last : LastLink} {links : Nat} {place : Place}
    {pieces : List String} {arrival : Arrival}
    (h : tree.walkFrom last links place pieces = .ok arrival) (hfile : arrival.ForFile) :
    ∃ name, pieces.getLast? = some name ∧ name ≠ "" ∧ name ≠ "." ∧ name ≠ ".." := by
  have hcons : ∀ {piece name : String} {rest : List String}, rest.getLast? = some name →
      (piece :: rest).getLast? = some name := by
    intro piece name rest h
    rw [List.getLast?_cons, h]
    rfl
  fun_induction walkFrom tree last links place pieces with
  | case1 links place =>
    obtain rfl := Except.ok.inj h
    exact hfile.elim
  | case2 links place piece rest hblank ih =>
    obtain ⟨name, hlast, hname⟩ := ih h
    exact ⟨name, hcons hlast, hname⟩
  | case3 links place rest hblank ih =>
    obtain ⟨name, hlast, hname⟩ := ih h
    exact ⟨name, hcons hlast, hname⟩
  | case4 links place piece rest hblank hup hnone =>
    obtain ⟨-, rfl⟩ := arriveFree_eq_ok h
    obtain rfl : rest = [] := by simpa [Arrival.ForFile] using hfile
    exact ⟨piece, rfl, not_or.mp hblank |>.1, not_or.mp hblank |>.2, hup⟩
  | case5 links place piece rest hblank hup hdirectory ih =>
    obtain ⟨name, hlast, hname⟩ := ih h
    exact ⟨name, hcons hlast, hname⟩
  | case6 links place piece rest hblank hup content hentry hrest =>
    obtain rfl : rest = [] := List.isEmpty_iff.mp hrest
    exact ⟨piece, rfl, not_or.mp hblank |>.1, not_or.mp hblank |>.2, hup⟩
  | case7 => contradiction
  | case8 links place piece rest hblank hup goal hlink hends =>
    obtain rfl := Except.ok.inj h
    exact hfile.elim
  | case9 => contradiction
  | case10 => contradiction
  | case11 place piece rest hblank hup goal hlink hends hgoal links ih =>
    by_cases hrest : rest = []
    · exact ⟨piece, by rw [hrest]; rfl, not_or.mp hblank |>.1, not_or.mp hblank |>.2, hup⟩
    · obtain ⟨name, hlast, hname⟩ := ih h
      rw [List.getLast?_append_of_ne_nil _ hrest] at hlast
      exact ⟨name, hcons hlast, hname⟩

/-- Along a path without a slash at its end, walks treat a link at the end alike. -/
theorem walkFrom_unlessSlash {tree : FileTree} {links : Nat} {place : Place} {pieces : List String}
    (hlast : pieces.getLast? ≠ some "") :
    tree.walkFrom .unlessSlash links place pieces = tree.walkFrom .never links place pieces := by
  have hrest : ∀ {piece : String} {rest : List String}, (piece :: rest).getLast? ≠ some "" →
      rest.getLast? ≠ some "" := by
    intro piece rest h hslash
    rw [List.getLast?_cons, hslash] at h
    exact h rfl
  have hnever : ∀ {piece : String} {rest : List String}, (piece :: rest).getLast? ≠ some "" →
      ¬ LastLink.unlessSlash.endsAt rest = true → LastLink.never.endsAt rest = false := by
    intro piece rest h hends
    obtain ⟨name, hname⟩ := Option.ne_none_iff_exists'.mp
      (mt List.getLast?_eq_none_iff.mp fun hnil : rest = [] => hends (by rw [hnil]; rfl))
    refine Bool.eq_false_iff.mpr fun hall => hrest h ?_
    have hempty := List.all_eq_true.mp hall name (List.mem_of_getLast? hname)
    rw [hname, String.isEmpty_iff.mp hempty]
  fun_induction walkFrom tree .unlessSlash links place pieces with
  | case1 links place => rw [walkFrom]
  | case2 links place piece rest hblank ih => rw [walkFrom, if_pos hblank, ih (hrest hlast)]
  | case3 links place rest hblank ih => rw [walkFrom, if_neg hblank, if_pos rfl, ih (hrest hlast)]
  | case4 links place piece rest hblank hup hnone => rw [walkFrom, if_neg hblank, if_neg hup, hnone]
  | case5 links place piece rest hblank hup hdirectory ih =>
    rw [walkFrom, if_neg hblank, if_neg hup, hdirectory, ih (hrest hlast)]
  | case6 links place piece rest hblank hup content hfile hempty =>
    simp [walkFrom, hblank, hup, hfile, hempty]
  | case7 links place piece rest hblank hup content hfile hempty =>
    simp [walkFrom, hblank, hup, hfile, hempty]
  | case8 links place piece rest hblank hup goal hlink hends =>
    obtain rfl : rest = [] := List.isEmpty_iff.mp hends
    simp [walkFrom, hblank, hup, hlink, LastLink.endsAt]
  | case9 links place piece rest hblank hup goal hlink hends hgoal =>
    simp [walkFrom, hblank, hup, hlink, hnever hlast hends, hgoal]
  | case10 place piece rest hblank hup goal hlink hends hgoal =>
    simp [walkFrom, hblank, hup, hlink, hnever hlast hends, hgoal]
  | case11 place piece rest hblank hup goal hlink hends hgoal links ih =>
    have hnonempty : rest ≠ [] := fun hnil => hends (by rw [hnil]; rfl)
    have hbehind : ((Path.mk goal).pieces ++ rest).getLast? ≠ some "" := by
      rw [List.getLast?_append_of_ne_nil _ hnonempty]
      exact hrest hlast
    refine (ih hbehind).trans (Eq.symm ?_)
    rw [walkFrom, if_neg hblank, if_neg hup, hlink]
    simp [hnever hlast hends, hgoal]

/-- The name that a piece means, if it means neither nothing nor a step up. -/
theorem pieceName?_eq_some {piece : String} (hblank : ¬(piece = "" ∨ piece = "."))
    (hup : piece ≠ "..") :
    Path.pieceName? piece = some piece := by
  rw [Path.pieceName?, if_neg]
  rw [← or_assoc]
  exact not_or.mpr ⟨hblank, hup⟩

/-- Along pieces that never step up, where no links are on the way, a walk ends at the names of the
pieces. -/
theorem place_of_walkFrom {tree : FileTree} {last : LastLink} {links : Nat} {place : Place}
    {pieces : List String} (hforward : ".." ∉ pieces)
    (hlinks : ∀ other goal, place <+: other → other ≠ place →
      other <+: place ++ pieces.filterMap Path.pieceName? → tree.entryAt? other ≠ some (.link goal))
    {arrival : Arrival} (h : tree.walkFrom last links place pieces = .ok arrival) :
    arrival.place = place ++ pieces.filterMap Path.pieceName? := by
  induction pieces generalizing place with
  | nil =>
    rw [walkFrom] at h
    rw [← Except.ok.inj h]
    exact (List.append_nil place).symm
  | cons piece rest ih =>
    rw [List.mem_cons, not_or] at hforward
    rw [walkFrom] at h
    by_cases hblank : piece = "" ∨ piece = "."
    · have hname : Path.pieceName? piece = none := by rcases hblank with rfl | rfl <;> rfl
      rw [if_pos hblank] at h
      rw [List.filterMap_cons_none hname] at hlinks ⊢
      exact ih hforward.2 hlinks h
    · have hname := pieceName?_eq_some hblank (Ne.symm hforward.1)
      have hstep : place ++ piece :: rest.filterMap Path.pieceName? =
          place ++ [piece] ++ rest.filterMap Path.pieceName? := by simp
      rw [if_neg hblank, if_neg (Ne.symm hforward.1)] at h
      rw [List.filterMap_cons_some hname] at hlinks ⊢
      have hrest : ∀ {rest : List String}, rest.all String.isEmpty = true →
          rest.filterMap Path.pieceName? = [] := by
        intro rest hall
        refine List.filterMap_eq_nil_iff.mpr fun other hother => ?_
        obtain rfl := String.isEmpty_iff.mp (List.all_eq_true.mp hall other hother)
        rfl
      split at h
      · obtain ⟨hall, rfl⟩ := arriveFree_eq_ok h
        rw [hrest hall]
        rfl
      · rw [hstep]
        refine ih hforward.2 (fun other goal hunder hne hbelow => ?_) h
        refine hlinks other goal ((List.prefix_append place [piece]).trans hunder) ?_
          (hstep ▸ hbelow)
        rintro rfl
        have hlength := hunder.length_le
        rw [List.length_append, List.length_singleton] at hlength
        omega
      · split at h
        · next hempty =>
          rw [← Except.ok.inj h, List.isEmpty_iff.mp hempty]
          rfl
        · contradiction
      · next goal hlink =>
        refine absurd hlink (hlinks _ goal (List.prefix_append place [piece]) (by simp) ?_)
        rw [hstep]
        exact List.prefix_append _ _

/-! ## Walks along paths -/

/-- Where a walk along a path starts. -/
def start (cwd : Place) (path : Path) : Place :=
  if path.isAbsolute then [] else cwd

/-- A walk along a path succeeds if nothing stands against the path as a whole and the walk along
its pieces does. -/
theorem walk_eq_ok_iff {tree : FileTree} {cwd : Place} {last : LastLink} {path : Path}
    {arrival : Arrival} :
    tree.walk cwd last path = .ok arrival ↔ pathObstacle? path = none ∧
      tree.walkFrom last linkLimit (start cwd path) path.pieces = .ok arrival := by
  rw [walk]
  split
  · next obstacle hobstacle => simp [hobstacle]
  · next hnone => simp [hnone, start]

/-- Something is found where a walk ends at it. -/
theorem find?_eq_some {tree : FileTree} {cwd : Place} {last : LastLink} {path : Path}
    {place : Place} {entry : Entry} :
    tree.find? cwd last path = some (place, entry) ↔
    tree.walk cwd last path = .ok (.taken place entry) := by
  unfold find?
  split
  · next other found hwalk => simp [hwalk]
  · next hnot => simpa using hnot place entry

/-- In a grounded tree, walks from a working directory end right. -/
theorem sound_of_walk {tree : FileTree} (hgrounded : tree.Grounded) {cwd : Place}
    (hcwd : tree.entryAt? cwd = some .directory) {last : LastLink} {path : Path} {arrival : Arrival}
    (h : tree.walk cwd last path = .ok arrival) : arrival.Sound tree := by
  refine sound_of_walkFrom hgrounded ?_ (walk_eq_ok_iff.mp h).2
  rw [start]
  split
  · rfl
  · exact hcwd

/-- Where a tree evolves, walks along a path that succeed before and after it end at the same
place. -/
theorem walk_place_eq_of_evolves {before after : FileTree} (hevolves : before.Evolves after)
    {cwd : Place} {path : Path} {arrival other : Arrival}
    (hbefore : before.walk cwd .never path = .ok arrival)
    (hafter : after.walk cwd .never path = .ok other) : other.place = arrival.place :=
  place_eq_of_evolves hevolves (walk_eq_ok_iff.mp hbefore).2 (walk_eq_ok_iff.mp hafter).2

/-- Where everything stays, a walk along a path that ends at something ends there again. -/
theorem walk_taken_of_extends {before after : FileTree}
    (hextends : ∀ place entry, before.entryAt? place = some entry →
      after.entryAt? place = some entry)
    {cwd : Place} {last : LastLink} {path : Path} {reached : Place} {entry : Entry}
    (h : before.walk cwd last path = .ok (.taken reached entry)) :
    after.walk cwd last path = .ok (.taken reached entry) := by
  obtain ⟨hobstacle, hwalk⟩ := walk_eq_ok_iff.mp h
  exact walk_eq_ok_iff.mpr ⟨hobstacle, walkFrom_taken_of_extends hextends hwalk⟩

/-- Along a path without a slash at its end, walks treat a link at the end alike. -/
theorem walk_unlessSlash {tree : FileTree} {cwd : Place} {path : Path}
    (hlast : path.pieces.getLast? ≠ some "") :
    tree.walk cwd .unlessSlash path = tree.walk cwd .never path := by
  rw [walk, walk]
  split
  · rfl
  · exact walkFrom_unlessSlash hlast

end SchemaBindings.FileTree
