import SchemaBindings.Path.Place
import SchemaBindings.Proofs.FileTree.Ways

/-!
# Where a path lands

By its text alone a path leads up some levels and then down along names, from the root or from a
working directory: a step up takes back the name in front of it, and climbs where there is none.
There is nothing to climb to from the root. Two paths land at the same place exactly if they lead to
the same place from every working directory.

Reduced components tell landings apart only up to pairs of climbs, since a step up takes back a step
up in front of it as well. So they are right about paths that climb at most once, and not at all if
they start at the root.
-/

namespace SchemaBindings.Path

open SchemaBindings.FileTree (goal moveTo reach reach_concat start)

/-! ## Landings -/

/-- Where a path leads by its text alone: whether from the root, how many levels up, and then along
which names. -/
structure Landing where
  absolute : Bool
  climbs : Nat
  names : List String
deriving DecidableEq

/-- Takes one component further. -/
def Landing.enter (landing : Landing) : Component → Landing
  | .root => { landing with absolute := true }
  | .here => landing
  | .up =>
    if landing.names = [] then { landing with climbs := landing.climbs + 1 }
    else { landing with names := landing.names.dropLast }
  | .name text => { landing with names := landing.names ++ [text] }

/-- Where a path lands. -/
def landing (path : Path) : Landing :=
  path.components.foldl Landing.enter ⟨false, 0, []⟩

/-- Whether two landings are the same place. Climbing from the root stays at the root. -/
def Landing.Same (a b : Landing) : Prop :=
  a.absolute = b.absolute ∧ a.names = b.names ∧ (a.absolute = false → a.climbs = b.climbs)

/-- Whether two landings are the same up to pairs of climbs. -/
def Landing.SameUpToPairs (a b : Landing) : Prop :=
  a.absolute = b.absolute ∧ a.names = b.names ∧ a.climbs % 2 = b.climbs % 2

instance (a b : Landing) : Decidable (a.Same b) :=
  inferInstanceAs (Decidable (_ ∧ _ ∧ (_ → _)))

instance (a b : Landing) : Decidable (a.SameUpToPairs b) :=
  inferInstanceAs (Decidable (_ ∧ _ ∧ _))

/-- Whether a landing climbs no more than once, and not from the root. -/
def Landing.Shallow (landing : Landing) : Prop :=
  landing.climbs ≤ if landing.absolute then 0 else 1

instance (landing : Landing) : Decidable landing.Shallow :=
  inferInstanceAs (Decidable (_ ≤ _))

/-- Shallow landings are the same exactly if they are up to pairs of climbs. -/
theorem Landing.sameUpToPairs_iff {a b : Landing} (ha : a.Shallow) (hb : b.Shallow) :
    a.SameUpToPairs b ↔ a.Same b := by
  unfold Shallow at ha hb
  unfold SameUpToPairs Same
  refine and_congr_right fun habsolute => and_congr_right fun _ => ?_
  rw [← habsolute] at hb
  cases h : a.absolute with
  | true =>
    rw [h] at ha hb
    simp only [if_true, Nat.le_zero] at ha hb
    simp [ha, hb]
  | false =>
    simp only [h, Bool.false_eq_true, if_false] at ha hb
    simp only [true_imp_iff]
    omega

/-! ## Moves and landings -/

/-- Taking the moves of a path one by one leads to its landing. -/
theorem landing_eq (path : Path) :
    path.landing = (path.moves.map meaning).foldl Landing.enter ⟨path.isAbsolute, 0, []⟩ := by
  rcases path.components_cases with ⟨habsolute, h⟩ | ⟨habsolute, h | h⟩ <;>
    rw [landing, h, habsolute] <;> rfl

/-- Moves do not change where a landing starts from. -/
theorem absolute_foldl_enter (landing : Landing) (moves : List String) :
    ((moves.map meaning).foldl Landing.enter landing).absolute = landing.absolute := by
  induction moves generalizing landing with
  | nil => rfl
  | cons move moves ih =>
    rw [List.map_cons, List.foldl_cons, ih]
    by_cases hup : move = ".."
    · simp only [meaning, hup, if_true, Landing.enter]
      split <;> rfl
    · simp [meaning, hup, Landing.enter]

/-- The landing of a path is absolute exactly if the path is. -/
theorem absolute_landing (path : Path) : path.landing.absolute = path.isAbsolute := by
  rw [landing_eq, absolute_foldl_enter]

/-! ## Places -/

/-- The place that a landing is, from a given place. -/
def Landing.placeFrom (landing : Landing) (place : Place) : Place :=
  place.rdrop landing.climbs ++ landing.names

/-- A move leads from the place of a landing to that of the next one. -/
theorem Landing.moveTo_placeFrom (landing : Landing) (place : Place) (move : String) :
    moveTo (landing.placeFrom place) move = (landing.enter (meaning move)).placeFrom place := by
  by_cases hup : move = ".."
  · rw [moveTo, if_pos hup, meaning, if_pos hup, enter]
    split
    · next hnil =>
      simp [placeFrom, hnil, List.rdrop_eq_reverse_drop_reverse, List.dropLast_reverse,
        List.tail_drop]
    · next hne => simp [placeFrom, List.dropLast_append_of_ne_nil hne]
  · simp [moveTo, hup, meaning, enter, placeFrom]

/-- Moves lead where the landing says. -/
theorem reach_placeFrom (landing : Landing) (place : Place) (moves : List String) :
    reach (landing.placeFrom place) moves =
      ((moves.map meaning).foldl Landing.enter landing).placeFrom place := by
  induction moves generalizing landing with
  | nil => rfl
  | cons move moves ih =>
    rw [reach, List.foldl_cons, ← reach, landing.moveTo_placeFrom, ih,
      List.map_cons, List.foldl_cons]

/-- A path leads to the place of its landing, from the root or from the working directory. -/
theorem goal_eq_placeFrom (cwd : Place) (path : Path) :
    goal cwd path = path.landing.placeFrom (start cwd path) := by
  have hstart : start cwd path = (Landing.mk path.isAbsolute 0 []).placeFrom (start cwd path) := by
    simp [Landing.placeFrom, List.rdrop_zero]
  rw [goal, hstart, reach_placeFrom, ← hstart, landing_eq]

/-- Paths land at the same place exactly if they lead to the same place from every working
directory. How far they climb is seen from a working directory that is deeper than both climb. -/
theorem same_landing_iff (a b : Path) :
    a.landing.Same b.landing ↔ ∀ cwd, goal cwd a = goal cwd b := by
  have hgoal : ∀ cwd path, goal cwd path =
      (if path.landing.absolute then [] else cwd).rdrop path.landing.climbs ++
        path.landing.names := by
    intro cwd path
    rw [goal_eq_placeFrom, Landing.placeFrom, start, absolute_landing]
  simp only [hgoal]
  generalize a.landing = a
  generalize b.landing = b
  constructor
  · rintro ⟨habsolute, hnames, hclimbs⟩ cwd
    cases h : a.absolute with
    | true => simp [← habsolute, h, hnames, List.rdrop]
    | false => simp [← habsolute, h, hnames, hclimbs h]
  · intro hsame
    have hnames : a.names = b.names := by simpa [List.rdrop] using hsame []
    have hdeep := hsame (List.replicate (a.climbs + b.climbs + 1) "")
    rw [hnames, List.append_left_inj] at hdeep
    have hlength := congrArg List.length hdeep
    refine ⟨?_, hnames, fun h => ?_⟩
    · cases ha : a.absolute <;> cases hb : b.absolute <;> simp [ha, hb, List.rdrop] at hlength ⊢ <;>
        omega
    · cases hb : b.absolute <;> simp [h, hb, List.rdrop] at hlength <;> omega

/-! ## Reduced components -/

/-- The components that a landing is reduced to. -/
def Landing.components (landing : Landing) : List Component :=
  (if landing.absolute then [.root] else []) ++ ((if landing.climbs % 2 = 1 then [.up] else []) ++
    landing.names.map .name)

/-- Taking a move into reduced components takes it into the landing, up to pairs of climbs. -/
theorem reduceStep_components (landing : Landing) (move : String) :
    reduceStep landing.components (meaning move) = (landing.enter (meaning move)).components := by
  obtain ⟨absolute, climbs, names⟩ := landing
  by_cases hup : move = ".."
  · rw [meaning, if_pos hup]
    rcases List.eq_nil_or_concat names with rfl | ⟨front, last, rfl⟩
    · rcases Nat.mod_two_eq_zero_or_one climbs with heven | hodd
      · have hnext : (climbs + 1) % 2 = 1 := by omega
        cases absolute <;> simp [reduceStep, Landing.enter, Landing.components, heven, hnext]
      · have hnext : (climbs + 1) % 2 = 0 := by omega
        cases absolute <;> simp [reduceStep, Landing.enter, Landing.components, hodd, hnext]
    · have hlast : (Landing.mk absolute climbs (front.concat last)).components =
          (Landing.mk absolute climbs front).components ++ [.name last] := by
        simp [Landing.components]
      rw [hlast]
      simp [reduceStep, Landing.enter]
  · simp [meaning, hup, reduceStep, Landing.enter, Landing.components]

/-- Reduced components are those of the landing. -/
theorem reduced_eq (path : Path) : path.reduced = path.landing.components := by
  have hmoves : ∀ (landing : Landing) (moves : List String),
      (moves.map meaning).foldl reduceStep landing.components =
      ((moves.map meaning).foldl Landing.enter landing).components := by
    intro landing moves
    induction moves generalizing landing with
    | nil => rfl
    | cons move moves ih =>
      rw [List.map_cons, List.foldl_cons, reduceStep_components, ih, List.foldl_cons]
  rw [landing_eq, ← hmoves, reduced]
  rcases path.components_cases with ⟨habsolute, h⟩ | ⟨habsolute, h | h⟩ <;>
    rw [h, habsolute] <;> rfl

/-- The components of a landing tell whether it is from the root, whether its climbs are odd, and
its names. -/
theorem Landing.of_components (landing : Landing) :
    (Component.root ∈ landing.components ↔ landing.absolute = true) ∧
      (Component.up ∈ landing.components ↔ landing.climbs % 2 = 1) ∧
        landing.components.filterMap Component.name? = landing.names := by
  obtain ⟨absolute, climbs, names⟩ := landing
  have hnames : (names.map Component.name).filterMap Component.name? = names := by
    rw [List.filterMap_map]
    exact List.filterMap_some
  rcases Nat.mod_two_eq_zero_or_one climbs with h | h <;> cases absolute <;>
    simp [components, h, hnames, Component.name?, List.filterMap_cons]

/-- Reduced components are the same exactly if the landings are up to pairs of climbs. -/
theorem reduced_eq_iff (a b : Path) :
    a.reduced = b.reduced ↔ a.landing.SameUpToPairs b.landing := by
  rw [reduced_eq, reduced_eq]
  constructor
  · intro h
    obtain ⟨hroot, hup, hnames⟩ := a.landing.of_components
    obtain ⟨hroot', hup', hnames'⟩ := b.landing.of_components
    rw [h] at hroot hup hnames
    refine ⟨Bool.eq_iff_iff.mpr (hroot.symm.trans hroot'), hnames.symm.trans hnames', ?_⟩
    have hodd := hup.symm.trans hup'
    omega
  · rintro ⟨habsolute, hnames, hclimbs⟩
    rw [Landing.components, Landing.components, habsolute, hnames, hclimbs]

end SchemaBindings.Path
