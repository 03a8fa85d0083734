import Mathlib.Data.List.Basic
import SchemaBindings.Path.Basic

/-!
# Pieces and names of paths

The names of a path are its pieces without the empty ones and the dots. Joining a path to another
one, as written, puts its pieces behind those of the other.
-/

namespace SchemaBindings.Path

/-! ## Pieces -/

/-- A text is split at its slashes. -/
theorem split_eq_splitOn (text : List Char) : split text = text.splitOn '/' := by
  induction text with
  | nil => rfl
  | cons c rest ih =>
    rw [split, List.splitOn_cons_eq_if_modifyHead, ih]
    obtain ⟨first, others, hparts⟩ := List.exists_cons_of_ne_nil (List.splitOn_ne_nil '/' rest)
    by_cases hslash : c = '/'
    · simp [hslash]
    · simp [hslash, hparts]

/-- What is in front of a slash and what is behind it are split separately. -/
theorem split_append_slash (front behind : List Char) :
    split (front ++ '/' :: behind) = split front ++ split behind := by
  simp only [split_eq_splitOn, List.splitOn_append_cons_self]

/-- A path has pieces. -/
theorem pieces_ne_nil (path : Path) : path.pieces ≠ [] := by
  rw [pieces, split_eq_splitOn]
  simp

/-- A text without slashes is one piece. -/
theorem pieces_of_no_slash {text : String} (h : '/' ∉ text.toList) :
    (Path.mk text).pieces = [text] := by
  rw [pieces, split_eq_splitOn, List.splitOn_eq_singleton h]
  simp

/-! ## Names -/

/-- The name that a component is, if it is one. -/
def Component.name? : Component → Option String
  | .name text => some text
  | _ => none

/-- The names among the components of a path. -/
def names (path : Path) : List String :=
  path.components.filterMap Component.name?

/-- Whether a path never steps up. -/
def Forward (path : Path) : Prop :=
  Component.up ∉ path.components

instance (path : Path) : Decidable path.Forward :=
  inferInstanceAs (Decidable (Component.up ∉ path.components))

/-- Whether a path is relative and made of names alone. -/
def Plain (path : Path) : Prop :=
  ∀ component ∈ path.components, ∃ text, component = .name text

/-- The name that a piece means, if it means one. -/
def pieceName? (piece : String) : Option String :=
  if piece = "" ∨ piece = "." ∨ piece = ".." then none else some piece

/-- The name that an inner piece means. -/
theorem name?_inner (piece : String) :
    (Part.inner piece).component?.bind Component.name? = pieceName? piece := by
  unfold Part.inner pieceName?
  by_cases hblank : piece = "" ∨ piece = "."
  · simp [hblank, ← or_assoc]
  · by_cases hup : piece = ".."
    · simp [hup, Component.name?]
    · simp [hblank, hup, Component.name?]

/-- The name that a first piece means. -/
theorem name?_first (piece : String) (slashFollows : Bool) :
    (Part.first piece slashFollows).component?.bind Component.name? = pieceName? piece := by
  unfold Part.first
  split
  · next h => cases slashFollows <;> simp [h, pieceName?, Component.name?]
  · split
    · next h => simp [h, pieceName?, Component.name?]
    · exact name?_inner piece

/-- The names of a path are those that its pieces mean. -/
theorem names_eq (path : Path) : path.names = path.pieces.filterMap pieceName? := by
  obtain ⟨first, rest, hpieces⟩ := List.exists_cons_of_ne_nil path.pieces_ne_nil
  have hrest : (rest.map Part.inner).filterMap (fun part => part.component?.bind Component.name?) =
      rest.filterMap pieceName? := by
    rw [List.filterMap_map]
    exact congrArg (fun f => rest.filterMap f) (funext name?_inner)
  rw [names, components, parts, hpieces, List.filterMap_filterMap]
  simp only [List.filterMap_cons, name?_first, hrest]

/-- An inner piece means a step up exactly if it is two dots. -/
theorem component?_inner_eq_up_iff (piece : String) :
    (Part.inner piece).component? = some .up ↔ piece = ".." := by
  unfold Part.inner
  by_cases hblank : piece = "" ∨ piece = "."
  · rcases hblank with rfl | rfl <;> simp
  · by_cases hup : piece = ".." <;> simp [hblank, hup]

/-- A first piece means a step up exactly if it is two dots. -/
theorem component?_first_eq_up_iff (piece : String) (slashFollows : Bool) :
    (Part.first piece slashFollows).component? = some .up ↔ piece = ".." := by
  unfold Part.first
  split
  · next h => cases slashFollows <;> simp [h]
  · split
    · next h => simp [h]
    · exact component?_inner_eq_up_iff piece

/-- A component of a path is what its first piece means or what an inner one means. -/
theorem mem_components_iff {path : Path} {first : String} {rest : List String}
    (hpieces : path.pieces = first :: rest) (component : Component) :
    component ∈ path.components ↔ (Part.first first !rest.isEmpty).component? = some component ∨
      ∃ piece ∈ rest, (Part.inner piece).component? = some component := by
  rw [components, parts, hpieces, List.mem_filterMap]
  simp only [List.mem_cons, List.mem_map, exists_eq_or_imp, exists_exists_and_eq_and]

/-- A path never steps up exactly if no piece is two dots. -/
theorem forward_iff (path : Path) : path.Forward ↔ ".." ∉ path.pieces := by
  obtain ⟨first, rest, hpieces⟩ := List.exists_cons_of_ne_nil path.pieces_ne_nil
  rw [Forward, mem_components_iff hpieces, hpieces, List.mem_cons, component?_first_eq_up_iff,
    @eq_comm _ ".."]
  simp only [component?_inner_eq_up_iff, exists_eq_right]

/-- An inner piece never means the root. -/
theorem component?_inner_ne_root (piece : String) : (Part.inner piece).component? ≠ some .root := by
  unfold Part.inner
  by_cases hblank : piece = "" ∨ piece = "."
  · simp [hblank]
  · by_cases hup : piece = ".." <;> simp [hblank, hup]

/-- A path that starts at the root has the root among its components. -/
theorem root_mem_components {path : Path} (h : path.isAbsolute = true) :
    Component.root ∈ path.components := by
  obtain ⟨rest, hrest⟩ := List.head?_eq_some_iff.mp (of_decide_eq_true h)
  obtain ⟨next, others, hnext⟩ :=
    List.exists_cons_of_ne_nil (Path.pieces_ne_nil ⟨String.ofList rest⟩)
  have hpieces : path.pieces = "" :: next :: others := by
    rw [← hnext, pieces, hrest, split, if_pos rfl, List.map_cons, pieces, String.toList_ofList]
  rw [mem_components_iff hpieces]
  exact .inl rfl

/-! ## Plain paths -/

/-- A path is relative and made of names alone if each of its components is a name. -/
theorem plain_iff (path : Path) :
    path.Plain ↔ ∀ component ∈ path.components, component.name?.isSome := by
  refine forall₂_congr fun component _ => ?_
  cases component <;> simp [Component.name?]

instance (path : Path) : Decidable path.Plain :=
  decidable_of_iff _ path.plain_iff.symm

namespace Plain

variable {path : Path} (hplain : path.Plain)

include hplain

/-- Plain paths never step up. -/
theorem forward : path.Forward := by
  intro hup
  obtain ⟨text, htext⟩ := hplain _ hup
  contradiction

/-- Plain paths are relative. -/
theorem isAbsolute_eq : path.isAbsolute = false := by
  rw [Bool.eq_false_iff]
  intro habsolute
  obtain ⟨text, htext⟩ := hplain _ (root_mem_components habsolute)
  contradiction

/-- The components of a plain path are its names. -/
theorem components_eq : path.components = path.names.map .name := by
  have hall : ∀ components : List Component,
      (∀ component ∈ components, ∃ text, component = .name text) →
      components = (components.filterMap Component.name?).map .name := by
    intro components h
    induction components with
    | nil => rfl
    | cons component rest ih =>
      obtain ⟨text, rfl⟩ := h component List.mem_cons_self
      rw [List.filterMap_cons, Component.name?, List.map_cons,
        ← ih fun other hother => h other (List.mem_cons_of_mem _ hother)]
  exact hall _ hplain

end Plain

/-! ## Joining -/

/-- The pieces that a path puts in front of those of a path below it. -/
def front (base : Path) : List String :=
  if base.text = "" ∨ base.text.toList.getLast? = some '/' then base.pieces.dropLast
    else base.pieces

/-- Below a path are its pieces and then those of the relative path that is joined to it. -/
theorem pieces_join (base : Path) {path : Path} (hrelative : path.isAbsolute = false) :
    (base.join path).pieces = base.front ++ path.pieces := by
  rw [join, hrelative, front, Bool.false_or]
  by_cases hempty : base.text = ""
  · simp [hempty, pieces, split]
  · rw [if_neg (by simpa using hempty)]
    by_cases hslash : base.text.toList.getLast? = some '/'
    · obtain ⟨before, hbefore⟩ := List.getLast?_eq_some_iff.mp hslash
      rw [if_pos hslash, if_pos (.inr hslash), pieces, pieces, pieces,
        String.toList_append, hbefore, List.append_assoc, List.singleton_append, split_append_slash,
        split_append_slash, List.map_append, List.map_append]
      simp [split]
    · rw [if_neg hslash, if_neg (not_or.mpr ⟨hempty, hslash⟩), pieces, pieces, pieces,
        String.toList_append, String.toList_append, List.append_assoc]
      exact (congrArg (List.map String.ofList) (split_append_slash _ _)).trans List.map_append

/-- In front of a path below it, a path has all its pieces but an empty one at its end. -/
theorem pieces_eq_front (base : Path) :
    base.pieces = base.front ∨ base.pieces = base.front ++ [""] := by
  unfold front
  by_cases hempty : base.text = ""
  · simp [hempty, pieces, split]
  · by_cases hslash : base.text.toList.getLast? = some '/'
    · obtain ⟨before, hbefore⟩ := List.getLast?_eq_some_iff.mp hslash
      rw [if_pos (.inr hslash), pieces, hbefore, split_append_slash, List.map_append]
      simp [split]
    · rw [if_neg (not_or.mpr ⟨hempty, hslash⟩)]
      exact .inl rfl

/-- The names of a joined path are those of its parts. -/
theorem names_join (base : Path) {path : Path} (hrelative : path.isAbsolute = false) :
    (base.join path).names = base.names ++ path.names := by
  rw [names_eq, names_eq, names_eq, pieces_join base hrelative, List.filterMap_append]
  rcases base.pieces_eq_front with hfront | hfront
  · rw [hfront]
  · rw [hfront, List.filterMap_append]
    simp [pieceName?]

/-- Paths that never step up are joined to one that does not. -/
theorem Forward.join {base path : Path} (hbase : base.Forward) (hpath : path.Forward)
    (hrelative : path.isAbsolute = false) : (base.join path).Forward := by
  rw [forward_iff] at *
  rw [pieces_join base hrelative, List.mem_append, not_or]
  refine ⟨fun hin => hbase ?_, hpath⟩
  rcases base.pieces_eq_front with hfront | hfront
  · exact hfront ▸ hin
  · exact hfront ▸ List.mem_append_left _ hin

/-- A path that a relative one is joined to decides whether both start at the root. -/
theorem isAbsolute_join (base : Path) {path : Path} (hrelative : path.isAbsolute = false) :
    (base.join path).isAbsolute = base.isAbsolute := by
  rw [join, hrelative, Bool.false_or]
  by_cases hempty : base.text = ""
  · rw [if_pos (by simpa using hempty), hrelative]
    simp [isAbsolute, hempty]
  · obtain ⟨c, rest, htext⟩ :=
      List.exists_cons_of_ne_nil fun h => hempty (String.toList_eq_nil_iff.mp h)
    rw [if_neg (by simpa using hempty)]
    split <;> simp [isAbsolute, htext]

/-- A path without slashes is relative. -/
theorem isAbsolute_of_no_slash {text : String} (h : '/' ∉ text.toList) :
    (Path.mk text).isAbsolute = false := by
  refine decide_eq_false fun hhead => h ?_
  obtain ⟨rest, hrest⟩ := List.head?_eq_some_iff.mp hhead
  rw [hrest]
  exact List.mem_cons_self

/-- A name that is joined to a path is the last piece in front of what is below. -/
theorem front_join (base : Path) {name : String} (hname : name ≠ "") (hslash : '/' ∉ name.toList) :
    (base.join ⟨name⟩).front = base.front ++ [name] := by
  have hrelative := isAbsolute_of_no_slash hslash
  have hends : ∃ before, (base.join ⟨name⟩).text = before ++ name := by
    rw [join, hrelative, Bool.false_or]
    split
    · exact ⟨"", (String.empty_append).symm⟩
    · split
      · exact ⟨base.text, rfl⟩
      · exact ⟨base.text ++ "/", rfl⟩
  obtain ⟨before, hbefore⟩ := hends
  have hnonempty : name.toList ≠ [] := fun h => hname (String.toList_eq_nil_iff.mp h)
  have hlast : (base.join ⟨name⟩).text.toList.getLast? = name.toList.getLast? := by
    rw [hbefore, String.toList_append, List.getLast?_append_of_ne_nil _ hnonempty]
  rw [front, if_neg, pieces_join base hrelative, pieces_of_no_slash hslash]
  rintro (hempty | hslashed)
  · rw [hempty] at hlast
    exact hnonempty (List.getLast?_eq_none_iff.mp (by simpa using hlast.symm))
  · rw [hlast] at hslashed
    exact hslash (List.mem_of_getLast? hslashed)

end SchemaBindings.Path
