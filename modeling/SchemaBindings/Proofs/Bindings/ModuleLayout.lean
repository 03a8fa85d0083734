import Mathlib.Data.List.Nodup
import SchemaBindings.Bindings.Files
import SchemaBindings.Bindings.Names
import SchemaBindings.Proofs.Text.Starts
import SchemaBindings.Schema.Lexer

/-!
# One module file for every namespace

Rust and Python bindings hold a module file for each namespace and an index file. Module stems are
checked to be distinct before reserved words among them are escaped, and the index file is not
checked at all. So a namespace loses its file exactly if its stem is that of the index file, or if
it is a reserved word and another stem is that word with an underscore behind it. Where this does
not happen, every namespace has a file, which declares exactly its own types.
-/

namespace SchemaBindings.Bindings

open SchemaBindings.Graph (TypeId TypeNode)
open SchemaBindings.Naming (moduleStem)
open SchemaBindings.Schema (isNamePart)
open SchemaBindings.Text

/-! ## Files -/

/-- Files with distinct paths are all kept. -/
theorem collectFiles_eq_self {files : List EmittedFile} (h : (files.map EmittedFile.path).Nodup) :
    collectFiles files = files := by
  suffices hfold : ∀ kept, ((kept ++ files).map EmittedFile.path).Nodup →
      files.foldl addFile kept = kept ++ files from hfold [] h
  clear h
  induction files with
  | nil => simp
  | cons file rest ih =>
    intro kept h
    have hnew : (kept.any fun other => other.path = file.path) = false := by
      rw [List.map_append, List.map_cons, List.nodup_append] at h
      simp only [List.any_eq_false, decide_eq_true_eq]
      exact fun other hother => h.2.2 other.path (List.mem_map_of_mem hother)
        file.path List.mem_cons_self
    rw [List.foldl_cons, addFile, hnew, if_neg Bool.false_ne_true,
      ih (kept ++ [file]) (by simpa using h)]
    simp

/-! ## Escaping -/

/-- Where no reserved word is another one with an underscore behind it, names are escaped alike only
if one is a reserved word and the other is that word with an underscore. -/
theorem escape_eq_iff {reserved : List String}
    (hsuffixed : ∀ word ∈ reserved, word ++ "_" ∉ reserved) {a b : String} (hne : a ≠ b) :
    escape reserved a = escape reserved b ↔
      (a ∈ reserved ∧ b = a ++ "_") ∨ (b ∈ reserved ∧ a = b ++ "_") := by
  have hcancel : a ++ "_" ≠ b ++ "_" := fun heq => hne (String.append_left_inj "_" |>.mp heq)
  unfold escape
  by_cases ha : a ∈ reserved
  · by_cases hb : b ∈ reserved
    · rw [if_pos ha, if_pos hb]
      constructor
      · exact fun heq => absurd heq hcancel
      · intro h
        rcases h with ⟨-, rfl⟩ | ⟨-, rfl⟩
        · exact absurd hb (hsuffixed a ha)
        · exact absurd ha (hsuffixed b hb)
    · rw [if_pos ha, if_neg hb]
      simp [ha, hb, eq_comm]
  · by_cases hb : b ∈ reserved
    · rw [if_neg ha, if_pos hb]
      simp [ha, hb]
    · rw [if_neg ha, if_neg hb]
      simp [ha, hb, hne]

/-- Where module stems are distinct, so are escaped ones, exactly if no two are a reserved word and
that word with an underscore. -/
theorem escapedStems_nodup_iff {reserved : List String}
    (hsuffixed : ∀ word ∈ reserved, word ++ "_" ∉ reserved) {namespaces : List String}
    (hstems : (namespaces.map moduleStem).Nodup) :
    (namespaces.map fun namespacePath => escape reserved (moduleStem namespacePath)).Nodup ↔
      ∀ a ∈ namespaces, moduleStem a ∈ reserved →
        ∀ b ∈ namespaces, moduleStem b ≠ moduleStem a ++ "_" := by
  constructor
  · intro h a ha hreserved b hb hstem
    have hne : moduleStem a ≠ moduleStem b :=
      fun heq => hsuffixed _ hreserved (by rw [← hstem, ← heq]; exact hreserved)
    have hescaped := (escape_eq_iff hsuffixed hne).mpr (.inl ⟨hreserved, hstem⟩)
    exact hne (congrArg moduleStem (List.inj_on_of_nodup_map h ha hb hescaped))
  · intro h
    refine List.Nodup.map_on (fun a ha b hb hescaped => ?_) hstems.of_map
    by_contra hne
    have hstem : moduleStem a ≠ moduleStem b :=
      fun heq => hne (List.inj_on_of_nodup_map hstems ha hb heq)
    rcases (escape_eq_iff hsuffixed hstem).mp hescaped with ⟨hr, hs⟩ | ⟨hr, hs⟩
    · exact h a ha hr b hb hs
    · exact h b hb hr a ha hs

/-! ## Layouts -/

/-- How a language lays out modules: the words that stems may not be, the stem of the index file,
the file extension, and the line that declares a type: a keyword, the type's name and how its body
opens. -/
structure ModuleLayout where
  reserved : List String
  indexStem : String
  extension : String
  keyword : String
  typeName : NamingOptions → TypeNode → String
  opening : TypeNode → String
  suffixed : ∀ word ∈ reserved, word ++ "_" ∉ indexStem :: reserved
  index_free : indexStem ∉ reserved
  opening_cancel : ∀ a b names others, names ++ opening a = others ++ opening b → names = others

namespace ModuleLayout

variable (layout : ModuleLayout)

/-- The path of a namespace's module file. -/
def path (namespacePath : String) : String :=
  escape layout.reserved (moduleStem namespacePath) ++ layout.extension

/-- The path of the index file. -/
def indexPath : String := layout.indexStem ++ layout.extension

/-- The line that declares a type. -/
def declaration (options : NamingOptions) (type : TypeNode) : String :=
  layout.keyword ++ (layout.typeName options type ++ layout.opening type)

/-- Whether the namespaces of a graph keep apart: none has the stem of the index file, and no two
have a reserved word and that word with an underscore as their stems. -/
def Separate (graph : TypeGraph) : Prop :=
  ∀ a ∈ graph.namespaces, moduleStem a ≠ layout.indexStem ∧
    (moduleStem a ∈ layout.reserved → ∀ b ∈ graph.namespaces, moduleStem b ≠ moduleStem a ++ "_")

/-- Whether namespaces keep apart can be decided. -/
instance (graph : TypeGraph) : Decidable (layout.Separate graph) :=
  inferInstanceAs (Decidable (∀ a ∈ graph.namespaces, moduleStem a ≠ layout.indexStem ∧
    (moduleStem a ∈ layout.reserved → ∀ b ∈ graph.namespaces, moduleStem b ≠ moduleStem a ++ "_")))

/-- Whether emitted files hold the modules of a graph: one file for each namespace and an index
file, with pairwise different paths, where the file of a namespace declares exactly its types, each
once. -/
structure Holds (options : NamingOptions) (graph : TypeGraph) (emitted : List EmittedFile) :
    Prop where
  paths_eq : emitted.map EmittedFile.path = graph.namespaces.map layout.path ++ [layout.indexPath]
  paths_nodup : (emitted.map EmittedFile.path).Nodup
  length_eq : emitted.length = graph.namespaces.length + 1
  declared : ∀ namespacePath ∈ graph.namespaces, ∃ lines,
    EmittedFile.ofLines (layout.path namespacePath) lines ∈ emitted ∧
      linesStarting layout.keyword lines = (graph.typesIn namespacePath).map
        (layout.declaration options) ∧
      (linesStarting layout.keyword lines).Nodup
  index_plain : ∃ lines, EmittedFile.ofLines layout.indexPath lines ∈ emitted ∧
    linesStarting layout.keyword lines = []

/-- A module has the path of the index file exactly if its stem is that of the index file. -/
theorem path_eq_indexPath_iff (a : String) :
    layout.path a = layout.indexPath ↔ moduleStem a = layout.indexStem := by
  rw [path, indexPath, String.append_left_inj, escape]
  split
  · next hreserved =>
    constructor
    · intro h
      exact absurd (h ▸ List.mem_cons_self) (layout.suffixed _ hreserved)
    · intro h
      exact absurd (h ▸ hreserved) layout.index_free
  · rfl

/-- No reserved word is another one with an underscore behind it. -/
theorem suffixed_not_reserved : ∀ word ∈ layout.reserved, word ++ "_" ∉ layout.reserved :=
  fun word hword hmem => layout.suffixed word hword (List.mem_cons_of_mem _ hmem)

/-- Where module stems are distinct, all files have different paths exactly if the namespaces keep
apart. -/
theorem paths_nodup_iff {graph : TypeGraph} (hstems : (graph.namespaces.map moduleStem).Nodup) :
    (graph.namespaces.map layout.path ++ [layout.indexPath]).Nodup ↔ layout.Separate graph := by
  have hescaped := escapedStems_nodup_iff layout.suffixed_not_reserved hstems
  have hpaths : (graph.namespaces.map layout.path).Nodup ↔
      (graph.namespaces.map
        fun namespacePath => escape layout.reserved (moduleStem namespacePath)).Nodup := by
    have hextension : Function.Injective (· ++ layout.extension) :=
      fun a b h => (String.append_left_inj _).mp h
    rw [← List.nodup_map_iff hextension (l := graph.namespaces.map fun namespacePath =>
      escape layout.reserved (moduleStem namespacePath)), List.map_map]
    rfl
  have hindex : (∀ path ∈ graph.namespaces.map layout.path, path ≠ layout.indexPath) ↔
      ∀ a ∈ graph.namespaces, moduleStem a ≠ layout.indexStem := by
    rw [List.forall_mem_map]
    simp only [ne_eq, path_eq_indexPath_iff]
  rw [List.nodup_append, hpaths, hescaped]
  simp only [List.nodup_singleton, true_and, List.mem_singleton, forall_eq, hindex, Separate]
  constructor
  · intro h a ha
    exact ⟨h.2 a ha, h.1 a ha⟩
  · intro h
    exact ⟨fun a ha => (h a ha).2, fun a ha => (h a ha).1⟩

/-- Types with different names are declared differently. -/
theorem declaration_nodup (options : NamingOptions) {types : List TypeNode}
    (h : (types.map (layout.typeName options)).Nodup) :
    (types.map (layout.declaration options)).Nodup := by
  refine List.Nodup.map_on (fun a ha b hb hline => ?_) h.of_map
  have hbehind := (String.append_right_inj layout.keyword).mp hline
  exact List.inj_on_of_nodup_map h ha hb (layout.opening_cancel a b _ _ hbehind)

/-- Where module stems and the names of each namespace are distinct and every module declares its
types, the files that are kept hold all modules exactly if the namespaces keep apart. -/
theorem holds_collectFiles_iff (options : NamingOptions) {graph : TypeGraph}
    {lines : String → List String} {index : List String}
    (hstems : (graph.namespaces.map moduleStem).Nodup)
    (hnames : ∀ namespacePath ∈ graph.namespaces,
      ((graph.typesIn namespacePath).map (layout.typeName options)).Nodup)
    (hlines : ∀ namespacePath ∈ graph.namespaces,
      linesStarting layout.keyword (lines namespacePath) =
        (graph.typesIn namespacePath).map (layout.declaration options))
    (hindex : linesStarting layout.keyword index = []) :
    layout.Holds options graph (collectFiles
        ((graph.namespaces.map fun namespacePath => .ofLines (layout.path namespacePath)
          (lines namespacePath)) ++ [.ofLines layout.indexPath index])) ↔
      layout.Separate graph := by
  generalize hfiles : (graph.namespaces.map fun namespacePath =>
    EmittedFile.ofLines (layout.path namespacePath) (lines namespacePath)) ++
      [.ofLines layout.indexPath index] = files
  have hpaths : files.map EmittedFile.path = graph.namespaces.map layout.path ++
      [layout.indexPath] := by
    rw [← hfiles, List.map_append, List.map_map]
    rfl
  rw [← layout.paths_nodup_iff hstems]
  constructor
  · intro h
    rw [← h.paths_eq]
    exact h.paths_nodup
  · intro h
    rw [collectFiles_eq_self (hpaths ▸ h)]
    refine ⟨hpaths, hpaths ▸ h, ?_, fun namespacePath hmem => ?_, ⟨index, ?_, hindex⟩⟩
    · simp [← hfiles]
    · refine ⟨lines namespacePath, ?_, hlines namespacePath hmem, ?_⟩
      · rw [← hfiles]
        exact List.mem_append_left _ (List.mem_map_of_mem hmem)
      · rw [hlines namespacePath hmem]
        exact layout.declaration_nodup options (hnames namespacePath hmem)
    · rw [← hfiles]
      exact List.mem_append_right _ List.mem_cons_self

end ModuleLayout

/-! ## Spelling -/

/-- Whether a namespace is spelled as in a schema: with letters, digits, underscores and dots. -/
def Spelled (namespacePath : String) : Prop :=
  ∀ c ∈ namespacePath.toList, isNamePart c = true ∨ c = '.'

/-- The spelling can be decided. -/
instance (namespacePath : String) : Decidable (Spelled namespacePath) :=
  List.decidableBAll (fun c => isNamePart c = true ∨ c = '.') namespacePath.toList

/-- The stem of a namespace spelled so has letters, digits and underscores. -/
theorem Spelled.isNamePart_of_mem {namespacePath : String} (h : Spelled namespacePath) {c : Char}
    (hc : c ∈ (moduleStem namespacePath).toList) : isNamePart c = true := by
  unfold moduleStem at hc
  split at hc
  · have hroot : Naming.rootStem.toList.all isNamePart = true := by decide
    exact List.all_eq_true.mp hroot c hc
  · rw [String.toList_ofList] at hc
    obtain ⟨source, hsource, rfl⟩ := List.mem_map.mp hc
    split
    · decide
    · next hdot => exact (h source hsource).resolve_right hdot

/-- Escaping adds only underscores. -/
theorem isNamePart_of_mem_escape {reserved : List String} {name : String}
    (h : ∀ c ∈ name.toList, isNamePart c = true) :
    ∀ c ∈ (escape reserved name).toList, isNamePart c = true := by
  unfold escape
  split
  · intro c hc
    rw [String.toList_append] at hc
    rcases List.mem_append.mp hc with hc | hc
    · exact h c hc
    · obtain rfl : c = '_' := by simpa using hc
      decide
  · exact h

end SchemaBindings.Bindings
