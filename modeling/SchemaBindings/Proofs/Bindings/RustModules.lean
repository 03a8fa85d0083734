import SchemaBindings.Proofs.Bindings.Built
import SchemaBindings.Proofs.Bindings.ModuleLayout
import SchemaBindings.Proofs.Graph.Recursion
import SchemaBindings.Proofs.Text.Split

/-!
# The modules of Rust bindings

A line that starts like the declaration of a struct is one: docs, fields and default functions start
otherwise.
-/

namespace SchemaBindings.Bindings.RustModules

open SchemaBindings.Graph (TypeId TypeNode)
open SchemaBindings.Naming (moduleStem)
open SchemaBindings.Text

/-! ## Layout -/

/-- How the body of a type's struct opens; one without fields closes at once. -/
def opening (type : TypeNode) : String :=
  if type.fields.isEmpty then " \x7b\x7d" else " \x7b"

/-- In front of different openings there are different texts anyway. -/
theorem opening_cancel (a b : TypeNode) (names others : String)
    (h : names ++ opening a = others ++ opening b) : names = others := by
  have hlast : opening a = opening b := by
    have hchars := congrArg (fun text => text.toList.getLast?) h
    unfold opening at hchars ⊢
    split <;> split <;> simp_all
  rw [hlast] at h
  exact (String.append_left_inj _).mp h

/-- The layout of Rust modules. -/
def layout : ModuleLayout :=
  ⟨reserved, "mod", ".rs", "pub struct ", structName,
    opening, by decide, by decide, opening_cancel⟩

/-- A text without a number sign is no raw identifier. -/
theorem unraw_eq_self {text : String} (h : '#' ∉ text.toList) : unraw text = text := by
  unfold unraw Ident.ofText
  split
  · next name heq =>
    rw [heq] at h
    simp at h
  · rfl

/-- The mark of a raw identifier is taken off again. -/
theorem unraw_append (name : String) : unraw ("r#" ++ name) = name := by
  simp [unraw, Ident.ofText]

/-- The module of a namespace that is spelled as in a schema has the path of the layout. -/
theorem path_moduleOf (names : NameTable) (graph : TypeGraph) {namespacePath : String}
    (h : Spelled namespacePath) :
    (moduleOf names graph namespacePath).path = layout.path namespacePath := by
  have hdisjoint : ∀ word ∈ keywords, word ∉ reserved := by decide
  have hstem : unraw (stemOf namespacePath) = escape reserved (moduleStem namespacePath) := by
    unfold stemOf identFor
    split
    · next hkeyword =>
      rw [escape, if_neg (hdisjoint _ hkeyword), Ident.text, if_pos rfl, unraw_append]
    · refine unraw_eq_self fun hmem => ?_
      have hpart :=
        @isNamePart_of_mem_escape reserved _ (fun _ hc => h.isNamePart_of_mem hc) '#' hmem
      exact absurd hpart (by decide)
  rw [Module.path, moduleOf, hstem]
  rfl

/-- A line of a doc comment starts with a slash or a blank. -/
theorem firstChar?_of_mem_docComment {indent : String} (hindent : indent = "" ∨ indent = "    ")
    {doc : List String} {line : String} (h : line ∈ docComment indent doc) :
    firstChar? line = some '/' ∨ firstChar? line = some ' ' := by
  obtain ⟨text, -, rfl⟩ := List.mem_map.mp h
  rcases hindent with rfl | rfl
  · left
    split
    · rfl
    · exact firstChar?_append rfl _
  · right
    split
    · rfl
    · exact firstChar?_append rfl _

/-- The lines of a field start with a blank. -/
theorem firstChar?_of_mem_fieldLines {owner : String} {field : StructField} {line : String}
    (h : line ∈ field.lines owner) : firstChar? line = some '/' ∨ firstChar? line = some ' ' := by
  unfold StructField.lines at h
  rcases List.mem_append.mp h with h | h
  · rcases List.mem_append.mp h with h | h
    · exact firstChar?_of_mem_docComment (.inr rfl) h
    · split at h
      · exact absurd h List.not_mem_nil
      · obtain rfl := List.mem_singleton.mp h
        exact .inr (firstChar?_append (firstChar?_append rfl _) _)
  · obtain rfl := List.mem_singleton.mp h
    simp only [String.append_assoc]
    exact .inr (firstChar?_append rfl _)

/-- The lines of default functions are empty or start with a blank. -/
theorem firstChar?_of_mem_functionLines {functions : List DefaultFunction} {line : String}
    (h : line ∈ functionLines functions) : firstChar? line = none ∨ firstChar? line = some ' ' := by
  rcases mem_flatten_intersperse h with h | ⟨part, hpart, h⟩
  · obtain rfl := List.mem_singleton.mp h
    exact .inl rfl
  · obtain ⟨function, -, rfl⟩ := List.mem_map.mp hpart
    right
    simp only [DefaultFunction.lines, List.mem_cons, List.not_mem_nil, or_false,
      String.append_assoc] at h
    rcases h with rfl | rfl | rfl
    · exact firstChar?_append rfl _
    · exact firstChar?_append rfl _
    · rfl

/-- Of the lines of a struct, exactly the one that opens it starts like a declaration. -/
theorem linesStarting_struct (struct : Struct) :
    linesStarting layout.keyword struct.lines =
      [layout.keyword ++ (struct.name ++ if struct.fields.isEmpty then " \x7b\x7d"
        else " \x7b")] := by
  have hplain : ∀ lines : List String, (∀ line ∈ lines, firstChar? line ≠ some 'p') →
      linesStarting layout.keyword lines = [] := fun lines => linesStarting_eq_nil rfl
  have hdoc : linesStarting layout.keyword (docComment "" struct.doc) = [] := by
    refine hplain _ fun line hline => ?_
    rcases firstChar?_of_mem_docComment (.inl rfl) hline with h | h <;> simp [h]
  have hderive :
      linesStarting layout.keyword ["#[derive(Debug, Clone, PartialEq, Serialize, Deserialize)]"] =
        [] := by
    refine hplain _ fun line hline => ?_
    obtain rfl := List.mem_singleton.mp hline
    decide
  have hfields : linesStarting layout.keyword (struct.fields.flatMap
        (StructField.lines struct.name)) = [] := by
    refine hplain _ fun line hline => ?_
    obtain ⟨field, -, hfield⟩ := List.mem_flatMap.mp hline
    rcases firstChar?_of_mem_fieldLines hfield with h | h <;> simp [h]
  have hend : linesStarting layout.keyword ["\x7d"] = [] := by
    refine hplain _ fun line hline => ?_
    obtain rfl := List.mem_singleton.mp hline
    decide
  have himpl : ∀ functions : List DefaultFunction, linesStarting layout.keyword
      (if functions.isEmpty then []
        else ["", "impl " ++ struct.name ++ " \x7b"] ++ functionLines functions ++ ["\x7d"]) =
          [] := by
    intro functions
    refine hplain _ fun line hline => ?_
    split at hline
    · exact absurd hline List.not_mem_nil
    · simp only [List.mem_append, List.mem_cons, List.not_mem_nil, or_false,
        String.append_assoc] at hline
      rcases hline with ((rfl | rfl) | hline) | rfl
      · decide
      · rw [firstChar?_append (c := 'i') rfl _]
        decide
      · rcases firstChar?_of_mem_functionLines hline with h | h <;> simp [h]
      · decide
  rw [Struct.lines, linesStarting_append, linesStarting_cons, hdoc, hderive,
    List.nil_append, List.nil_append]
  split
  · rw [String.append_assoc]
    exact linesStarting_cons_append layout.keyword _ []
  · rw [linesStarting_append, linesStarting_append, linesStarting_append, hfields, hend, himpl,
      List.append_nil, List.append_nil, List.append_nil, String.append_assoc]
    exact linesStarting_cons_append layout.keyword _ []

/-- The lines of a module that start like a declaration declare its structs. -/
theorem linesStarting_module (module : Module) :
    linesStarting layout.keyword module.lines = module.structs.map fun struct =>
      layout.keyword ++ (struct.name ++ if struct.fields.isEmpty then " \x7b\x7d"
        else " \x7b") := by
  have hhead : linesStarting layout.keyword
      ["// " ++ banner, "", "use serde::\x7bDeserialize, Serialize\x7d;"] = [] := by decide
  have hempty : linesStarting layout.keyword [""] = [] := by decide
  rw [Module.lines, linesStarting_append, hhead, List.nil_append, linesStarting_flatMap,
    List.map_eq_flatMap]
  refine congrArg (fun f => List.flatMap f module.structs) (funext fun struct => ?_)
  rw [linesStarting_cons, hempty, List.nil_append, linesStarting_struct]

/-- The index declares modules and no structs. -/
theorem linesStarting_indexLines (modules : List Module) :
    linesStarting layout.keyword (indexLines modules) = [] := by
  have hhead : linesStarting layout.keyword (("// " ++ banner) :: if modules.isEmpty then []
        else [""]) = [] := by
    split <;> decide
  rw [indexLines, linesStarting_append, hhead, List.nil_append]
  refine List.filter_eq_nil_iff.mpr fun line hline hprefix => ?_
  obtain ⟨stem, -, rfl⟩ := List.mem_map.mp hline
  rw [List.isPrefixOf_iff_prefix, String.append_assoc, String.toList_append] at hprefix
  rcases List.prefix_or_prefix_of_prefix hprefix (List.prefix_append _ _) with h | h
  · exact absurd h (by decide)
  · exact absurd h (by decide)

/-! ## Emitted modules -/

/-- The lines of a built graph's module that start like a declaration declare the types of its
namespace. -/
theorem linesStarting_moduleOf {options : NamingOptions} {graph : TypeGraph}
    (hlinked : graph.Linked) {names : NameTable} (hnames : namesOf options graph = .ok names)
    (namespacePath : String) :
    linesStarting layout.keyword (moduleOf names graph namespacePath).lines =
      (graph.typesIn namespacePath).map (layout.declaration options) := by
  rw [linesStarting_module, moduleOf, List.map_map]
  refine List.map_congr_left fun type htype => ?_
  have hname : names.type type.id = structName options type :=
    nameTable_type_eq hlinked.distinct hnames (List.mem_of_mem_filter htype)
  simp only [Function.comp_apply, structOf, List.isEmpty_map, hname]
  rfl

/-- Files emitted for a built graph hold all its modules exactly if its namespaces keep apart. -/
theorem holds_emit_iff {options : NamingOptions} {graph : TypeGraph} (hlinked : graph.Linked)
    (hspelled : ∀ namespacePath ∈ graph.namespaces, Spelled namespacePath)
    {emitted : List EmittedFile} (hemit : emit options graph = .ok emitted) :
    layout.Holds options graph emitted ↔ layout.Separate graph := by
  unfold emit at hemit
  split at hemit
  · contradiction
  next modules hmodules =>
  obtain ⟨hstems, names, hnames, rfl⟩ := build_eq_ok hmodules
  obtain rfl := Except.ok.inj hemit
  obtain ⟨-, hgroups, -⟩ := (nameTable_build_eq_ok_iff _ _ _ _ _ _).mp hnames
  have hfiles : (graph.namespaces.map (moduleOf names graph)).map
        (fun module => EmittedFile.ofLines module.path module.lines) =
      graph.namespaces.map fun namespacePath =>
        .ofLines (layout.path namespacePath) (moduleOf names graph namespacePath).lines := by
    rw [List.map_map]
    refine List.map_congr_left fun namespacePath hmem => ?_
    rw [Function.comp_apply, path_moduleOf names graph (hspelled namespacePath hmem)]
  rw [hfiles]
  exact layout.holds_collectFiles_iff options hstems
    (fun namespacePath hmem => hgroups _ (List.mem_map_of_mem hmem))
    (fun namespacePath _ => linesStarting_moduleOf hlinked hnames namespacePath)
    (linesStarting_indexLines _)

end SchemaBindings.Bindings.RustModules
