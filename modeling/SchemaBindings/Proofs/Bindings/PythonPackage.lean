import SchemaBindings.Proofs.Bindings.Built
import SchemaBindings.Proofs.Bindings.ModuleLayout
import SchemaBindings.Proofs.Graph.Recursion

/-!
# The modules of a Python package

A line that starts like the declaration of a class is one: imports, docstrings and attributes start
otherwise.
-/

namespace SchemaBindings.Bindings.PythonPackage

open SchemaBindings.Graph (TypeId TypeNode)
open SchemaBindings.Naming (moduleStem)
open SchemaBindings.Schema (isNamePart)
open SchemaBindings.Text

/-! ## Layout -/

/-- The layout of Python modules. -/
def layout : ModuleLayout :=
  ⟨reserved, "__init__", ".py", "class ", className, fun _ => "(BaseModel):", by decide, by decide,
    fun _ _ _ _ h => (String.append_left_inj _).mp h⟩

/-! ## Lines -/

/-- The lines of a docstring are empty or start with a blank. -/
theorem firstChar?_of_mem_docstring {doc : List String} {line : String} (h : line ∈ docstring doc) :
    firstChar? line = none ∨ firstChar? line = some ' ' := by
  unfold docstring at h
  split at h
  · obtain rfl := List.mem_singleton.mp h
    exact .inr (firstChar?_append (firstChar?_append rfl _) _)
  · simp only [List.cons_append, List.mem_cons, List.mem_append, List.mem_map,
      List.not_mem_nil, or_false] at h
    rcases h with rfl | ⟨text, -, rfl⟩ | rfl
    · exact .inr rfl
    · split
      · exact .inl rfl
      · exact .inr (firstChar?_append rfl _)
    · exact .inr rfl

/-- The lines of an attribute start with a blank. -/
theorem firstChar?_of_mem_attributeLines {member : Attribute} {line : String}
    (h : line ∈ member.lines) :
    firstChar? line = some ' ' := by
  unfold Attribute.lines at h
  rcases List.mem_append.mp h with h | h
  · obtain ⟨text, -, rfl⟩ := List.mem_map.mp h
    exact firstChar?_append rfl _
  · obtain rfl := List.mem_singleton.mp h
    split
    · simp only [String.append_assoc]
      exact firstChar?_append rfl _
    · simp only [String.append_assoc]
      exact firstChar?_append rfl _

/-- Of the lines of a class, exactly the first one starts like a declaration. -/
theorem linesStarting_class (model : Class) :
    linesStarting layout.keyword model.lines =
      [layout.keyword ++ (model.name ++ "(BaseModel):")] := by
  have hplain : ∀ lines : List String,
      (∀ line ∈ lines, firstChar? line = none ∨ firstChar? line = some ' ') →
      linesStarting layout.keyword lines = [] := fun lines hlines =>
    linesStarting_eq_nil (c := 'c') rfl
      fun line hline => by rcases hlines line hline with h | h <;> simp [h]
  have hdoc : linesStarting layout.keyword (if model.doc.isEmpty then []
      else docstring model.doc ++ if model.attributes.isEmpty then [] else [""]) = [] := by
    split
    · rfl
    · rw [linesStarting_append, hplain _ fun _ hline => firstChar?_of_mem_docstring hline,
        List.nil_append]
      split <;> decide
  have hconfig : linesStarting layout.keyword
      (if model.configured then ["    model_config = ConfigDict(populate_by_name=True)", ""]
        else []) = [] := by
    split <;> decide
  have hattributes : linesStarting layout.keyword (model.attributes.flatMap Attribute.lines) =
      [] := by
    refine hplain _ fun line hline => ?_
    obtain ⟨member, -, hmember⟩ := List.mem_flatMap.mp hline
    exact .inr (firstChar?_of_mem_attributeLines hmember)
  have hpass : linesStarting layout.keyword
      (if model.attributes.isEmpty && model.doc.isEmpty then ["    pass"] else []) = [] := by
    split <;> decide
  have hfirst : linesStarting layout.keyword ["class " ++ model.name ++ "(BaseModel):"] =
      [layout.keyword ++ (model.name ++ "(BaseModel):")] := by
    rw [String.append_assoc]
    exact linesStarting_cons_append layout.keyword _ []
  rw [Class.lines, List.cons_append, List.cons_append, List.cons_append, linesStarting_cons,
    linesStarting_append, linesStarting_append, linesStarting_append, hfirst, hdoc,
    hconfig, hattributes, hpass]
  rfl

/-- Imports of sibling modules declare nothing. -/
theorem linesStarting_imports {α : Type} (modules : List α) (stem : α → String) :
    linesStarting layout.keyword (modules.map fun module => "from . import " ++ stem module) =
      [] := by
  refine linesStarting_eq_nil (c := 'c') rfl fun line hline => ?_
  obtain ⟨module, -, rfl⟩ := List.mem_map.mp hline
  rw [firstChar?_append (c := 'f') rfl]
  decide

/-- The lines of a module that start like a declaration declare its classes. -/
theorem linesStarting_module (module : Module) :
    linesStarting layout.keyword module.lines =
      module.classes.map fun model => layout.keyword ++ (model.name ++ "(BaseModel):") := by
  have hhead : linesStarting layout.keyword ["# " ++ banner, "",
        "from __future__ import annotations", ""] = [] := by
    decide
  have htyping : linesStarting layout.keyword (if module.typingImports.isEmpty then []
      else ["from typing import " ++ commaList (module.typingImports.map TypingName.text), ""]) =
        [] := by
    refine linesStarting_eq_nil (c := 'c') rfl fun line hline => ?_
    split at hline
    · exact absurd hline List.not_mem_nil
    · rcases List.mem_pair.mp hline with rfl | rfl
      · rw [firstChar?_append (c := 'f') rfl]
        decide
      · decide
  have hpydantic : linesStarting layout.keyword
      ["from pydantic import " ++ commaList (module.pydanticImports.map PydanticName.text)] =
        [] := by
    refine linesStarting_eq_nil (c := 'c') rfl fun line hline => ?_
    obtain rfl := List.mem_singleton.mp hline
    rw [firstChar?_append (c := 'f') rfl]
    decide
  have hsiblings : linesStarting layout.keyword (if module.siblings.isEmpty then []
      else "" :: module.siblings.map fun stem => "from . import " ++ stem) = [] := by
    split
    · rfl
    · rw [linesStarting_cons, linesStarting_imports]
      decide
  have hgap : linesStarting layout.keyword ["", ""] = [] := by decide
  rw [Module.lines, linesStarting_append, linesStarting_append, linesStarting_append,
    linesStarting_append, hhead, htyping, hpydantic, hsiblings, List.nil_append, List.nil_append,
    List.nil_append, List.nil_append, linesStarting_flatMap, List.map_eq_flatMap]
  refine congrArg (fun f => List.flatMap f module.classes) (funext fun model => ?_)
  rw [show "" :: "" :: model.lines = ["", ""] ++ model.lines from rfl, linesStarting_append,
    hgap, List.nil_append, linesStarting_class]

/-- The index completes models and declares none, since no stem has a blank in it. -/
theorem linesStarting_initLines {package : Package}
    (hstems : ∀ model ∈ package.models, ∀ c ∈ model.1.toList, isNamePart c = true) :
    linesStarting layout.keyword package.initLines = [] := by
  have hrebuild : linesStarting layout.keyword
      (package.models.map fun model => model.1 ++ "." ++ model.2 ++ ".model_rebuild()") = [] := by
    refine List.filter_eq_nil_iff.mpr fun line hline hprefix => ?_
    obtain ⟨model, hmodel, rfl⟩ := List.mem_map.mp hline
    simp only [List.isPrefixOf_iff_prefix, String.append_assoc, String.toList_append] at hprefix
    have hblank : layout.keyword.toList.find? (fun c => !isNamePart c) = some ' ' := by decide
    have hdot := hprefix.find?_eq_some hblank
    rw [List.find?_append,
      List.find?_eq_none.mpr fun c hc => by simp [hstems model hmodel c hc]] at hdot
    simp [isNamePart] at hdot
  rw [Package.initLines]
  split
  · decide
  · have hbanner : linesStarting layout.keyword ["# " ++ banner] = [] := by decide
    have hempty : linesStarting layout.keyword [""] = [] := by decide
    rw [linesStarting_cons, hbanner, List.cons_append, linesStarting_cons, hempty,
      linesStarting_append, linesStarting_imports, linesStarting_cons, hempty, hrebuild]
    rfl

/-! ## Emitted packages -/

/-- The lines of a built graph's module that start like a declaration declare the types of its
namespace. -/
theorem linesStarting_moduleOf {options : NamingOptions} {graph : TypeGraph}
    (hlinked : graph.Linked) {names : NameTable} (hnames : namesOf options graph = .ok names)
    (namespacePath : String) :
    linesStarting layout.keyword (moduleOf names graph namespacePath).lines =
      (graph.typesIn namespacePath).map (layout.declaration options) := by
  rw [linesStarting_module, moduleOf, List.map_map]
  refine List.map_congr_left fun type htype => ?_
  have hname : names.type type.id = className options type :=
    nameTable_type_eq hlinked.distinct hnames (List.mem_of_mem_filter htype)
  simp only [Function.comp_apply, classOf, hname]
  rfl

/-- Files emitted for a built graph hold all its modules exactly if its namespaces keep apart. -/
theorem holds_emit_iff {options : NamingOptions} {graph : TypeGraph} (hlinked : graph.Linked)
    (hspelled : ∀ namespacePath ∈ graph.namespaces, Spelled namespacePath)
    {emitted : List EmittedFile} (hemit : emit options graph = .ok emitted) :
    layout.Holds options graph emitted ↔ layout.Separate graph := by
  unfold emit at hemit
  split at hemit
  · contradiction
  next package hpackage =>
  obtain ⟨hstems, names, hnames, rfl⟩ := build_eq_ok hpackage
  obtain rfl := Except.ok.inj hemit
  obtain ⟨-, hgroups, -⟩ := (nameTable_build_eq_ok_iff _ _ _ _ _ _).mp hnames
  rw [List.map_map]
  refine layout.holds_collectFiles_iff options hstems
    (fun namespacePath hmem => hgroups _ (List.mem_map_of_mem hmem))
    (fun namespacePath _ => linesStarting_moduleOf hlinked hnames namespacePath)
    (linesStarting_initLines fun model hmodel => ?_)
  obtain ⟨type, htype, rfl⟩ := List.mem_map.mp hmodel
  exact isNamePart_of_mem_escape
    fun _ hc => (hspelled _ (namespacePath_mem htype)).isNamePart_of_mem hc

end SchemaBindings.Bindings.PythonPackage
