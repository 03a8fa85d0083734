import Mathlib.Data.List.Nodup
import SchemaBindings.Bindings.WriteOut
import SchemaBindings.Proofs.Path.Pieces

/-!
# The files to be written

Files are written in the order of their paths, each path once. Where no two paths are the same, all
files are written with the contents they have.
-/

namespace SchemaBindings.Bindings

/-- The names below the output directory at which a file is written. -/
def OutputFile.names (file : OutputFile) : List String :=
  file.path.names

/-- The file that an emitted file is written as. -/
def EmittedFile.output (file : EmittedFile) : OutputFile :=
  ⟨⟨file.path⟩, file.content⟩

/-- Adding a file adds its path, unless it is there. -/
theorem map_components_addOutput (files : List OutputFile) (file : OutputFile) :
    (addOutput files file).map (fun output => output.path.components) =
      if file.path.components ∈ files.map (fun output => output.path.components) then
        files.map fun output => output.path.components
      else files.map (fun output => output.path.components) ++ [file.path.components] := by
  have hany : (files.any fun other => other.path.components = file.path.components) = true ↔
      file.path.components ∈ files.map (fun output => output.path.components) := by
    simp only [List.any_eq_true, decide_eq_true_eq, List.mem_map]
  unfold addOutput
  by_cases hthere : file.path.components ∈ files.map (fun output => output.path.components)
  · rw [if_pos (hany.mpr hthere), if_pos hthere, List.map_map]
    refine List.map_congr_left fun other _ => ?_
    rw [Function.comp_apply]
    split <;> rfl
  · rw [if_neg (mt hany.mp hthere), if_neg hthere, List.map_append]
    rfl

/-- Every file has the path of one that was added. -/
theorem exists_path_eq_of_mem_addOutput {files : List OutputFile} {file output : OutputFile}
    (h : output ∈ addOutput files file) : ∃ other ∈ file :: files, output.path = other.path := by
  unfold addOutput at h
  split at h
  · obtain ⟨other, hother, rfl⟩ := List.mem_map.mp h
    refine ⟨other, List.mem_cons_of_mem _ hother, ?_⟩
    split <;> rfl
  · rcases List.mem_append.mp h with h | h
    · exact ⟨output, List.mem_cons_of_mem _ h, rfl⟩
    · exact ⟨file, List.mem_cons_self, by rw [List.mem_singleton.mp h]⟩

/-- Files that are written have different paths. -/
theorem outputFiles_nodup (files : List EmittedFile) :
    ((outputFiles files).map fun output => output.path.components).Nodup := by
  have hfold : ∀ (added kept : List OutputFile),
      (kept.map fun output => output.path.components).Nodup →
      ((added.foldl addOutput kept).map fun output => output.path.components).Nodup := by
    intro added
    induction added with
    | nil => exact fun kept h => h
    | cons file rest ih =>
      intro kept h
      refine ih _ ?_
      rw [map_components_addOutput]
      split
      · exact h
      · next hnew => exact List.nodup_append.mpr ⟨h, List.nodup_singleton _, fun a ha b hb => by
          rintro rfl
          exact hnew (List.mem_singleton.mp hb ▸ ha)⟩
  exact ((List.mergeSort_perm _ _).map _).nodup_iff.mpr (hfold _ [] List.nodup_nil)

/-- Every file that is written has the path of an emitted one. -/
theorem exists_path_eq_of_mem_outputFiles {files : List EmittedFile} {output : OutputFile}
    (h : output ∈ outputFiles files) : ∃ file ∈ files, output.path = ⟨file.path⟩ := by
  have hfold : ∀ (added kept : List OutputFile), output ∈ added.foldl addOutput kept →
      ∃ other ∈ kept ++ added, output.path = other.path := by
    intro added
    induction added with
    | nil => exact fun kept h => ⟨output, by simpa using h, rfl⟩
    | cons file rest ih =>
      intro kept h
      obtain ⟨other, hother, hpath⟩ := ih _ h
      rcases List.mem_append.mp hother with hother | hother
      · obtain ⟨earlier, hearlier, hsame⟩ := exists_path_eq_of_mem_addOutput hother
        refine ⟨earlier, ?_, hpath.trans hsame⟩
        rcases List.mem_cons.mp hearlier with rfl | hearlier
        · exact List.mem_append_right _ List.mem_cons_self
        · exact List.mem_append_left _ hearlier
      · exact ⟨other, List.mem_append_right _ (List.mem_cons_of_mem _ hother), hpath⟩
  obtain ⟨other, hother, hpath⟩ := hfold _ [] ((List.mergeSort_perm _ _).mem_iff.mp h)
  obtain ⟨file, hfile, rfl⟩ := List.mem_map.mp (by simpa using hother)
  exact ⟨file, hfile, hpath⟩

/-- What is written of files with plain paths has plain paths. -/
theorem plain_of_mem_outputFiles {files : List EmittedFile}
    (hplain : ∀ file ∈ files, (Path.mk file.path).Plain) {output : OutputFile}
    (h : output ∈ outputFiles files) : output.path.Plain := by
  obtain ⟨file, hfile, hpath⟩ := exists_path_eq_of_mem_outputFiles h
  rw [hpath]
  exact hplain file hfile

/-- Files with plain paths are written at different names. -/
theorem outputFiles_names_nodup {files : List EmittedFile}
    (hplain : ∀ file ∈ files, (Path.mk file.path).Plain) :
    ((outputFiles files).map OutputFile.names).Nodup := by
  refine List.Nodup.of_map (List.map Path.Component.name) ?_
  rw [List.map_map]
  have hsame : ∀ output ∈ outputFiles files,
      (List.map Path.Component.name ∘ OutputFile.names) output =
      output.path.components :=
      fun output houtput => (plain_of_mem_outputFiles hplain houtput).components_eq.symm
  rw [List.map_congr_left hsame]
  exact outputFiles_nodup files

/-- Where no two paths are the same, all files are written as they are. -/
theorem outputFiles_perm {files : List EmittedFile}
    (h : (files.map fun file => (Path.mk file.path).components).Nodup) :
    (outputFiles files).Perm (files.map EmittedFile.output) := by
  have hfold : ∀ (added kept : List OutputFile),
      ((kept ++ added).map fun output => output.path.components).Nodup →
      added.foldl addOutput kept = kept ++ added := by
    intro added
    induction added with
    | nil => simp
    | cons file rest ih =>
      intro kept h
      have hnew : (kept.any fun other => other.path.components = file.path.components) = false := by
        rw [List.map_append, List.map_cons, List.nodup_append] at h
        simp only [List.any_eq_false, decide_eq_true_eq]
        exact fun other hother => h.2.2 _ (List.mem_map_of_mem hother) _ List.mem_cons_self
      rw [List.foldl_cons, addOutput, hnew, if_neg Bool.false_ne_true,
        ih (kept ++ [file]) (by simpa using h)]
      simp
  have hall := hfold (files.map EmittedFile.output) [] (by rwa [List.nil_append, List.map_map])
  rw [outputFiles]
  exact (List.mergeSort_perm _ _).trans (List.Perm.of_eq hall)

end SchemaBindings.Bindings
