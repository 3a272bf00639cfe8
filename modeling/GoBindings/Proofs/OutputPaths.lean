import GoBindings.Proofs.PathComponents
import GoBindings.Proofs.Writing

set_option autoImplicit false

/-! # Where output files go

Every file of a module lies directly in the output directory. Its names differ in length, so no
module has two files of one path. The check for collisions looks at components only, and it succeeds
exactly if all files of a run have different ones. -/

namespace GoBindings

/-! ## Files of a module -/

namespace Output

theorem pairwise_ofModule {s : Settings} (hsuffix : '/' ∉ s.code.typesSuffix.toList)
    (source : Path) (units : Binding.ModuleUnits) :
    (ofModule s source units).Pairwise fun f g => f.path.same g.path = false := by
  obtain ⟨base, longer, hbase, hlonger, hlength, hfiles⟩ :=
    exists_names_ofModule hsuffix source units
  rw [hfiles, List.pairwise_cons]
  split
  · exact ⟨fun _ h => absurd h List.not_mem_nil, List.Pairwise.nil⟩
  · refine ⟨?_, List.pairwise_singleton _ _⟩
    intro types htypes
    rw [List.mem_singleton.1 htypes, Path.same, beq_eq_false_iff_ne]
    intro hsame
    simp only [outputFile, Path.components_join (isPlain_append_go hbase),
      Path.components_join (isPlain_append_go hlonger)] at hsame
    have hname := List.append_inj_right' hsame rfl
    simp only [List.cons.injEq, Path.Component.normal.injEq, and_true] at hname
    have hequal := congrArg String.length hname
    rw [String.length_append, String.length_append] at hequal
    omega

theorem nodup_places_iff {files : List OutputFile} :
    (places files).Nodup ↔ files.Pairwise fun f g => f.path.same g.path = false := by
  rw [places, List.nodup_iff_pairwise_ne, List.pairwise_map]
  simp [Path.same]

end Output

/-! ## Files of a run -/

namespace Compilation

open Output

/-- **Files stay in the output directory and never meet.** With valid settings, whatever the path of
    a source is, its files have the components of the output directory and one more, an ordinary
    name that ends with `.go`; their parent is the output directory, and there are no two of one
    path. Collisions are found in every list that has one. So the files of a run all have different
    paths, also where the data types of one source and the classes of another would go by one
    name. -/
theorem output_inside_and_apart (s : Settings) :
    (s.validate = .ok () → ∀ source units,
      (∀ file ∈ ofModule s source units, ∃ base,
        Path.IsPlain (base ++ ".go") ∧ file.path.fileName = some (base ++ ".go") ∧
        file.path.components = s.outputDir.components ++ [.normal (base ++ ".go")] ∧
        ∃ parent, file.path.parent = some parent ∧ parent.same s.outputDir = true) ∧
      (ofModule s source units).Pairwise fun f g => f.path.same g.path = false) ∧
    (∀ files, checkCollisions files = .ok () ↔
      files.Pairwise fun f g => f.path.same g.path = false) ∧
    ∀ sources files, (compileSources s sources).result = .ok files →
      files.Pairwise fun f g => f.path.same g.path = false := by
  refine ⟨?_, ?_, ?_⟩
  · intro hvalid source units
    have hsuffix := separator_not_mem_typesSuffix hvalid
    refine ⟨?_, pairwise_ofModule hsuffix source units⟩
    intro file hfile
    obtain ⟨base, hplain, hpath⟩ := exists_isPlain_of_mem_ofModule hsuffix hfile
    obtain ⟨parent, hparent, hsame⟩ := Path.exists_parent_join hplain s.outputDir
    rw [hpath]
    refine ⟨base, hplain, Path.fileName_join hplain _, Path.components_join hplain _, parent,
      hparent, ?_⟩
    rw [Path.same, hsame, beq_self_eq_true]
  · intro files
    rw [checkCollisions_eq_ok_iff, nodup_places_iff]
  · intro sources files h
    obtain ⟨run, rfl⟩ := result_compileSources_eq_ok_iff.1 h
    exact nodup_places_iff.1 run.files_apart

/-- An output directory whose path has more pieces than names. -/
def nested : Settings :=
  { Settings.default with globs := ["*.kmd.json"], outputDir := ⟨"../gen/."⟩ }

-- the data types of the player and the classes of the last source would go by one name
example : (compileSources nested
    (playerSources ++ [⟨⟨"Player_Complex.Types.kmd.json"⟩, ⟨[], []⟩⟩])).result.isOk = false := by
  decide +kernel

/-- A source without a file name, and a run that has four files. -/
theorem nested_output_inside_and_apart :
    nested.validate = .ok () ∧
    (∃ file ∈ ofModule nested ⟨"idl/.."⟩ ⟨[], []⟩, file.path = ⟨"../gen/./.go"⟩ ∧
      file.path.components = [.parent, .normal "gen", .normal ".go"] ∧
      ∃ parent, file.path.parent = some parent ∧ parent.same nested.outputDir = true) ∧
    ∃ files, (compileSources nested playerSources).result = .ok files ∧
      files.Pairwise fun f g => f.path.same g.path = false := by
  have hfault : nested.fault? = none := by decide +kernel
  have hvalid : nested.validate = .ok () := by rw [Settings.validate, hfault]
  obtain ⟨hinside, -, hapart⟩ := output_inside_and_apart nested
  refine ⟨hvalid, ?_, ?_⟩
  · obtain ⟨base, -, -, -, hparent⟩ :=
      (hinside hvalid ⟨"idl/.."⟩ ⟨[], []⟩).1 _ List.mem_cons_self
    exact ⟨_, List.mem_cons_self, by decide +kernel, by decide +kernel, hparent⟩
  · obtain ⟨files, h⟩ : ∃ files, (compileSources nested playerSources).result = .ok files :=
      Outcome.exists_eq_ok_of_isOk (by decide +kernel)
    exact ⟨files, h, hapart playerSources files h⟩

end Compilation

end GoBindings
