import GoBindings.Proofs.Lookups
import GoBindings.Proofs.Run
import Mathlib.Data.List.Perm.Basic

set_option autoImplicit false

/-! # The order of sources

Where nothing may be declared twice, every declaration counts, so the registry says the same about
every name in whatever order the sources come (`winning_iff_mem`). The code of a source depends on
what the registry says and on nothing else. The last two checks ask for lists without repetitions,
which no order changes. So a run on reordered sources is the same run with reordered parts
(`Run.exists_of_perm`). -/

namespace GoBindings

open Source (typeNames classNames)

/-! ## Registries that say the same -/

namespace Registry

theorem typeNames_perm {sources sources' : List Source} (h : sources.Perm sources') :
    (typeNames sources).Perm (typeNames sources') := h.flatMap_right _

theorem classNames_perm {sources sources' : List Source} (h : sources.Perm sources') :
    (classNames sources).Perm (classNames sources') := h.flatMap_right _

/-- Without repeated names, every declaration is the one that counts. -/
theorem winning_iff_mem {sources : List Source} (h : (typeNames sources).Nodup) {name : String}
    {entry : Entry} :
    Winning sources name entry ↔
      (name, entry) ∈ sources.flatMap typesOf ∨ (name, entry) ∈ sources.flatMap classesOf := by
  constructor
  · intro hw
    cases hw with
    | type hs ht => exact Or.inl (mem_types hs ht)
    | remote hs hc => exact Or.inr (mem_classes hs hc)
  · rintro (htype | hclass)
    · rw [← map_fst_types] at h
      exact winning_of_lookup_types ((lookup_reverse_eq_some_iff_mem h).2 htype)
    · exact winning_of_mem_classes hclass

theorem winning_perm {sources sources' : List Source} (hperm : sources.Perm sources')
    (h : (typeNames sources).Nodup) : Winning sources = Winning sources' := by
  have h' : (typeNames sources').Nodup := (typeNames_perm hperm).nodup_iff.1 h
  funext name entry
  rw [eq_iff_iff, winning_iff_mem h, winning_iff_mem h', (hperm.flatMap_right typesOf).mem_iff,
    (hperm.flatMap_right classesOf).mem_iff]

theorem Acceptable.perm {sources sources' : List Source} (hperm : sources.Perm sources')
    (h : Acceptable false sources) : Acceptable false sources' := by
  have htypes := typeNames_perm hperm
  have hclasses := classNames_perm hperm
  have honce : (typeNames sources).Nodup := h.types_once.resolve_left Bool.false_ne_true
  have hwin := winning_perm hperm honce
  refine ⟨⟨?_, ?_, ?_⟩, ?_, ?_⟩
  · exact hclasses.nodup_iff.1 h.classes_once
  · intro name hclass htype
    exact h.classes_apart name (hclasses.mem_iff.2 hclass) (htypes.mem_iff.2 htype)
  · exact Or.inr (htypes.nodup_iff.1 honce)
  · exact hwin ▸ h.bases_declared
  · exact hwin ▸ h.no_cycle

/-- Reordered sources have a registry too, and it finds the same for every name. -/
theorem exists_build_of_perm {sources sources' : List Source} {r : Registry}
    (hperm : sources.Perm sources') (h : (build false sources).result = .ok r) :
    ∃ r', (build false sources').result = .ok r' ∧ r'.find? = r.find? := by
  have hacc := acceptable_of_build h
  have hbuild : (build false sources').result = .ok (ofSources sources') :=
    result_build_eq_ok_iff.2 ⟨hacc.perm hperm, rfl⟩
  refine ⟨ofSources sources', hbuild, ?_⟩
  have hwin := winning_perm hperm (hacc.types_once.resolve_left Bool.false_ne_true)
  funext name
  refine Option.ext fun entry => ?_
  rw [find?_eq_some_of_build hbuild, find?_eq_some_of_build h, hwin]

end Registry

/-! ## Runs on reordered sources -/

namespace Compilation

/-- The files of a source, made with a registry; none if a stage fails. -/
def filesOf (s : Settings) (registry : Registry) (source : Source) : List OutputFile :=
  match (Interface.Module.ofSource source).result with
  | .error _ => []
  | .ok declared =>
    match Binding.ModuleUnits.ofModule registry s.code declared with
    | .error _ => []
    | .ok units => Output.ofModule s source.path units

theorem source_of_mem_filesOf {s : Settings} {registry : Registry} {source : Source}
    {file : OutputFile} (h : file ∈ filesOf s registry source) : file.source = source.path := by
  unfold filesOf at h
  split at h
  · exact absurd h List.not_mem_nil
  · split at h
    · exact absurd h List.not_mem_nil
    · simp only [Output.ofModule] at h
      rcases List.mem_cons.1 h with rfl | h
      · rfl
      · split at h
        · exact absurd h List.not_mem_nil
        · rw [List.mem_singleton.1 h]
          rfl

theorem filesOf_congr {s : Settings} {r r' : Registry} (h : r'.find? = r.find?) :
    filesOf s r' = filesOf s r := by
  funext source
  simp only [filesOf, Binding.ModuleUnits.ofModule_congr h]

theorem Part.Made.files_eq {registry : Registry} {s : Settings} {p : Part}
    (hmade : p.Made registry s.code) : p.files s = filesOf s registry p.source := by
  unfold filesOf
  rw [hmade.understood]
  show p.files s = match Binding.ModuleUnits.ofModule registry s.code p.declared with
    | .error _ => []
    | .ok units => Output.ofModule s p.source.path units
  rw [hmade.coded]
  rfl

theorem Part.Made.congr {r r' : Registry} {code : CodeSettings} {p : Part}
    (h : r'.find? = r.find?) (hmade : p.Made r code) : p.Made r' code where
  understood := hmade.understood
  coded := by rw [Binding.ModuleUnits.ofModule_congr h]; exact hmade.coded

namespace Run

variable {s : Settings} {sources sources' : List Source}

/-- The files of a run are those of its sources in order, each made on its own, with any registry
    that gives the same code. -/
theorem files_eq_flatMap_of_made (run : Run s sources) {r : Registry}
    (hmade : ∀ p ∈ run.parts, p.Made r s.code) : run.files = sources.flatMap (filesOf s r) := by
  have hpart : ∀ p ∈ run.parts, p.files s = filesOf s r p.source :=
    fun p hp => (hmade p hp).files_eq
  calc run.files
      = run.parts.flatMap fun p => filesOf s r p.source := List.flatMap_congr hpart
    _ = (run.parts.map Part.source).flatMap (filesOf s r) := by rw [List.flatMap_map]
    _ = sources.flatMap (filesOf s r) := by rw [run.source_parts]

theorem files_eq_flatMap (run : Run s sources) :
    run.files = sources.flatMap (filesOf s run.registry) :=
  run.files_eq_flatMap_of_made run.made

/-- A run on reordered sources: the same parts in another order. -/
theorem exists_of_perm (hno : s.code.allowOverrides = false) (hperm : sources.Perm sources')
    (run : Run s sources) : ∃ run' : Run s sources', run'.registry.find? = run.registry.find? := by
  have hbuilt := run.built
  rw [hno] at hbuilt
  obtain ⟨registry, hbuilt', hfind⟩ := Registry.exists_build_of_perm hperm hbuilt
  have hsources : sources'.Perm (run.parts.map Part.source) := by
    rw [run.source_parts]
    exact hperm.symm
  -- a new order of the sources is one of the parts they belong to
  obtain ⟨parts, rfl, hparts⟩ :=
    (congrFun₂ (List.eq_map_comp_perm Part.source) sources' run.parts).mpr hsources
  refine ⟨⟨registry, parts, hno ▸ hbuilt', rfl, fun p hp => ?_, ?_, ?_⟩, hfind⟩
  · exact (run.made p (hparts.mem_iff.1 hp)).congr hfind
  · exact (((hparts.map Part.units).flatMap_right _).nodup_iff).2 run.names_once
  · exact (((hparts.flatMap_right (Part.files s)).map _).nodup_iff).2 run.files_apart

end Run

/-- **The order of sources does not matter** where nothing may be declared twice. A run on reordered
    sources succeeds exactly if the run on the sources does. Each source has the same files in both,
    so the files of the two runs differ in their order only. -/
theorem same_files_in_any_order {s : Settings} (hno : s.code.allowOverrides = false)
    {sources sources' : List Source} (hperm : sources.Perm sources') :
    ((∃ files, (compileSources s sources).result = .ok files) ↔
      ∃ files', (compileSources s sources').result = .ok files') ∧
    ∀ files files', (compileSources s sources).result = .ok files →
      (compileSources s sources').result = .ok files' →
      files.Perm files' ∧
        ∃ filesOf : Source → List OutputFile,
          (∀ source, ∀ file ∈ filesOf source, file.source = source.path) ∧
          files = sources.flatMap filesOf ∧ files' = sources'.flatMap filesOf := by
  refine ⟨⟨?_, ?_⟩, ?_⟩
  · rintro ⟨files, h⟩
    obtain ⟨run, -⟩ := result_compileSources_eq_ok_iff.1 h
    obtain ⟨run', -⟩ := run.exists_of_perm hno hperm
    exact ⟨run'.files, result_compileSources_eq_ok_iff.2 ⟨run', rfl⟩⟩
  · rintro ⟨files', h⟩
    obtain ⟨run', -⟩ := result_compileSources_eq_ok_iff.1 h
    obtain ⟨run, -⟩ := run'.exists_of_perm hno hperm.symm
    exact ⟨run.files, result_compileSources_eq_ok_iff.2 ⟨run, rfl⟩⟩
  · intro files files' h h'
    obtain ⟨run, rfl⟩ := result_compileSources_eq_ok_iff.1 h
    obtain ⟨run', hfind⟩ := run.exists_of_perm hno hperm
    have hfiles' : run'.files = files' :=
      Except.ok.inj ((result_compileSources_eq_ok_iff.2 ⟨run', rfl⟩).symm.trans h')
    have heq := run.files_eq_flatMap
    have heq' : files' = sources'.flatMap (filesOf s run.registry) := by
      rw [← hfiles', run'.files_eq_flatMap, filesOf_congr hfind]
    refine ⟨?_, filesOf s run.registry, fun source file => source_of_mem_filesOf, heq, heq'⟩
    rw [heq, heq']
    exact hperm.flatMap_right _

theorem player_files_in_either_order :
    ∃ files files', (compileSources .default playerSources).result = .ok files ∧
      (compileSources .default playerSources.reverse).result = .ok files' ∧
      files.Perm files' := by
  have hall := same_files_in_any_order (s := .default) rfl playerSources.reverse_perm.symm
  obtain ⟨files, h⟩ : ∃ files, (compileSources .default playerSources).result = .ok files :=
    Outcome.exists_eq_ok_of_isOk (by decide +kernel)
  obtain ⟨files', h'⟩ := hall.1.1 ⟨files, h⟩
  exact ⟨files, files', h, h', (hall.2 files files' h h').1⟩

end Compilation

end GoBindings
