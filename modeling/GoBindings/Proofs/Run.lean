import GoBindings.Compilation
import GoBindings.Proofs.Hierarchy
import GoBindings.Proofs.Stages

set_option autoImplicit false

/-! # Successful runs

A run that gives files has built a registry, understood every source, made code for it, and passed
two checks. `Run` carries all of this, and `result_compileSources_eq_ok_iff` says that a run
succeeds exactly if there is such a value. Everything that holds of the files of every successful
run is proved from its fields. -/

namespace GoBindings.Compilation

open Outcome

/-- A source on its way through a run: what it declares, and the code for that. -/
structure Part where
  source : Source
  declared : Interface.Module
  units : Binding.ModuleUnits

namespace Part

/-- Every stage has succeeded on the part. -/
structure Made (registry : Registry) (code : CodeSettings) (p : Part) : Prop where
  understood : (Interface.Module.ofSource p.source).result = .ok p.declared
  coded : Binding.ModuleUnits.ofModule registry code p.declared = .ok p.units

/-- The code of the part, by file. -/
def goFiles (s : Settings) (p : Part) : List Go.File :=
  Output.fileOf s.packageName p.source.path p.units.classes ::
    if p.units.types.isEmpty then []
    else [Output.fileOf s.packageName p.source.path p.units.types]

def files (s : Settings) (p : Part) : List OutputFile :=
  Output.ofModule s p.source.path p.units

theorem contents_files (s : Settings) (p : Part) :
    (p.files s).map OutputFile.contents = (p.goFiles s).map Go.File.print := by
  unfold files goFiles Output.ofModule
  cases p.units.types.isEmpty with
  | true => rfl
  | false => rfl

theorem Made.declared_source {registry : Registry} {code : CodeSettings} {p : Part}
    (h : p.Made registry code) : p.declared.source = p.source.path :=
  (Interface.Module.result_ofSource_eq_ok_iff.1 h.understood).1

end Part

/-- A successful run, with what it makes on its way. -/
structure Run (s : Settings) (sources : List Source) where
  registry : Registry
  parts : List Part
  built : (Registry.build s.code.allowOverrides sources).result = .ok registry
  source_parts : parts.map Part.source = sources
  made : ∀ p ∈ parts, p.Made registry s.code
  names_once : (Binding.packageNames (parts.map Part.units)).Nodup
  files_apart : (Output.places (parts.flatMap (Part.files s))).Nodup

namespace Run

variable {s : Settings} {sources : List Source}

def files (run : Run s sources) : List OutputFile := run.parts.flatMap (Part.files s)

def goFiles (run : Run s sources) : List Go.File := run.parts.flatMap (Part.goFiles s)

/-- The files hold what the printer makes of the code, file by file. -/
theorem contents_files (run : Run s sources) :
    run.files.map OutputFile.contents = run.goFiles.map Go.File.print := by
  simp only [files, goFiles, List.map_flatMap, Part.contents_files]

end Run

/-- Stages that succeed on every source put its results together in parts. -/
theorem exists_parts {registry : Registry} {code : CodeSettings} {sources : List Source}
    {modules : List Interface.Module} {units : List Binding.ModuleUnits}
    (hmodules : List.Forall₂ (fun source m => (Interface.Module.ofSource source).result = .ok m)
      sources modules)
    (hunits : List.Forall₂ (fun m u => Binding.ModuleUnits.ofModule registry code m = .ok u)
      modules units) :
    ∃ parts : List Part, parts.map Part.source = sources ∧ parts.map Part.declared = modules ∧
      parts.map Part.units = units ∧ ∀ p ∈ parts, p.Made registry code := by
  induction hmodules generalizing units with
  | nil =>
    cases hunits
    exact ⟨[], rfl, rfl, rfl, by simp⟩
  | @cons source m sources modules hm hrest ih =>
    obtain ⟨u, units, hu, hrest, rfl⟩ := List.forall₂_cons_left_iff.1 hunits
    obtain ⟨parts, rfl, rfl, rfl, hmade⟩ := ih hrest
    refine ⟨⟨source, m, u⟩ :: parts, rfl, rfl, rfl, List.forall_mem_cons.2 ⟨⟨hm, hu⟩, hmade⟩⟩

theorem flatMap_zip_parts {registry : Registry} {s : Settings} {parts : List Part}
    (hmade : ∀ p ∈ parts, p.Made registry s.code) :
    ((parts.map Part.declared).zip (parts.map Part.units)).flatMap
      (fun (m, u) => Output.ofModule s m.source u) = parts.flatMap (Part.files s) := by
  rw [List.zip_map', List.flatMap_map]
  refine List.flatMap_congr fun p hp => ?_
  show Output.ofModule s p.declared.source p.units = Output.ofModule s p.source.path p.units
  rw [(hmade p hp).declared_source]

/-- A missing root class stops nothing. -/
theorem result_noteRoot (registry : Registry) (root : String) :
    (noteRoot registry root).result = .ok () := by
  unfold noteRoot
  split <;> rfl

/-- **A run succeeds exactly if each of its stages does**, and gives the files of its parts. -/
theorem result_compileSources_eq_ok_iff {s : Settings} {sources : List Source}
    {files : List OutputFile} :
    (compileSources s sources).result = .ok files ↔ ∃ run : Run s sources, run.files = files := by
  unfold compileSources
  simp only [Logged.result_bind, Logged.result_ofExcept, Logged.result_pure, bind_eq_ok_iff,
    Unique.exists_iff, PUnit.default_eq_unit, result_noteRoot, true_and,
    Logged.result_mapM_eq_ok_iff, mapM_eq_ok_iff, Binding.ensurePackageNamesUnique_eq_ok_iff,
    Output.checkCollisions_eq_ok_iff, Except.ok.injEq]
  constructor
  · rintro ⟨registry, hbuilt, modules, hmodules, units, hunits, hnames, hapart, rfl⟩
    -- modules and units come one for each source, so they go side by side into parts
    obtain ⟨parts, hsources, rfl, rfl, hmade⟩ := exists_parts hmodules hunits
    rw [flatMap_zip_parts hmade] at hapart ⊢
    exact ⟨⟨registry, parts, hbuilt, hsources, hmade, hnames, hapart⟩, rfl⟩
  · rintro ⟨⟨registry, parts, hbuilt, rfl, hmade, hnames, hapart⟩, rfl⟩
    refine ⟨registry, hbuilt, parts.map Part.declared, ?_, parts.map Part.units, ?_, hnames, ?_⟩
    · rw [List.forall₂_map_left_iff, List.forall₂_map_right_iff, List.forall₂_same]
      exact fun p hp => (hmade p hp).understood
    · rw [List.forall₂_map_left_iff, List.forall₂_map_right_iff, List.forall₂_same]
      exact fun p hp => (hmade p hp).coded
    · rw [flatMap_zip_parts hmade]
      exact ⟨hapart, rfl⟩

/-! ## Sources of a run -/

section Sources

variable {t : FileTree} {root : Path}

/-- What a pattern finds is its list of files, if these are files and in order. -/
theorem filesMatching_eq_ok {pattern : String} {glob : Glob.Pattern} {found : List Path}
    (hparse : Glob.Pattern.parse (root.join ⟨pattern⟩).text = .ok glob)
    (hsearch : glob.search t = .ok found) (hfiles : found.all t.isFile = true)
    (hsorted : found.Pairwise fun p q => p.le q = true) :
    filesMatching t root pattern = .ok found := by
  have hall : found.filter t.isFile = found := List.filter_eq_self.2 (List.all_eq_true.1 hfiles)
  rw [filesMatching, hparse]
  simp only [hsearch, hall, List.mergeSort_of_pairwise hsorted]

/-- Where no search fails, the files of the patterns are put together. -/
theorem result_findSources {patterns : List String} {lists : List (List Path)}
    (h : List.Forall₂ (fun pattern files => filesMatching t root pattern = .ok files)
      patterns lists) :
    (findSources t root patterns).result =
      if (lists.foldl addNew []).isEmpty then
        .error (.badSettings (.nothingMatched patterns root))
      else .ok (lists.foldl addNew []) := by
  have hstep : ∀ {pattern : String} {files : List Path},
      filesMatching t root pattern = .ok files →
        ∀ found, (addMatching t root found pattern).result = .ok (addNew found files) := by
    intro pattern files hfiles found
    rw [addMatching, Logged.result_bind, Logged.result_ofExcept, hfiles]
    cases files with
    | nil => rfl
    | cons p files => rfl
  have hrun : ∀ found, (patterns.foldlM (addMatching t root) found).result
      = .ok (lists.foldl addNew found) := by
    induction h with
    | nil => exact fun found => rfl
    | cons hfiles _ ih =>
      intro found
      rw [List.foldlM_cons, Logged.result_bind, hstep hfiles, List.foldl_cons, ← ih]
      rfl
  rw [findSources, Logged.result_bind, hrun]
  show (if (lists.foldl addNew []).isEmpty then Logged.fail _ else pure _ : Logged _).result = _
  split <;> rfl

theorem result_loadSources_eq_ok_iff {patterns : List String} {sources : List Source} :
    (loadSources t root patterns).result = .ok sources ↔
      ∃ paths, (findSources t root patterns).result = .ok paths ∧
        List.Forall₂ (fun p source => loadSource t p = .ok source) paths sources := by
  simp only [loadSources, Logged.result_bind, Logged.result_ofExcept, bind_eq_ok_iff,
    mapM_eq_ok_iff]

/-- Once its sources are found, what a run makes is computed from them. -/
theorem result_compile {s : Settings} {paths : List Path} (hvalid : s.validate = .ok ())
    (hfound : (findSources t s.inputRoot s.globs).result = .ok paths) :
    (compile t s).result = do
      let sources ← paths.mapM fun path => loadSource t path
      let files ← (compileSources s sources).result
      return (Report.of sources files, files) := by
  simp only [compile, loadSources, Logged.result_bind, Logged.result_ofExcept, hvalid, hfound]
  rfl

end Sources

/-! ## An example -/

/-- Two sources, each of which uses types of the other. -/
def playerSources : List Source := [
  { path := ⟨"player.kmd.json"⟩
    document := {
      remoteClasses := [
        { name := "Player", doc := "", baseText := some " MediaObject ", properties := []
          methods := [
            { name := "seek", doc := "Moves.", params := [⟨"to", "Position", "", true, none⟩]
              result := some ⟨"State", ""⟩ }]
          events := [], constructor := some ⟨[⟨"from", "MediaObject", "", false, none⟩]⟩ }]
      complexTypes := [
        { format := none, name := "Speed", doc := "", values := [], baseText := none
          properties := [⟨"factor", "int", "", false, none⟩] }] } },
  { path := ⟨"core.kmd.json"⟩
    document := {
      remoteClasses := [
        { name := "MediaObject", doc := "", baseText := none, methods := [], events := []
          properties := [⟨"speeds", "Speed[]", "", false, none⟩], constructor := none }]
      complexTypes := [
        { format := none, name := "Position", doc := "", values := [], baseText := none
          properties := [⟨"ms", "int64", "", false, none⟩] },
        { format := some "ENUM", name := "State", doc := "", values := ["ON"], properties := []
          baseText := none }] } }]

end GoBindings.Compilation
