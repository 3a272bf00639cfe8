import GoBindings.Proofs.Ownership
import GoBindings.Proofs.SourceOrder
import Mathlib.Data.List.Flatten

set_option autoImplicit false

/-! # Sources that are added

Where nothing may be declared twice, a further source brings new names and leaves the old ones as
they were (`Registry.within_of_sublist`). The code of the sources that were there is made from names
that their own registry knows, so it stays as it was, and with it their files. -/

namespace GoBindings

namespace Registry

/-- More sources say of a name what fewer say of it. -/
theorem within_of_sublist {sources sources' : List Source} {r r' : Registry}
    (hsub : sources.Sublist sources') (h : (build false sources).result = .ok r)
    (h' : (build false sources').result = .ok r') : r.Within r' := by
  have honce := (acceptable_of_build h).types_once.resolve_left Bool.false_ne_true
  have honce' := (acceptable_of_build h').types_once.resolve_left Bool.false_ne_true
  have hmem : ∀ (declared : Source → List (String × Entry)) d,
      d ∈ sources.flatMap declared → d ∈ sources'.flatMap declared := by
    intro declared d hd
    obtain ⟨source, hsource, hd⟩ := List.mem_flatMap.1 hd
    exact List.mem_flatMap.2 ⟨source, hsub.subset hsource, hd⟩
  intro name entry hentry
  -- no name is declared again, so to be declared is to count, before and after
  rw [find?_eq_some_of_build h, winning_iff_mem honce] at hentry
  rw [find?_eq_some_of_build h', winning_iff_mem honce']
  exact hentry.imp (hmem typesOf _) (hmem classesOf _)

end Registry

namespace Compilation

theorem Part.Made.mono {r r' : Registry} {code : CodeSettings} {p : Part} (h : r.Within r')
    (hknown : ∀ t ∈ p.declared.types, ∃ entry, r.find? t.name = some entry)
    (hmade : p.Made r code) : p.Made r' code where
  understood := hmade.understood
  coded := Binding.ModuleUnits.ofModule_mono h hknown hmade.coded

namespace Run

variable {s : Settings} {sources : List Source}

/-- The registry of a run knows every data type of its parts. -/
theorem exists_find?_of_mem_types (run : Run s sources) {p : Part} (hp : p ∈ run.parts)
    {t : Interface.DataType} (ht : t ∈ p.declared.types) :
    ∃ entry, run.registry.find? t.name = some entry := by
  obtain ⟨-, htypes, -⟩ :=
    Interface.Module.result_ofSource_eq_ok_iff.1 (run.made p hp).understood
  obtain ⟨written, hwritten, hschema⟩ := Outcome.exists_of_mem_right htypes ht
  obtain ⟨i, hi⟩ := List.mem_iff_getElem?.1 hwritten
  obtain ⟨k, hk⟩ := List.mem_iff_getElem?.1 hp
  rw [Interface.DataType.name_of_ofSchema hschema, ← Option.ne_none_iff_exists']
  intro hnone
  obtain ⟨htypeNames, -⟩ := (Registry.find?_eq_none_of_build run.built).1 hnone
  exact htypeNames (Registry.mem_typeNames (run.getElem?_parts hk) hi)

/-- A registry that has grown gives the code of every part still. -/
theorem made_of_within (run : Run s sources) {r : Registry} (h : run.registry.Within r) :
    ∀ p ∈ run.parts, p.Made r s.code := by
  intro p hp
  exact (run.made p hp).mono h fun t ht => run.exists_find?_of_mem_types hp ht

end Run

/-- **Sources that are added change no file** where nothing may be declared twice. If both runs
    succeed, every file of the run on fewer sources is a file of the run on more of them, with its
    path, its source and its contents, and the files keep their order. -/
theorem keeps_files_when_sources_are_added {s : Settings} (hno : s.code.allowOverrides = false)
    {sources sources' : List Source} (hsub : sources.Sublist sources')
    {files files' : List OutputFile} (h : (compileSources s sources).result = .ok files)
    (h' : (compileSources s sources').result = .ok files') : files.Sublist files' := by
  obtain ⟨run, rfl⟩ := result_compileSources_eq_ok_iff.1 h
  obtain ⟨run', rfl⟩ := result_compileSources_eq_ok_iff.1 h'
  have hwithin : run.registry.Within run'.registry :=
    Registry.within_of_sublist hsub (hno ▸ run.built) (hno ▸ run'.built)
  rw [run.files_eq_flatMap_of_made (run.made_of_within hwithin), run'.files_eq_flatMap]
  exact hsub.flatMap _

/-- A source that uses types of others, to be put between them. -/
def chatSource : Source where
  path := ⟨"chat.kmd.json"⟩
  document := {
    remoteClasses := [
      { name := "Chat", doc := "", baseText := some "Player", events := [], constructor := none
        properties := [⟨"state", "State", "", false, none⟩], methods := [] }]
    complexTypes := [
      { format := none, name := "Line", doc := "", values := [], baseText := some "Position"
        properties := [⟨"text", "String", "", false, none⟩] }] }

theorem keeps_player_files_with_chat :
    ∃ files files', (compileSources .default playerSources).result = .ok files ∧
      (compileSources .default
        (playerSources.take 1 ++ chatSource :: playerSources.drop 1)).result = .ok files' ∧
      files.Sublist files' := by
  obtain ⟨files, h⟩ : ∃ files, (compileSources .default playerSources).result = .ok files :=
    Outcome.exists_eq_ok_of_isOk (by decide +kernel)
  obtain ⟨files', h'⟩ : ∃ files', (compileSources .default
      (playerSources.take 1 ++ chatSource :: playerSources.drop 1)).result = .ok files' :=
    Outcome.exists_eq_ok_of_isOk (by decide +kernel)
  have hsub : playerSources.Sublist (playerSources.take 1 ++ chatSource :: playerSources.drop 1) :=
    List.Sublist.append_left (List.sublist_cons_self chatSource _) (playerSources.take 1)
  exact ⟨files, files', h, h', keeps_files_when_sources_are_added rfl hsub h h'⟩

end Compilation

end GoBindings
