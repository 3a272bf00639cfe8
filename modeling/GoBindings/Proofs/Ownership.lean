import GoBindings.Proofs.Run
import Mathlib.Data.List.Dedup
import Mathlib.Data.List.Flatten

set_option autoImplicit false

/-! # Which declaration of a data type is written

A source writes a data type if the registry has it for its name at just this path and position.
Where paths differ, the pair of path and position names one declaration, and the ones that are
written are exactly those that no later one of the same name replaces (`isOwner_iff`,
`forall₂_ownedTypes`). Paths of sources are nowhere compared with each other, but every source has a
file named after its path, so a run in which two files never meet has sources with different paths
(`paths_apart`). -/

namespace GoBindings

open Source (typeNames classNames)

/-! ## Declarations that stay -/

namespace Source

/-- The complex types of a list that no later one of the same name replaces, where `later` are the
    names of those that come after the list. -/
def lastDeclared (later : List String) : List Schema.ComplexType → List Schema.ComplexType
  | [] => []
  | t :: ts =>
    if t.name ∈ ts.map Schema.ComplexType.name ∨ t.name ∈ later then lastDeclared later ts
    else t :: lastDeclared later ts

/-- For each source, its complex types that stay. -/
def survivors : List Source → List (List Schema.ComplexType)
  | [] => []
  | s :: sources =>
    lastDeclared (typeNames sources) s.document.complexTypes :: survivors sources

theorem map_name_lastDeclared (later : List String) (ts : List Schema.ComplexType) :
    (lastDeclared later ts).map Schema.ComplexType.name ++ later.dedup
      = (ts.map Schema.ComplexType.name ++ later).dedup := by
  induction ts with
  | nil => rfl
  | cons t ts ih =>
    rw [lastDeclared, List.map_cons, List.cons_append]
    split
    · next h => rw [ih, List.dedup_cons_of_mem (List.mem_append.2 h)]
    · next h =>
      rw [List.dedup_cons_of_notMem (fun hmem => h (List.mem_append.1 hmem)), ← ih]
      rfl

/-- What stays has no later declaration of its name. -/
theorem exists_of_mem_lastDeclared {later : List String} {ts : List Schema.ComplexType}
    {t : Schema.ComplexType} (h : t ∈ lastDeclared later ts) :
    ∃ i, ts[i]? = some t ∧ t.name ∉ (ts.drop (i + 1)).map Schema.ComplexType.name ∧
      t.name ∉ later := by
  induction ts with
  | nil => exact absurd h List.not_mem_nil
  | cons u ts ih =>
    rw [lastDeclared] at h
    split at h
    · obtain ⟨i, hi, hrest⟩ := ih h
      exact ⟨i + 1, hi, hrest⟩
    · next hnew =>
      rcases List.mem_cons.1 h with rfl | h
      · exact ⟨0, rfl, not_or.1 hnew⟩
      · obtain ⟨i, hi, hrest⟩ := ih h
        exact ⟨i + 1, hi, hrest⟩

/-- What stays has every name once. -/
theorem map_name_survivors (sources : List Source) :
    (survivors sources).flatMap (List.map Schema.ComplexType.name) = (typeNames sources).dedup := by
  induction sources with
  | nil => rfl
  | cons s sources ih =>
    rw [survivors, List.flatMap_cons, ih, map_name_lastDeclared]
    rfl

theorem length_survivors (sources : List Source) :
    (survivors sources).length = sources.length := by
  induction sources with
  | nil => rfl
  | cons s sources ih => rw [survivors, List.length_cons, List.length_cons, ih]

theorem getElem?_survivors (sources : List Source) (k : Nat) :
    (survivors sources)[k]? = (sources[k]?).map fun s =>
      lastDeclared (typeNames (sources.drop (k + 1))) s.document.complexTypes := by
  induction sources generalizing k with
  | nil => rfl
  | cons s sources ih =>
    cases k with
    | zero => rfl
    | succ k => exact ih k

/-- To keep the declarations at positions that `owner` picks is to keep those that stay, if `owner`
    picks those. `n` is the position at which the list starts. -/
theorem forall₂_lastDeclared {path : Path} {later : List String} {owner : String → Nat → Bool}
    {ts : List Schema.ComplexType} {ds : List Interface.DataType}
    (h : List.Forall₂ (fun t d => (Interface.DataType.ofSchema path t).result = .ok d) ts ds)
    (n : Nat)
    (howner : ∀ i t, ts[i]? = some t → (owner t.name (n + i) = true ↔
      ¬ (t.name ∈ (ts.drop (i + 1)).map Schema.ComplexType.name ∨ t.name ∈ later))) :
    List.Forall₂ (fun t d => (Interface.DataType.ofSchema path t).result = .ok d)
      (lastDeclared later ts)
      (((ds.zipIdx n).filter fun (d, i) => owner d.name i).map Prod.fst) := by
  induction h generalizing n with
  | nil => exact .nil
  | @cons t d ts ds ht hrest ih =>
    have htail := ih (n + 1) fun i u hu => by
      rw [Nat.add_assoc, Nat.add_comm 1 i]
      exact howner (i + 1) u hu
    have hhead : owner d.name n = true ↔
        ¬ (t.name ∈ ts.map Schema.ComplexType.name ∨ t.name ∈ later) := by
      rw [Interface.DataType.name_of_ofSchema ht]
      exact howner 0 t rfl
    rw [lastDeclared, List.zipIdx_cons, List.filter_cons]
    by_cases hlater : t.name ∈ ts.map Schema.ComplexType.name ∨ t.name ∈ later
    · have hown : ¬ owner d.name n = true := fun h => hhead.1 h hlater
      rw [if_pos hlater, if_neg hown]
      exact htail
    · rw [if_neg hlater, if_pos (hhead.2 hlater), List.map_cons]
      exact .cons ht htail

end Source

/-! ## The declarations that count -/

namespace Source

theorem eq_of_components {sources : List Source}
    (hpaths : (sources.map fun source => source.path.components).Nodup) {k l : Nat} {a b : Source}
    (ha : sources[k]? = some a) (hb : sources[l]? = some b)
    (h : a.path.components = b.path.components) : k = l ∧ a = b := by
  have hk : (sources.map fun source => source.path.components)[k]? = some a.path.components := by
    rw [List.getElem?_map, ha]; rfl
  have hl : (sources.map fun source => source.path.components)[l]? = some a.path.components := by
    rw [List.getElem?_map, hb, h]; rfl
  obtain ⟨hlt, -⟩ := List.getElem?_eq_some_iff.1 hk
  have hkl : k = l := (List.getElem?_inj hlt hpaths).1 (hk.trans hl.symm)
  subst hkl
  exact ⟨rfl, Option.some.inj (ha.symm.trans hb)⟩

end Source

namespace Binding

variable {overrides : Bool} {sources : List Source} {r : Registry}

/-- A declaration is the one the registry has exactly if no later one has its name. -/
theorem isOwner_iff (hbuilt : (Registry.build overrides sources).result = .ok r)
    (hpaths : (sources.map fun source => source.path.components).Nodup) {k i : Nat}
    {source : Source} {t : Schema.ComplexType} (hs : sources[k]? = some source)
    (ht : source.document.complexTypes[i]? = some t) :
    isOwner r source.path t.name i = true ↔
      ¬ (t.name ∈ (source.document.complexTypes.drop (i + 1)).map Schema.ComplexType.name ∨
        t.name ∈ typeNames (sources.drop (k + 1))) := by
  unfold isOwner
  rw [not_or]
  constructor
  · intro howner
    cases hfind : r.find? t.name with
    | none =>
      have hnone := (Registry.find?_eq_none_of_build hbuilt).1 hfind
      exact absurd (Registry.mem_typeNames hs ht) hnone.1
    | some entry =>
      rw [hfind] at howner
      obtain ⟨hpath, hindex⟩ := Bool.and_eq_true_iff.1 howner
      have hwin := (Registry.find?_eq_some_of_build hbuilt).1 hfind
      generalize hname : t.name = name at hwin ⊢
      cases hwin with
      | @type l j b u hb hu hrest hlater =>
        -- same path, so same source, and same position, so the same declaration
        obtain ⟨rfl, rfl⟩ := Source.eq_of_components hpaths hb hs (eq_of_beq hpath)
        obtain rfl : j = i := eq_of_beq hindex
        exact ⟨hrest, hlater⟩
      | @remote l j b c hb hc =>
        have hmem : c.name ∈ typeNames sources := hname ▸ Registry.mem_typeNames hs ht
        have hacc := Registry.acceptable_of_build hbuilt
        exact absurd hmem (hacc.classes_apart _ (Registry.mem_classNames hb hc))
  · rintro ⟨hrest, hlater⟩
    have hwin := Registry.Winning.type hs ht hrest hlater
    rw [(Registry.find?_eq_some_of_build hbuilt).2 hwin]
    simp [Registry.typeEntry, Path.same]

/-- The data types of a module that count are the complex types of its source that stay. -/
theorem forall₂_ownedTypes (hbuilt : (Registry.build overrides sources).result = .ok r)
    (hpaths : (sources.map fun source => source.path.components).Nodup) {k : Nat}
    {source : Source} {m : Interface.Module} (hs : sources[k]? = some source)
    (hm : (Interface.Module.ofSource source).result = .ok m) :
    List.Forall₂ (fun t d => (Interface.DataType.ofSchema source.path t).result = .ok d)
      (Source.lastDeclared (typeNames (sources.drop (k + 1))) source.document.complexTypes)
      (ownedTypes r m) := by
  obtain ⟨hsource, htypes, -⟩ := Interface.Module.result_ofSource_eq_ok_iff.1 hm
  unfold ownedTypes
  rw [hsource]
  refine Source.forall₂_lastDeclared htypes 0 fun i t ht => ?_
  rw [Nat.zero_add]
  exact isOwner_iff hbuilt hpaths hs ht

end Binding

/-! ## Paths of sources -/

namespace Output

/-- The name of the file that every source has, from the components of its path. -/
theorem stem_congr {p q : Path} (h : p.components = q.components) (suffix : String) :
    stem p suffix = stem q suffix := by
  unfold stem Path.fileName
  rw [h]

end Output

namespace Compilation.Run

variable {s : Settings} {sources : List Source}

/-- Where the file goes that a source always has. -/
def mainPlace (s : Settings) (path : Path) : List Path.Component :=
  (s.outputDir.join ⟨Output.stem path s.code.schemaSuffix ++ ".go"⟩).components

theorem mainPlace_sublist (s : Settings) (p : Part) :
    [mainPlace s p.source.path].Sublist (Output.places (p.files s)) := by
  simp only [Part.files, Output.ofModule, Output.places, Output.outputFile, mainPlace,
    List.map_cons, List.singleton_sublist, List.mem_cons, true_or]

theorem mainPlace_congr {p q : Path} (h : p.components = q.components) :
    mainPlace s p = mainPlace s q := by
  unfold mainPlace
  rw [Output.stem_congr h]

/-- Two sources with one path would have one file. -/
theorem paths_apart (run : Run s sources) :
    (sources.map fun source => source.path.components).Nodup := by
  have hplaces : Output.places (run.parts.flatMap (Part.files s))
      = run.parts.flatMap fun p => Output.places (p.files s) := List.map_flatMap
  have hmain : (run.parts.flatMap fun p => [mainPlace s p.source.path]).Nodup := by
    refine run.files_apart.sublist ?_
    rw [hplaces]
    exact List.Sublist.flatMap_right _ fun p _ => mainPlace_sublist s p
  rw [← List.map_eq_flatMap] at hmain
  -- equal components would give equal places, so places apart mean paths apart
  rw [← run.source_parts, List.map_map, List.Nodup, List.pairwise_map]
  exact (List.pairwise_map.1 hmain).imp fun hne heq => hne (mainPlace_congr heq)

/-! ## The declarations that are written -/

theorem getElem?_parts (run : Run s sources) {k : Nat} {p : Part} (h : run.parts[k]? = some p) :
    sources[k]? = some p.source := by
  rw [← run.source_parts, List.getElem?_map, h]
  rfl

/-- The data types of a part that are written are its complex types that stay, in order. -/
theorem forall₂_ownedTypes (run : Run s sources) {k : Nat} {p : Part}
    (h : run.parts[k]? = some p) :
    List.Forall₂ (fun t d => (Interface.DataType.ofSchema p.source.path t).result = .ok d)
      (Source.lastDeclared (typeNames (sources.drop (k + 1))) p.source.document.complexTypes)
      (Binding.ownedTypes run.registry p.declared) :=
  Binding.forall₂_ownedTypes run.built run.paths_apart (run.getElem?_parts h)
    (run.made p (List.mem_of_getElem? h)).understood

end Compilation.Run

end GoBindings
