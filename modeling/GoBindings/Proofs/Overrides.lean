import GoBindings.Proofs.Emission
import GoBindings.Proofs.Lookups

set_option autoImplicit false

/-! # To override is to delete

A complex type that is declared again counts only in its last declaration. So the sources may as
well not have the earlier ones: `Source.prune` deletes them. A run on pruned sources differs from a
run on the sources in positions only, since a declaration moves up when others before it are
deleted. A registry is therefore compared without positions (`withoutIndices`), which nothing looks
at but the choice of the declarations to be written, and that choice keeps in both runs what is left
after pruning (`ownedTypes_prune`). Failures are compared too, so every stage is taken with both its
outcomes (`Outcome.Alike`). -/

namespace GoBindings

open Source (typeNames lastDeclared)
open Outcome (Alike)

def Settings.withOverrides (s : Settings) (allowed : Bool) : Settings :=
  { s with code := { s.code with allowOverrides := allowed } }

/-! ## Pruned sources -/

namespace Source

/-- The source with those of its complex types that stay, where `later` are the names that are
    declared after it. -/
def pruned (later : List String) (s : Source) : Source :=
  { s with document :=
    { s.document with complexTypes := lastDeclared later s.document.complexTypes } }

/-- The sources without the complex types that a later one of the same name replaces. -/
def prune : List Source → List Source
  | [] => []
  | s :: sources => s.pruned (typeNames sources) :: prune sources

/-- A complex type that a later one of the same name replaces, by source and then by position. -/
def Replaced (sources : List Source) (source : Source) (t : Schema.ComplexType) : Prop :=
  ∃ k i, sources[k]? = some source ∧ source.document.complexTypes[i]? = some t ∧
    (t.name ∈ (source.document.complexTypes.drop (i + 1)).map Schema.ComplexType.name ∨
      t.name ∈ typeNames (sources.drop (k + 1)))

theorem Replaced.cons {sources : List Source} {source : Source} {t : Schema.ComplexType}
    (h : Replaced sources source t) (s : Source) : Replaced (s :: sources) source t := by
  obtain ⟨k, i, hs, ht, hlater⟩ := h
  exact ⟨k + 1, i, hs, ht, hlater⟩

theorem typeNames_prune (sources : List Source) :
    typeNames (prune sources) = (typeNames sources).dedup := by
  induction sources with
  | nil => rfl
  | cons s sources ih =>
    have hcons : ∀ (a : Source) (as : List Source), typeNames (a :: as)
        = a.document.complexTypes.map Schema.ComplexType.name ++ typeNames as := fun _ _ => rfl
    rw [prune, hcons, hcons, ih]
    exact map_name_lastDeclared _ _

theorem getElem?_prune (sources : List Source) (k : Nat) :
    (prune sources)[k]? =
      (sources[k]?).map (pruned (typeNames (sources.drop (k + 1)))) := by
  induction sources generalizing k with
  | nil => rfl
  | cons s sources ih =>
    cases k with
    | zero => rfl
    | succ k => exact ih k

theorem map_path_prune (sources : List Source) :
    ((prune sources).map fun source => source.path.components)
      = sources.map fun source => source.path.components := by
  induction sources with
  | nil => rfl
  | cons s sources ih => rw [prune, List.map_cons, List.map_cons, ih]; rfl

/-- Pruning leaves classes alone. -/
theorem flatMap_classesOf_prune (sources : List Source) :
    (prune sources).flatMap Registry.classesOf = sources.flatMap Registry.classesOf := by
  induction sources with
  | nil => rfl
  | cons s sources ih => rw [prune, List.flatMap_cons, List.flatMap_cons, ih]; rfl

end Source

/-! ## Registries without positions -/

def Entry.withoutIndex (e : Entry) : Entry := { e with index := 0 }

namespace Registry

def withoutIndices (r : Registry) : Registry :=
  ⟨r.entries.map fun e => (e.1, e.2.withoutIndex)⟩

theorem find?_withoutIndices (r : Registry) (name : String) :
    r.withoutIndices.find? name = (r.find? name).map Entry.withoutIndex :=
  find?_mapEntries Entry.withoutIndex r name

theorem withoutIndices_set (r : Registry) (name : String) (entry : Entry) :
    (r.set name entry).withoutIndices = r.withoutIndices.set name entry.withoutIndex :=
  mapEntries_set Entry.withoutIndex r name entry

theorem kindOf?_withoutIndices (r : Registry) : r.withoutIndices.kindOf? = r.kindOf? := by
  funext name
  rw [kindOf?, kindOf?, find?_withoutIndices, Option.map_map]
  rfl

theorem baseOf?_withoutIndices (r : Registry) : r.withoutIndices.baseOf? = r.baseOf? := by
  funext name
  rw [baseOf?, baseOf?, find?_withoutIndices, Option.bind_map]
  rfl

theorem names_withoutIndices (r : Registry) : r.withoutIndices.names = r.names :=
  names_mapEntries Entry.withoutIndex r

theorem checkHierarchy_withoutIndices (r : Registry) :
    r.withoutIndices.checkHierarchy = r.checkHierarchy :=
  checkHierarchy_congr r.names_withoutIndices r.kindOf?_withoutIndices r.baseOf?_withoutIndices

/-- Two registries of which only positions tell which is which. -/
def SameButIndices (r r' : Registry) : Prop := r'.withoutIndices = r.withoutIndices

theorem SameButIndices.kindOf?_eq {r r' : Registry} (h : r.SameButIndices r') :
    r'.kindOf? = r.kindOf? := by
  rw [← kindOf?_withoutIndices, h, kindOf?_withoutIndices]

theorem SameButIndices.checkHierarchy_eq {r r' : Registry} (h : r.SameButIndices r') :
    r'.checkHierarchy = r.checkHierarchy := by
  rw [← checkHierarchy_withoutIndices, h, checkHierarchy_withoutIndices]

theorem SameButIndices.set {r r' : Registry} (h : r.SameButIndices r') (name : String)
    (entry : Entry) : (r.set name entry).SameButIndices (r'.set name entry) := by
  unfold SameButIndices
  rw [withoutIndices_set, withoutIndices_set, h]

/-! ## Declaring all, and declaring what stays -/

/-- The items of a list whose key no later item has, and no name in `later` is. -/
def keepLast {α : Type} (key : α → String) (later : List String) : List α → List α
  | [] => []
  | a :: as =>
    if key a ∈ as.map key ∨ key a ∈ later then keepLast key later as
    else a :: keepLast key later as

theorem lastDeclared_eq_keepLast (later : List String) (ts : List Schema.ComplexType) :
    lastDeclared later ts = keepLast Schema.ComplexType.name later ts := by
  induction ts with
  | nil => rfl
  | cons t ts ih => rw [lastDeclared, keepLast, ih]

theorem keepLast_map {α β : Type} (key : β → String) (f : α → β) (later : List String)
    (as : List α) :
    keepLast key later (as.map f) = (keepLast (fun a => key (f a)) later as).map f := by
  induction as with
  | nil => rfl
  | cons a as ih =>
    have hkeys : (as.map f).map key = as.map fun a => key (f a) := List.map_map
    rw [List.map_cons, keepLast, keepLast, hkeys, ih]
    split
    · rfl
    · rfl

theorem keepLast_append {α : Type} (key : α → String) (later : List String) (as bs : List α) :
    keepLast key later (as ++ bs)
      = keepLast key (bs.map key ++ later) as ++ keepLast key later bs := by
  induction as with
  | nil => rfl
  | cons a as ih =>
    rw [List.cons_append, keepLast, keepLast, ih]
    simp only [List.map_append, List.mem_append, or_assoc]
    split
    · rfl
    · rfl

theorem keepLast_eq_self {α : Type} (key : α → String) (later : List String) (as : List α)
    (h : (as.map key ++ later).Nodup) : keepLast key later as = as := by
  induction as with
  | nil => rfl
  | cons a as ih =>
    rw [List.map_cons, List.cons_append, List.nodup_cons, List.mem_append] at h
    rw [keepLast, if_neg h.1, ih h.2]

/-- What has been entered, the newest first, over what was there under other names. -/
theorem entries_enterAll (r : Registry) (ds : List (String × Entry)) :
    (r.enterAll ds).entries = (keepLast Prod.fst [] ds).reverse ++
      r.entries.filter fun e => e.1 ∉ ds.map Prod.fst := by
  induction ds generalizing r with
  | nil => simp [enterAll, keepLast]
  | cons d ds ih =>
    show ((r.set d.1 d.2).enterAll ds).entries = _
    have hrest : (r.entries.filter fun e => e.1 != d.1).filter (fun e => e.1 ∉ ds.map Prod.fst)
        = r.entries.filter fun e => e.1 ∉ (d :: ds).map Prod.fst := by
      rw [List.filter_filter]
      refine List.filter_congr fun e _ => ?_
      rw [Bool.eq_iff_iff, List.map_cons]
      simp only [Bool.and_eq_true, decide_eq_true_eq, bne_iff_ne, List.mem_cons, not_or]
      exact and_comm
    rw [ih, set, List.filter_cons, hrest, keepLast]
    by_cases hd : d.1 ∈ ds.map Prod.fst
    · simp [hd]
    · simp [hd]

/-- The complex types of a source, entered without positions. -/
theorem map_withoutIndex_typesOf (s : Source) :
    (typesOf s).map (fun d => (d.1, d.2.withoutIndex))
      = s.document.complexTypes.map fun t => (t.name, typeEntry s.path 0 t) := by
  unfold typesOf
  rw [List.map_map]
  conv_rhs => rw [← List.zipIdx_map_fst 0 s.document.complexTypes, List.map_map]
  rfl

theorem map_withoutIndex_keepLast (sources : List Source) :
    (keepLast Prod.fst [] (sources.flatMap typesOf)).map (fun d => (d.1, d.2.withoutIndex))
      = ((Source.prune sources).flatMap typesOf).map fun d => (d.1, d.2.withoutIndex) := by
  induction sources with
  | nil => rfl
  | cons s sources ih =>
    have hhead : (keepLast Prod.fst (typeNames sources) (typesOf s)).map
          (fun d => (d.1, d.2.withoutIndex))
        = (typesOf (s.pruned (typeNames sources))).map fun d => (d.1, d.2.withoutIndex) := by
      rw [map_withoutIndex_typesOf,
        ← keepLast_map Prod.fst (fun d : String × Entry => (d.1, d.2.withoutIndex)),
        map_withoutIndex_typesOf, keepLast_map, ← lastDeclared_eq_keepLast]
      rfl
    rw [Source.prune, List.flatMap_cons, List.flatMap_cons, keepLast_append, List.map_append,
      List.map_append, map_fst_types, List.append_nil, hhead, ih]

/-- Entering all complex types leaves what entering those that stay leaves. -/
theorem sameButIndices_types (sources : List Source) :
    (empty.enterAll (sources.flatMap typesOf)).SameButIndices
      (empty.enterAll ((Source.prune sources).flatMap typesOf)) := by
  have hnodup : (((Source.prune sources).flatMap typesOf).map Prod.fst).Nodup := by
    rw [map_fst_types, Source.typeNames_prune]
    exact List.nodup_dedup _
  unfold SameButIndices withoutIndices
  rw [entries_enterAll, entries_enterAll,
    keepLast_eq_self _ _ _ ((List.append_nil _).symm ▸ hnodup)]
  simp only [empty, List.filter_nil, List.append_nil, List.map_reverse]
  rw [map_withoutIndex_keepLast]

theorem alike_declareClass {r r' : Registry} (h : r.SameButIndices r') (d : String × Entry) :
    Alike SameButIndices (declareClass r d).result (declareClass r' d).result := by
  have hfind : (r'.find? d.1).map Entry.withoutIndex = (r.find? d.1).map Entry.withoutIndex := by
    rw [← find?_withoutIndices, h, find?_withoutIndices]
  unfold declareClass
  cases hr : r.find? d.1 with
  | none =>
    rw [hr, Option.map_none, Option.map_eq_none_iff] at hfind
    rw [hfind]
    exact .ok (h.set d.1 d.2)
  | some earlier =>
    rw [hr, Option.map_some, Option.map_eq_some_iff] at hfind
    obtain ⟨earlier', hr', hsame⟩ := hfind
    have horigin : earlier'.origin = earlier.origin := by
      show earlier'.withoutIndex.origin = earlier.withoutIndex.origin
      rw [hsame]
    simp only [hr', horigin]
    exact .error _

theorem alike_foldlM_declareClass {r r' : Registry} (h : r.SameButIndices r')
    (ds : List (String × Entry)) :
    Alike SameButIndices (ds.foldlM declareClass r).result (ds.foldlM declareClass r').result := by
  induction ds generalizing r r' with
  | nil => exact .ok h
  | cons d ds ih =>
    rw [List.foldlM_cons, List.foldlM_cons, Logged.result_bind, Logged.result_bind]
    exact (alike_declareClass h d).bind fun _ _ _ _ hnext => ih hnext

/-- **The registries of sources and of pruned sources**, or their failures. -/
theorem alike_build (sources : List Source) :
    Alike SameButIndices (build true sources).result
      (build false (Source.prune sources)).result := by
  have htypes : ((sources.flatMap typesOf).foldlM (declareType true) empty).result
      = .ok (empty.enterAll (sources.flatMap typesOf)) :=
    foldlM_declareType_eq_ok_iff.2 ⟨Or.inl rfl, rfl⟩
  have htypes' : (((Source.prune sources).flatMap typesOf).foldlM (declareType false) empty).result
      = .ok (empty.enterAll ((Source.prune sources).flatMap typesOf)) := by
    refine foldlM_declareType_eq_ok_iff.2 ⟨Or.inr ⟨?_, fun d _ => rfl⟩, rfl⟩
    rw [map_fst_types, Source.typeNames_prune]
    exact List.nodup_dedup _
  have hall : Alike SameButIndices (declareAll true sources).result
      (declareAll false (Source.prune sources)).result := by
    unfold declareAll
    rw [Logged.result_bind, Logged.result_bind, htypes, htypes', Source.flatMap_classesOf_prune]
    exact alike_foldlM_declareClass (sameButIndices_types sources) _
  unfold build
  simp only [Logged.result_bind, Logged.result_ofExcept, Logged.result_pure]
  refine hall.bind fun r r' _ _ hsame => ?_
  rw [hsame.checkHierarchy_eq]
  exact (Outcome.alike_eq_iff.2 rfl).bind fun _ _ _ _ _ => .ok hsame

end Registry

/-! ## Understanding what stays -/

namespace Interface

/-- A step on every complex type does not miss those that are deleted, if it succeeds on them. -/
theorem alike_mapM_lastDeclared {β : Type} {f : Schema.ComplexType → Except Failure β}
    {later : List String} {ts : List Schema.ComplexType}
    (hfine : ∀ i t, ts[i]? = some t →
      (t.name ∈ (ts.drop (i + 1)).map Schema.ComplexType.name ∨ t.name ∈ later) →
        ∃ b, f t = .ok b) :
    Alike (fun _ _ => True) (ts.mapM f) ((lastDeclared later ts).mapM f) := by
  induction ts with
  | nil => exact .ok trivial
  | cons t ts ih =>
    have htail := ih fun i u hu => hfine (i + 1) u hu
    rw [lastDeclared, List.mapM_cons]
    split
    · next hlater =>
      obtain ⟨b, hb⟩ := hfine 0 t rfl hlater
      rw [hb, ← bind_pure ((lastDeclared later ts).mapM f)]
      exact htail.bind fun _ _ _ _ _ => .ok trivial
    · rw [List.mapM_cons]
      refine (Outcome.alike_eq_iff.2 rfl).bind fun _ _ _ _ _ => ?_
      exact htail.bind fun _ _ _ _ _ => .ok trivial

theorem alike_mapM_prune {sources : List Source}
    (hfine : ∀ source t, Source.Replaced sources source t →
      ∃ d, (DataType.ofSchema source.path t).result = .ok d) :
    Alike (fun _ _ => True) (sources.mapM fun s => (Module.ofSource s).result)
      ((Source.prune sources).mapM fun s => (Module.ofSource s).result) := by
  induction sources with
  | nil => exact .ok trivial
  | cons s sources ih =>
    have hhead : Alike (fun _ _ => True) (Module.ofSource s).result
        (Module.ofSource (s.pruned (typeNames sources))).result := by
      unfold Module.ofSource
      simp only [Logged.result_bind, Logged.result_mapM, Logged.result_pure]
      refine (alike_mapM_lastDeclared fun i t ht hlater => ?_).bind fun _ _ _ _ _ => ?_
      · exact hfine s t ⟨0, i, rfl, ht, hlater⟩
      · exact (Outcome.alike_eq_iff.2 rfl).bind fun _ _ _ _ _ => .ok trivial
    have htail := ih fun source t hreplaced => hfine source t (hreplaced.cons s)
    rw [Source.prune, List.mapM_cons, List.mapM_cons]
    exact hhead.bind fun _ _ _ _ _ => htail.bind fun _ _ _ _ _ => .ok trivial

end Interface

/-! ## Writing what stays -/

namespace Binding

theorem lastDeclared_prune (sources : List Source) {k : Nat} {source : Source}
    (hs : sources[k]? = some source) :
    lastDeclared (typeNames ((Source.prune sources).drop (k + 1)))
        (lastDeclared (typeNames (sources.drop (k + 1))) source.document.complexTypes)
      = lastDeclared (typeNames (sources.drop (k + 1))) source.document.complexTypes := by
  have hs' : (Source.prune sources)[k]?
      = some (source.pruned (typeNames (sources.drop (k + 1)))) := by
    rw [Source.getElem?_prune, hs]
    rfl
  have hnodup : (typeNames ((Source.prune sources).drop k)).Nodup := by
    have hall : (typeNames (Source.prune sources)).Nodup := by
      rw [Source.typeNames_prune]
      exact List.nodup_dedup _
    exact hall.sublist ((List.drop_sublist k _).flatMap _)
  obtain ⟨hlt, hget⟩ := List.getElem?_eq_some_iff.1 hs'
  rw [List.drop_eq_getElem_cons hlt, hget] at hnodup
  rw [Registry.lastDeclared_eq_keepLast]
  exact Registry.keepLast_eq_self _ _ _ hnodup

/-- **The data types that are written** are those that are left after pruning, in both runs. -/
theorem ownedTypes_prune {sources : List Source} {r r' : Registry}
    (hbuilt : (Registry.build true sources).result = .ok r)
    (hbuilt' : (Registry.build false (Source.prune sources)).result = .ok r')
    (hpaths : (sources.map fun source => source.path.components).Nodup) {k : Nat}
    {source : Source} {m m' : Interface.Module} (hs : sources[k]? = some source)
    (hm : (Interface.Module.ofSource source).result = .ok m)
    (hm' : (Interface.Module.ofSource
      (source.pruned (typeNames (sources.drop (k + 1))))).result = .ok m') :
    ownedTypes r' m' = ownedTypes r m := by
  have hs' : (Source.prune sources)[k]?
      = some (source.pruned (typeNames (sources.drop (k + 1)))) := by
    rw [Source.getElem?_prune, hs]
    rfl
  have hpaths' : ((Source.prune sources).map fun source => source.path.components).Nodup := by
    rw [Source.map_path_prune]
    exact hpaths
  have howned := forall₂_ownedTypes hbuilt hpaths hs hm
  have howned' := forall₂_ownedTypes hbuilt' hpaths' hs' hm'
  rw [show (source.pruned (typeNames (sources.drop (k + 1)))).document.complexTypes
    = lastDeclared (typeNames (sources.drop (k + 1))) source.document.complexTypes from rfl,
    lastDeclared_prune sources hs] at howned'
  -- what a complex type is understood as is unique
  refine List.right_unique_forall₂' (fun t d d' hd hd' => ?_) howned' howned
  exact Except.ok.inj (hd.symm.trans hd')

/-- Side by side, the modules of both runs go by the same paths and have the same code. -/
theorem forall₂_ofModule_prune {sources : List Source} {r r' : Registry}
    (hbuilt : (Registry.build true sources).result = .ok r)
    (hbuilt' : (Registry.build false (Source.prune sources)).result = .ok r')
    (hsame : r.SameButIndices r')
    (hpaths : (sources.map fun source => source.path.components).Nodup)
    {modules modules' : List Interface.Module}
    (hm : (sources.mapM fun s => (Interface.Module.ofSource s).result) = .ok modules)
    (hm' : ((Source.prune sources).mapM fun s => (Interface.Module.ofSource s).result)
      = .ok modules') (code : CodeSettings) :
    List.Forall₂ (fun m m' => m.source = m'.source ∧
      ModuleUnits.ofModule r code m = ModuleUnits.ofModule r' code m') modules modules' := by
  have hall := Outcome.mapM_eq_ok_iff.1 hm
  have hall' := Outcome.mapM_eq_ok_iff.1 hm'
  have hlength : (Source.prune sources).length = sources.length := by
    simpa using congrArg List.length (Source.map_path_prune sources)
  refine Outcome.forall₂_of_getElem? ?_ fun k m m' hk hk' => ?_
  · rw [← hall.length_eq, ← hall'.length_eq, hlength]
  · obtain ⟨source, hs, hmade⟩ := Outcome.exists_getElem?_of_forall₂ hall hk
    obtain ⟨source', hs', hmade'⟩ := Outcome.exists_getElem?_of_forall₂ hall' hk'
    rw [Source.getElem?_prune, hs] at hs'
    obtain rfl := Option.some.inj hs'
    obtain ⟨hpath, -, hclasses⟩ := Interface.Module.result_ofSource_eq_ok_iff.1 hmade
    obtain ⟨hpath', -, hclasses'⟩ := Interface.Module.result_ofSource_eq_ok_iff.1 hmade'
    have hsameClasses : m'.classes = m.classes := by
      refine List.right_unique_forall₂' (fun c d d' hd hd' => ?_) hclasses' hclasses
      exact Except.ok.inj (hd.symm.trans hd')
    have howned := ownedTypes_prune hbuilt hbuilt' hpaths hs hmade hmade'
    refine ⟨hpath.trans hpath'.symm, ?_⟩
    exact (ModuleUnits.ofModule_congr_owned hsame.kindOf?_eq howned hsameClasses code).symm

end Binding

namespace Compilation

/-- **To override is to delete.** Let the sources have different paths, and let every complex type
    that a later one replaces be understood. Then a run that lets later complex types replace
    earlier ones, and a run that does not, on the sources without the replaced ones, have the same
    result: the same files, or the same failure. -/
theorem overriding_eq_pruning (s : Settings) {sources : List Source}
    (hpaths : (sources.map fun source => source.path.components).Nodup)
    (hfine : ∀ source t, Source.Replaced sources source t →
      ∃ d, (Interface.DataType.ofSchema source.path t).result = .ok d) :
    (compileSources (s.withOverrides true) sources).result
      = (compileSources (s.withOverrides false) (Source.prune sources)).result := by
  rw [← Outcome.alike_eq_iff]
  unfold compileSources
  simp only [Logged.result_bind, Logged.result_ofExcept, Logged.result_pure, Logged.result_mapM,
    result_noteRoot]
  refine (Registry.alike_build sources).bind fun r r' hr hr' hsame => ?_
  refine (Interface.alike_mapM_prune hfine).bind fun modules modules' hm hm' _ => ?_
  have hpairs := Binding.forall₂_ofModule_prune hr hr' hsame hpaths hm hm' s.code
  have hunits : (modules.mapM fun m => Binding.ModuleUnits.ofModule r s.code m)
      = modules'.mapM fun m => Binding.ModuleUnits.ofModule r' s.code m :=
    Outcome.mapM_congr_of_forall₂ (hpairs.imp fun _ _ h => h.2)
  have hsources : modules.map Interface.Module.source = modules'.map Interface.Module.source := by
    rw [← List.forall₂_eq_eq_eq, List.forall₂_map_left_iff, List.forall₂_map_right_iff]
    exact hpairs.imp fun _ _ h => h.1
  -- files are made from units and the paths of their sources, which are the same in both runs
  have hfiles : ∀ (made : List Interface.Module) (units : List Binding.ModuleUnits),
      (made.zip units).flatMap (fun x => Output.ofModule s x.1.source x.2)
        = ((made.map Interface.Module.source).zip units).flatMap
          fun x => Output.ofModule s x.1 x.2 := by
    intro made units
    rw [List.zip_map_left, List.flatMap_map]
    rfl
  have hcode : ∀ (allowed : Bool) (registry : Registry) (m : Interface.Module),
      Binding.ModuleUnits.ofModule registry (s.withOverrides allowed).code m
        = Binding.ModuleUnits.ofModule registry s.code m := fun _ _ _ => rfl
  have houtput : ∀ allowed : Bool, Output.ofModule (s.withOverrides allowed) = Output.ofModule s :=
    fun _ => rfl
  simp only [hcode, houtput, hfiles, hunits, hsources]
  exact Outcome.alike_eq_iff.2 rfl

theorem overriding_tags_eq_pruning_tags :
    ∃ files, (compileSources (Settings.default.withOverrides true) taggedSources).result
        = .ok files ∧
      (compileSources (Settings.default.withOverrides false)
        (Source.prune taggedSources)).result = .ok files := by
  have hall : ∀ source ∈ taggedSources, ∀ t ∈ source.document.complexTypes,
      (Interface.DataType.ofSchema source.path t).result.isOk = true := by decide +kernel
  have heq : (compileSources (Settings.default.withOverrides true) taggedSources).result
      = (compileSources (Settings.default.withOverrides false)
        (Source.prune taggedSources)).result := by
    refine overriding_eq_pruning .default (by decide) ?_
    rintro source t ⟨k, i, hs, ht, -⟩
    exact Outcome.exists_eq_ok_of_isOk
      (hall source (List.mem_of_getElem? hs) t (List.mem_of_getElem? ht))
  obtain ⟨files, h⟩ : ∃ files,
      (compileSources (Settings.default.withOverrides true) taggedSources).result = .ok files :=
    Outcome.exists_eq_ok_of_isOk (by decide +kernel)
  exact ⟨files, h, heq ▸ h⟩

end Compilation

end GoBindings
