import GoBindings.Proofs.Ownership
import Mathlib.Data.List.Perm.Basic

set_option autoImplicit false

/-! # What is declared, and how often

Every unit declares the type it is named after, and a class also its capability interface. So the
types that a run declares can be read off its sources: complex types that no later one replaces,
classes, and interfaces of classes other than the root (`declaredTypes_perm`). None of them is
declared twice. -/

namespace GoBindings

open Source (typeNames classNames survivors)

/-! ## Types that code declares -/

/-- The type that a declaration declares, if it does. -/
def Go.Decl.declaredTypes : Go.Decl → List String
  | .type d => [d.name]
  | .consts _ => []
  | .func _ => []

theorem Go.Decl.declaredTypes_sublist (d : Go.Decl) :
    d.declaredTypes.Sublist d.packageNames := by
  cases d with
  | type d => exact List.Sublist.refl _
  | consts cs => exact List.nil_sublist _
  | func f => exact List.nil_sublist _

namespace Binding

def CodeUnit.declaredTypes (u : CodeUnit) : List String := u.decls.flatMap Go.Decl.declaredTypes

/-- The types that a class of a given name brings with it. -/
def classTypes (root name : String) : List String :=
  (if name = root then [] else [capabilityName name]) ++ [name]

theorem flatMap_classTypes_perm (root : String) (names : List String) :
    (names.flatMap (classTypes root)).Perm
      (names ++ (names.filter fun name => name ≠ root).map capabilityName) := by
  have hinterfaces : (names.flatMap fun name => if name = root then [] else [capabilityName name])
      = (names.filter fun name => name ≠ root).map capabilityName := by
    induction names with
    | nil => rfl
    | cons name names ih =>
      rw [List.flatMap_cons, ih, List.filter_cons]
      by_cases hname : name = root <;> simp [hname]
  have hsplit := List.flatMap_append_perm names
    (fun name => if name = root then [] else [capabilityName name]) fun name => [name]
  rw [hinterfaces, List.flatMap_singleton'] at hsplit
  exact hsplit.symm.trans List.perm_append_comm

theorem declaredTypes_typeUnit {registry : Registry} {code : CodeSettings}
    {t : Interface.DataType} {u : CodeUnit} (h : typeUnit registry code t = .ok u) :
    u.declaredTypes = [t.name] := by
  obtain ⟨decls, rfl, hdecls⟩ := typeUnit_eq_ok_iff.1 h
  cases hshape : t.shape with
  | enum values =>
    rw [hshape] at hdecls
    obtain ⟨-, rfl⟩ := enumDecls_eq_ok_iff.1 hdecls
    cases hempty : (enumConstants t.name values).isEmpty <;>
      simp [CodeUnit.declaredTypes, Go.Decl.declaredTypes]
  | record base fields =>
    rw [hshape] at hdecls
    obtain ⟨own, -, -, rfl⟩ := recordDecls_eq_ok_iff.1 hdecls
    rfl

theorem declaredTypes_classDecls (code : CodeSettings) (c : Interface.Class)
    (methods : List Method) (properties : List Go.Field) (seeds : List Seed) :
    (classDecls code c methods properties seeds).flatMap Go.Decl.declaredTypes
      = classTypes code.rootClass c.name := by
  have hstubs : (methods.map fun m => Go.Decl.func (m.stub code c.name)).flatMap
      Go.Decl.declaredTypes = [] := by
    rw [List.flatMap_map]
    exact List.flatMap_eq_nil_iff.2 fun m _ => rfl
  unfold classDecls classTypes
  rw [List.flatMap_append, List.flatMap_append, hstubs, List.append_nil]
  split <;> rfl

theorem declaredTypes_classUnit {registry : Registry} {code : CodeSettings}
    {c : Interface.Class} {u : CodeUnit} (h : classUnit registry code c = .ok u) :
    u.declaredTypes = classTypes code.rootClass c.name := by
  obtain ⟨methods, properties, seeds, -, -, -, -, rfl⟩ := classUnit_eq_ok_iff.1 h
  exact declaredTypes_classDecls code c methods properties seeds

/-- The unit of a complex type at a path. -/
def RendersType (registry : Registry) (code : CodeSettings) (path : Path)
    (t : Schema.ComplexType) (u : CodeUnit) : Prop :=
  ∃ d, (Interface.DataType.ofSchema path t).result = .ok d ∧ typeUnit registry code d = .ok u

/-- The unit of a class at a path. -/
def RendersClass (registry : Registry) (code : CodeSettings) (path : Path)
    (c : Schema.RemoteClass) (u : CodeUnit) : Prop :=
  ∃ k, (Interface.Class.ofSchema path c).result = .ok k ∧ classUnit registry code k = .ok u

theorem RendersType.declaredTypes_eq {registry : Registry} {code : CodeSettings} {path : Path}
    {t : Schema.ComplexType} {u : CodeUnit} (h : RendersType registry code path t u) :
    u.declaredTypes = [t.name] := by
  obtain ⟨d, hd, hu⟩ := h
  rw [declaredTypes_typeUnit hu, Interface.DataType.name_of_ofSchema hd]

theorem RendersClass.declaredTypes_eq {registry : Registry} {code : CodeSettings} {path : Path}
    {c : Schema.RemoteClass} {u : CodeUnit} (h : RendersClass registry code path c u) :
    u.declaredTypes = classTypes code.rootClass c.name := by
  obtain ⟨k, hk, hu⟩ := h
  rw [declaredTypes_classUnit hu, (Interface.Class.name_base_of_ofSchema hk).1]

end Binding

namespace Compilation.Run

open Binding

variable {s : Settings} {sources : List Source}

/-! ## Units of a part -/

/-- The data types of a part are its complex types that stay. -/
theorem forall₂_types (run : Run s sources) :
    List.Forall₂ (fun types p => List.Forall₂ (RendersType run.registry s.code p.source.path) types
      p.units.types) (survivors sources) run.parts := by
  have hlength : (survivors sources).length = run.parts.length := by
    have hsources := congrArg List.length run.source_parts
    rw [Source.length_survivors, ← hsources, List.length_map]
  refine Outcome.forall₂_of_getElem? hlength fun k types p htypes hp => ?_
  rw [Source.getElem?_survivors, run.getElem?_parts hp] at htypes
  obtain rfl := Option.some.inj htypes
  have hmade := run.made p (List.mem_of_getElem? hp)
  exact Outcome.forall₂_trans (run.forall₂_ownedTypes hp)
    (ModuleUnits.ofModule_eq_ok_iff.1 hmade.coded).1

theorem forall₂_classes (run : Run s sources) {p : Part} (hp : p ∈ run.parts) :
    List.Forall₂ (RendersClass run.registry s.code p.source.path) p.source.document.remoteClasses
      p.units.classes := by
  have hmade := run.made p hp
  obtain ⟨-, -, hclasses⟩ := Interface.Module.result_ofSource_eq_ok_iff.1 hmade.understood
  obtain ⟨-, hunits⟩ := ModuleUnits.ofModule_eq_ok_iff.1 hmade.coded
  exact Outcome.forall₂_trans hclasses hunits

/-! ## Types of the package -/

/-- The types that the code of a run declares. -/
def declaredTypes (run : Run s sources) : List String :=
  run.parts.flatMap fun p => (p.units.types ++ p.units.classes).flatMap CodeUnit.declaredTypes

theorem nodup_declaredTypes (run : Run s sources) : run.declaredTypes.Nodup := by
  refine run.names_once.sublist ?_
  unfold declaredTypes packageNames
  rw [List.flatMap_map]
  refine List.Sublist.flatMap_right _ fun p _ => List.Sublist.flatMap_right _ fun u _ => ?_
  exact List.Sublist.flatMap_right _ fun d _ => d.declaredTypes_sublist

theorem declaredTypes_types (run : Run s sources) :
    (run.parts.flatMap fun p => p.units.types.flatMap CodeUnit.declaredTypes)
      = (typeNames sources).dedup := by
  rw [← Source.map_name_survivors]
  refine Outcome.flatMap_eq_of_forall₂ run.forall₂_types fun types p htypes => ?_
  rw [List.map_eq_flatMap]
  exact Outcome.flatMap_eq_of_forall₂ htypes fun t u htu => htu.declaredTypes_eq

theorem declaredTypes_classes (run : Run s sources) :
    (run.parts.flatMap fun p => p.units.classes.flatMap CodeUnit.declaredTypes)
      = (classNames sources).flatMap (classTypes s.code.rootClass) := by
  have hpart : ∀ p ∈ run.parts, p.units.classes.flatMap CodeUnit.declaredTypes
      = (p.source.document.remoteClasses.map Schema.RemoteClass.name).flatMap
        (classTypes s.code.rootClass) := by
    intro p hp
    rw [List.flatMap_map]
    exact Outcome.flatMap_eq_of_forall₂ (run.forall₂_classes hp) fun c u hcu =>
      hcu.declaredTypes_eq
  rw [List.flatMap_congr hpart, classNames, List.flatMap_assoc]
  conv_rhs => rw [← run.source_parts, List.flatMap_map]

/-- **The types that a run declares**, read off its sources. -/
theorem declaredTypes_perm (run : Run s sources) :
    run.declaredTypes.Perm ((typeNames sources).dedup ++ (classNames sources ++
      ((classNames sources).filter fun name => name ≠ s.code.rootClass).map capabilityName)) := by
  have hsplit : run.declaredTypes.Perm ((typeNames sources).dedup ++
      (classNames sources).flatMap (classTypes s.code.rootClass)) := by
    rw [← run.declaredTypes_types, ← run.declaredTypes_classes]
    unfold declaredTypes
    simp only [List.flatMap_append]
    exact (List.flatMap_append_perm _ _ _).symm
  exact hsplit.trans (List.Perm.append_left _ (flatMap_classTypes_perm _ _))

end Compilation.Run

namespace Compilation

open Binding

/-- **Every type is declared exactly once.** A successful run has units for the complex types that
    no later one replaces and for all classes, each in the part of its source and in order. Together
    they declare these types, and the capability interfaces of classes other than the root. -/
theorem declares_every_type_once {s : Settings} {sources : List Source} {files : List OutputFile}
    (h : (compileSources s sources).result = .ok files) :
    ∃ run : Run s sources, run.files = files ∧
      List.Forall₂ (fun types p => List.Forall₂ (fun t u =>
          RendersType run.registry s.code p.source.path t u ∧ u.declaredTypes = [t.name])
        types p.units.types) (survivors sources) run.parts ∧
      (∀ p ∈ run.parts, List.Forall₂ (fun c u =>
          RendersClass run.registry s.code p.source.path c u ∧
            u.declaredTypes = classTypes s.code.rootClass c.name)
        p.source.document.remoteClasses p.units.classes) ∧
      run.declaredTypes.Perm ((typeNames sources).dedup ++ (classNames sources ++
        ((classNames sources).filter fun name => name ≠ s.code.rootClass).map capabilityName)) ∧
      run.declaredTypes.Nodup := by
  obtain ⟨run, rfl⟩ := result_compileSources_eq_ok_iff.1 h
  refine ⟨run, rfl, ?_, fun p hp => ?_, run.declaredTypes_perm, run.nodup_declaredTypes⟩
  · exact run.forall₂_types.imp fun types p htypes =>
      htypes.imp fun t u htu => ⟨htu, htu.declaredTypes_eq⟩
  · exact (run.forall₂_classes hp).imp fun c u hcu => ⟨hcu, hcu.declaredTypes_eq⟩

/-- Sources that declare a type three times, twice in one of them. -/
def taggedSources : List Source := [
  { path := ⟨"tags.kmd.json"⟩
    document := {
      remoteClasses := []
      complexTypes := [
        { format := none, name := "Tag", doc := "", values := [], properties := [],
          baseText := none },
        { format := none, name := "Size", doc := "", values := [], properties := [],
          baseText := none },
        { format := some "Enum", name := "Tag", doc := "", values := ["A"], properties := [],
          baseText := none }] } },
  { path := ⟨"core.kmd.json"⟩
    document := {
      remoteClasses := [
        { name := "Player", doc := "", baseText := some " MediaObject ", properties := [],
          methods := [], events := [], constructor := none },
        { name := "MediaObject", doc := "", baseText := none, properties := [], methods := [],
          events := [], constructor := none }]
      complexTypes := [
        { format := none, name := "Tag", doc := "", values := [], properties := [],
          baseText := some "Size" }] } }]

def overriding : Settings := { Settings.default with
  code := { CodeSettings.default with allowOverrides := true } }

theorem declares_overridden_type_once :
    ∃ run : Run overriding taggedSources,
      run.declaredTypes.Perm ["Size", "Tag", "Player", "MediaObject", "IPlayer"] := by
  obtain ⟨files, h⟩ : ∃ files, (compileSources overriding taggedSources).result = .ok files :=
    Outcome.exists_eq_ok_of_isOk (by decide +kernel)
  obtain ⟨run, -, -, -, hperm, -⟩ := declares_every_type_once h
  exact ⟨run, hperm.trans (by decide +kernel)⟩

end Compilation

end GoBindings
