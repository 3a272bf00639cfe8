import GoBindings.Compilation
import GoBindings.Proofs.Outcome

set_option autoImplicit false

/-! # Where failures come from

A failure tells at which stage a run has stopped. What comes after the registry fails only with
something about a description or its code, so a name that is declared twice, or a cycle, comes from
the registry. No stage up to the finished files writes anything, and none fails with a file that
could not be written, so such a failure tells that all files were finished. -/

namespace GoBindings

namespace Failure

/-- Not about a file that could not be written. -/
def BeforeWriting : Failure → Prop
  | .unwritten _ _ => False
  | _ => True

/-- About a description or its code, and not about how declarations go together. -/
def OfCode : Failure → Prop
  | .badDescription _ _ | .unresolved _ _ | .unrenderable _ _ | .badSettings _ => True
  | _ => False

theorem OfCode.beforeWriting {failure : Failure} (h : failure.OfCode) : failure.BeforeWriting := by
  cases failure with
  | unwritten => exact h
  | _ => trivial

end Failure

open Failure (BeforeWriting OfCode)

/-! ## Compound steps -/

namespace Outcome

variable {α β : Type} {P Q : Failure → Prop}

/-- A failure of the step is one of those that are given. -/
def FailsWith (P : Failure → Prop) (x : Except Failure α) : Prop :=
  ∀ failure, x = .error failure → P failure

theorem failsWith_ok (a : α) : FailsWith P (.ok a) := fun _ h => nomatch h

theorem failsWith_error {failure : Failure} (h : P failure) :
    FailsWith P (.error failure : Except Failure α) := by
  rintro _ ⟨⟩
  exact h

theorem FailsWith.mono {x : Except Failure α} (hx : FailsWith P x) (h : ∀ {f}, P f → Q f) :
    FailsWith Q x :=
  fun failure hfailure => h (hx failure hfailure)

theorem FailsWith.bind {x : Except Failure α} {f : α → Except Failure β} (hx : FailsWith P x)
    (hf : ∀ a, FailsWith P (f a)) : FailsWith P (x >>= f) := by
  cases x with
  | error failure => exact failsWith_error (hx failure rfl)
  | ok a => exact hf a

theorem FailsWith.map {x : Except Failure α} (hx : FailsWith P x) (f : α → β) :
    FailsWith P (f <$> x) := by
  cases x with
  | error failure => exact failsWith_error (hx failure rfl)
  | ok a => exact failsWith_ok (f a)

theorem failsWith_mapM {f : α → Except Failure β} (hf : ∀ a, FailsWith P (f a)) (as : List α) :
    FailsWith P (as.mapM f) := by
  induction as with
  | nil => exact failsWith_ok []
  | cons a as ih =>
    rw [List.mapM_cons]
    exact (hf a).bind fun b => ih.bind fun bs => failsWith_ok (b :: bs)

theorem failsWith_forM {f : α → Except Failure Unit} (hf : ∀ a, FailsWith P (f a))
    (as : List α) : FailsWith P (as.forM f) := by
  induction as with
  | nil => exact failsWith_ok ()
  | cons a as ih => exact (hf a).bind fun _ => ih

end Outcome

namespace Logged

open Outcome

variable {α β : Type} {P Q : Failure → Prop}

def FailsWith (P : Failure → Prop) (x : Logged α) : Prop := Outcome.FailsWith P x.result

theorem failsWith_pure (a : α) : FailsWith P (pure a) := failsWith_ok a

theorem failsWith_fail {failure : Failure} (h : P failure) :
    FailsWith P (fail failure : Logged α) := failsWith_error h

theorem failsWith_note (notice : Notice) : FailsWith P (note notice) := failsWith_ok ()

theorem FailsWith.mono {x : Logged α} (hx : FailsWith P x) (h : ∀ {f}, P f → Q f) :
    FailsWith Q x :=
  Outcome.FailsWith.mono hx h

theorem FailsWith.bind {x : Logged α} {f : α → Logged β} (hx : FailsWith P x)
    (hf : ∀ a, FailsWith P (f a)) : FailsWith P (x >>= f) := by
  unfold FailsWith
  rw [result_bind]
  exact Outcome.FailsWith.bind hx hf

theorem failsWith_mapM {f : α → Logged β} (hf : ∀ a, FailsWith P (f a)) (as : List α) :
    FailsWith P (as.mapM f) := by
  unfold FailsWith
  rw [result_mapM]
  exact Outcome.failsWith_mapM hf as

theorem failsWith_foldlM {f : β → α → Logged β} (hf : ∀ b a, FailsWith P (f b a)) (as : List α)
    (b : β) : FailsWith P (as.foldlM f b) := by
  induction as generalizing b with
  | nil => exact failsWith_pure b
  | cons a as ih =>
    rw [List.foldlM_cons]
    exact (hf b a).bind ih

end Logged

open Outcome (FailsWith failsWith_ok failsWith_error failsWith_mapM failsWith_forM)

/-! ## The registry -/

namespace Registry

theorem failsWith_resolve (r : Registry) (name : String) (place : Place) :
    FailsWith OfCode (r.resolve name place) := by
  unfold resolve
  split
  · exact failsWith_ok _
  · exact failsWith_error trivial

section Declaring

variable {P : Failure → Prop} (hP : ∀ name first second, P (.declaredTwice name first second))

include hP

theorem failsWith_declareType (overrides : Bool) (r : Registry) (d : String × Entry) :
    (declareType overrides r d).FailsWith P := by
  unfold declareType
  split
  · exact Logged.failsWith_pure _
  · split
    · exact (Logged.failsWith_note _).bind fun _ => Logged.failsWith_pure _
    · exact Logged.failsWith_fail (hP _ _ _)

theorem failsWith_declareClass (r : Registry) (d : String × Entry) :
    (declareClass r d).FailsWith P := by
  unfold declareClass
  split
  · exact Logged.failsWith_pure _
  · exact Logged.failsWith_fail (hP _ _ _)

/-- Declaring fails only with a name that is declared twice. -/
theorem failsWith_declareAll (overrides : Bool) (sources : List Source) :
    (declareAll overrides sources).FailsWith P :=
  (Logged.failsWith_foldlM (failsWith_declareType hP overrides) _ _).bind
    (Logged.failsWith_foldlM (failsWith_declareClass hP) _)

end Declaring

theorem failsWith_checkBase {P : Failure → Prop} (hP : ∀ name place, P (.unresolved name place))
    (r : Registry) (name : String) : FailsWith P (r.checkBase name) := by
  unfold checkBase
  split
  · exact failsWith_ok ()
  · split
    · exact failsWith_ok ()
    · split
      · exact failsWith_ok ()
      · exact failsWith_error (hP _ _)

theorem failsWith_checkEnds (r : Registry) (name : String) :
    FailsWith BeforeWriting (r.checkEnds name) := by
  unfold checkEnds
  split
  · exact failsWith_error trivial
  · exact failsWith_ok ()

theorem failsWith_build (overrides : Bool) (sources : List Source) :
    (build overrides sources).FailsWith BeforeWriting := by
  have hdeclared : (declareAll overrides sources).FailsWith BeforeWriting :=
    failsWith_declareAll (fun _ _ _ => trivial) overrides sources
  have hchecked : ∀ r : Registry, FailsWith BeforeWriting r.checkHierarchy := fun r =>
    (failsWith_forM (r.failsWith_checkBase fun _ _ => trivial) r.names).bind fun _ =>
      failsWith_forM r.failsWith_checkEnds r.names
  exact hdeclared.bind fun all =>
    Logged.FailsWith.bind (hchecked all) fun _ => Logged.failsWith_pure all

end Registry

/-! ## Modules -/

namespace Interface

theorem failsWith_parseType (path : Path) (place : Place) (text : String) :
    (parseType path place text).FailsWith OfCode := by
  unfold parseType
  split
  · exact Logged.failsWith_pure _
  · exact Logged.failsWith_fail trivial

theorem failsWith_settleDefault (place : Place) (type : TypeExpr) (value : Option Json.Value) :
    (settleDefault place type value).FailsWith OfCode := by
  unfold settleDefault
  split
  · exact Logged.failsWith_pure _
  · exact Logged.failsWith_pure _
  · split
    · exact Logged.failsWith_pure _
    · exact (Logged.failsWith_note _).bind fun _ => Logged.failsWith_pure _

theorem failsWith_field (path : Path) (place : Place) (p : Schema.Property) :
    (Field.ofProperty path place p).FailsWith OfCode :=
  (failsWith_parseType path place p.type).bind fun _ =>
    (failsWith_settleDefault place _ p.defaultValue).bind fun _ => Logged.failsWith_pure _

theorem failsWith_result (path : Path) (place : Place) (r : Option Schema.Result) :
    (Result.ofSchema path place r).FailsWith OfCode := by
  unfold Result.ofSchema
  split
  · exact Logged.failsWith_pure _
  · split
    · exact Logged.failsWith_pure _
    · exact (failsWith_parseType path place _).bind fun _ => Logged.failsWith_pure _

theorem failsWith_method (path : Path) (owner : String) (m : Schema.Method) :
    (Method.ofSchema path owner m).FailsWith OfCode :=
  (Logged.failsWith_mapM (fun p => failsWith_field path _ p) m.params).bind fun _ =>
    (failsWith_result path _ m.result).bind fun _ => Logged.failsWith_pure _

theorem failsWith_class (path : Path) (c : Schema.RemoteClass) :
    (Class.ofSchema path c).FailsWith OfCode :=
  (Logged.failsWith_mapM (fun p => failsWith_field path _ p) c.properties).bind fun _ =>
    (Logged.failsWith_mapM (fun m => failsWith_method path c.name m) c.methods).bind fun _ =>
      (Logged.failsWith_mapM (fun p => failsWith_field path _ p) c.constructorParams).bind
        fun _ => Logged.failsWith_pure _

theorem failsWith_dataType (path : Path) (t : Schema.ComplexType) :
    (DataType.ofSchema path t).FailsWith OfCode := by
  have hshape : (Shape.ofSchema path t).FailsWith OfCode := by
    unfold Shape.ofSchema
    split
    · exact Logged.failsWith_pure _
    · exact (Logged.failsWith_mapM (fun p => failsWith_field path _ p) t.properties).bind
        fun _ => Logged.failsWith_pure _
  exact hshape.bind fun _ => Logged.failsWith_pure _

theorem failsWith_module (s : Source) : (Module.ofSource s).FailsWith OfCode :=
  (Logged.failsWith_mapM (failsWith_dataType s.path) s.document.complexTypes).bind fun _ =>
    (Logged.failsWith_mapM (failsWith_class s.path) s.document.remoteClasses).bind fun _ =>
      Logged.failsWith_pure _

end Interface

/-! ## Units and files -/

namespace Binding

theorem failsWith_ensureUnique (unit : String) (kind : NameKind) (names : List String) :
    FailsWith OfCode (ensureUnique unit kind names) := by
  unfold ensureUnique
  split
  · exact failsWith_error trivial
  · exact failsWith_ok ()

variable (registry : Registry)

theorem failsWith_ofType (place : Place) (type : TypeExpr) :
    FailsWith OfCode (Resolved.ofType registry place type) := by
  induction type with
  | primitive p => exact failsWith_ok _
  | named name => exact (registry.failsWith_resolve name place).map _
  | collection item ih => exact ih.map _
  | optional inner ih => exact ih.map _

theorem failsWith_method (owner : String) (m : Interface.Method) :
    FailsWith OfCode (Method.ofInterface registry owner m) := by
  have hparam : ∀ f, FailsWith OfCode (Param.ofField registry owner m.name f) := fun f =>
    (failsWith_ofType registry _ f.type).bind fun _ => failsWith_ok _
  have hresult :
      FailsWith OfCode (Method.resolveResult registry (.result owner m.name) m.result) := by
    unfold Method.resolveResult
    split
    · exact (failsWith_ofType registry _ _).map _
    · exact failsWith_ok none
  exact (failsWith_mapM hparam m.params).bind fun _ =>
    (failsWith_ensureUnique _ _ _).bind fun _ => hresult.bind fun _ => failsWith_ok _

theorem failsWith_propertyField (style : OptionalStyle) (owner : String) (f : Interface.Field) :
    FailsWith OfCode (propertyField registry style owner f) :=
  (failsWith_ofType registry _ f.type).bind fun _ => failsWith_ok _

theorem failsWith_typeUnit (code : CodeSettings) (t : Interface.DataType) :
    FailsWith OfCode (typeUnit registry code t) := by
  unfold typeUnit
  split
  · refine FailsWith.bind ?_ fun _ => failsWith_ok _
    exact (failsWith_ensureUnique _ _ _).bind fun _ => failsWith_ok _
  · refine FailsWith.bind ?_ fun _ => failsWith_ok _
    exact (failsWith_mapM (failsWith_propertyField registry code.optionalStyle t.name) _).bind
      fun _ => (failsWith_ensureUnique _ _ _).bind fun _ => failsWith_ok _

theorem failsWith_classUnit (code : CodeSettings) (c : Interface.Class) :
    FailsWith OfCode (classUnit registry code c) := by
  have hseed : ∀ f, FailsWith OfCode (Seed.ofField registry c.name f) := fun f =>
    (failsWith_ofType registry _ f.type).bind fun _ => failsWith_ok _
  exact (failsWith_mapM (failsWith_method registry c.name) c.methods).bind fun _ =>
    (failsWith_mapM (failsWith_propertyField registry code.optionalStyle c.name) _).bind
      fun _ => (failsWith_ensureUnique _ _ _).bind fun _ =>
        (failsWith_mapM hseed c.constructorParams).bind fun _ => failsWith_ok _

theorem failsWith_moduleUnits (code : CodeSettings) (m : Interface.Module) :
    FailsWith OfCode (ModuleUnits.ofModule registry code m) :=
  (failsWith_mapM (failsWith_typeUnit registry code) _).bind fun _ =>
    (failsWith_mapM (failsWith_classUnit registry code) m.classes).bind fun _ => failsWith_ok _

end Binding

/-! ## Whole runs -/

namespace Compilation

/-- What a run makes of its sources once the registry is there. -/
def afterRegistry (s : Settings) (sources : List Source) (registry : Registry) :
    Logged (List OutputFile) := do
  noteRoot registry s.code.rootClass
  let modules ← sources.mapM Interface.Module.ofSource
  let units ← Logged.ofExcept <|
    modules.mapM fun m => Binding.ModuleUnits.ofModule registry s.code m
  Logged.ofExcept (Binding.ensurePackageNamesUnique units)
  let files := (modules.zip units).flatMap fun (m, u) => Output.ofModule s m.source u
  Logged.ofExcept (Output.checkCollisions files)
  return files

theorem compileSources_eq_bind (s : Settings) (sources : List Source) :
    compileSources s sources
      = Registry.build s.code.allowOverrides sources >>= afterRegistry s sources := rfl

/-- What comes after the registry fails with a description or its code. -/
theorem failsWith_afterRegistry (s : Settings) (sources : List Source) (registry : Registry) :
    (afterRegistry s sources registry).FailsWith OfCode := by
  have hroot : (noteRoot registry s.code.rootClass).FailsWith OfCode := by
    unfold noteRoot
    split
    · exact Logged.failsWith_pure ()
    · exact Logged.failsWith_note _
  have hnames : ∀ units, FailsWith OfCode (Binding.ensurePackageNamesUnique units) := by
    intro units
    simp only [Binding.ensurePackageNamesUnique]
    split
    · exact failsWith_error trivial
    · exact failsWith_ok ()
  have hpaths : ∀ files, FailsWith OfCode (Output.checkCollisions files) := by
    intro files
    unfold Output.checkCollisions
    split
    · exact failsWith_error trivial
    · exact failsWith_ok ()
  refine hroot.bind fun _ => ?_
  refine (Logged.failsWith_mapM Interface.failsWith_module sources).bind fun modules => ?_
  have hunits := failsWith_mapM (Binding.failsWith_moduleUnits registry s.code) modules
  refine Logged.FailsWith.bind hunits fun units => ?_
  refine Logged.FailsWith.bind (hnames units) fun _ => ?_
  exact Logged.FailsWith.bind (hpaths _) fun _ => Logged.failsWith_pure _

theorem failsEarly_compileSources (s : Settings) (sources : List Source) :
    (compileSources s sources).FailsWith BeforeWriting := by
  rw [compileSources_eq_bind]
  exact (Registry.failsWith_build s.code.allowOverrides sources).bind fun registry =>
    (failsWith_afterRegistry s sources registry).mono OfCode.beforeWriting

theorem failsEarly_loadSources (t : FileTree) (root : Path) (patterns : List String) :
    (loadSources t root patterns).FailsWith BeforeWriting := by
  have hmatching : ∀ pattern, FailsWith BeforeWriting (filesMatching t root pattern) := by
    intro pattern
    unfold filesMatching
    split
    · exact failsWith_error trivial
    · split
      · exact failsWith_error trivial
      · exact failsWith_ok _
  have hadd : ∀ found pattern, (addMatching t root found pattern).FailsWith BeforeWriting := by
    intro found pattern
    refine Logged.FailsWith.bind (hmatching pattern) fun matched => ?_
    split
    · exact (Logged.failsWith_note _).bind fun _ => Logged.failsWith_pure _
    · exact (Logged.failsWith_pure ()).bind fun _ => Logged.failsWith_pure _
  have hfind : (findSources t root patterns).FailsWith BeforeWriting := by
    refine (Logged.failsWith_foldlM hadd patterns []).bind fun found => ?_
    split
    · exact Logged.failsWith_fail trivial
    · exact Logged.failsWith_pure found
  have hload : ∀ path, FailsWith BeforeWriting (loadSource t path) := by
    intro path
    unfold loadSource Source.parse
    split
    · split
      · exact failsWith_ok _
      · exact failsWith_error trivial
    · exact failsWith_error trivial
  exact hfind.bind fun paths => failsWith_mapM hload paths

/-- **No run fails with a file that could not be written before all its files are finished.** -/
theorem failsEarly_compile (t : FileTree) (s : Settings) :
    (compile t s).FailsWith BeforeWriting := by
  have hvalidate : FailsWith BeforeWriting s.validate := by
    unfold Settings.validate
    split
    · exact failsWith_error trivial
    · exact failsWith_ok ()
  refine Logged.FailsWith.bind hvalidate fun _ => ?_
  refine (failsEarly_loadSources t s.inputRoot s.globs).bind fun sources => ?_
  exact (failsEarly_compileSources s sources).bind fun files => Logged.failsWith_pure _

end Compilation

end GoBindings
