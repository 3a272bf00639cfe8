import GoBindings.Proofs.Emission
import GoBindings.Proofs.Identifiers
import GoBindings.Proofs.Package
import GoBindings.Proofs.Signatures
import Mathlib.Data.List.Pairwise

set_option autoImplicit false

/-! # The code of a class within its package

A package says about a class what the unit of the class says: no other unit declares a type of its
names or gives it a method (`flatMap_decls`). So the interface, the fields and the methods of a
class can be read off its description, wherever in the package one looks for them. -/

namespace GoBindings

open Binding

/-! ## Units of a run -/

theorem flatMap_eq_of_unique_key {α β : Type} {key : α → String} {f : α → List β} {as : List α}
    {a : α} (hnodup : (as.map key).Nodup) (ha : a ∈ as)
    (hother : ∀ b ∈ as, key b ≠ key a → f b = []) : as.flatMap f = f a := by
  induction as with
  | nil => exact absurd ha List.not_mem_nil
  | cons b as ih =>
    rw [List.map_cons, List.nodup_cons] at hnodup
    rw [List.flatMap_cons]
    rcases List.mem_cons.1 ha with rfl | ha
    · have hrest : as.flatMap f = [] := by
        refine List.flatMap_eq_nil_iff.2 fun b hb => hother b (List.mem_cons_of_mem a hb) ?_
        exact fun heq => hnodup.1 (heq ▸ List.mem_map_of_mem hb)
      rw [hrest, List.append_nil]
    · have hne : key b ≠ key a := fun heq => hnodup.1 (heq ▸ List.mem_map_of_mem ha)
      rw [hother b List.mem_cons_self hne, List.nil_append]
      exact ih hnodup.2 ha fun b hb => hother b (List.mem_cons_of_mem _ hb)

namespace Binding

theorem receiver_of_mem_classDecls {code : CodeSettings} {c : Interface.Class}
    {methods : List Method} {properties : List Go.Field} {seeds : List Seed} {f : Go.Func}
    (hf : Go.Decl.func f ∈ classDecls code c methods properties seeds) :
    f.receiver = some (receiver c.name) := by
  simp only [classDecls, List.mem_append] at hf
  rcases hf with (hf | hf) | hf
  · split at hf
    · exact absurd hf List.not_mem_nil
    · exact absurd (List.mem_singleton.1 hf) Go.Decl.noConfusion
  · rcases List.mem_cons.1 hf with hf | hf
    · exact absurd hf Go.Decl.noConfusion
    · rw [Go.Decl.func.inj (List.mem_singleton.1 hf)]
      rfl
  · obtain ⟨m, -, hm⟩ := List.mem_map.1 hf
    rw [← Go.Decl.func.inj hm]
    rfl

theorem receiver_of_mem_typeUnit {registry : Registry} {code : CodeSettings}
    {t : Interface.DataType} {u : CodeUnit} (h : typeUnit registry code t = .ok u) {f : Go.Func}
    (hf : Go.Decl.func f ∈ u.decls) : f.receiver = some { name := "t", type := .named t.name } := by
  obtain ⟨decls, rfl, hdecls⟩ := typeUnit_eq_ok_iff.1 h
  cases hshape : t.shape with
  | enum values =>
    rw [hshape] at hdecls
    obtain ⟨-, rfl⟩ := enumDecls_eq_ok_iff.1 hdecls
    rcases List.mem_cons.1 hf with hf | hf
    · exact absurd hf Go.Decl.noConfusion
    rcases List.mem_cons.1 hf with hf | hf
    · rw [Go.Decl.func.inj hf]
      rfl
    · split at hf
      · exact absurd hf List.not_mem_nil
      · exact absurd (List.mem_singleton.1 hf) Go.Decl.noConfusion
  | record base fields =>
    rw [hshape] at hdecls
    obtain ⟨own, -, -, rfl⟩ := recordDecls_eq_ok_iff.1 hdecls
    exact absurd (List.mem_singleton.1 hf) Go.Decl.noConfusion

end Binding

namespace Compilation.Run

variable {s : Settings} {sources : List Source}

/-- All declarations of the package. -/
def decls (run : Run s sources) : List Go.Decl := run.goFiles.flatMap Go.File.decls

/-- All units, in the order of the files. -/
def units (run : Run s sources) : List CodeUnit :=
  run.parts.flatMap fun p => p.units.classes ++ p.units.types

theorem decls_eq_flatMap (run : Run s sources) : run.decls = run.units.flatMap CodeUnit.decls := by
  unfold decls goFiles units
  rw [List.flatMap_assoc, List.flatMap_assoc]
  refine List.flatMap_congr fun p _ => ?_
  unfold Part.goFiles
  cases htypes : p.units.types with
  | nil => simp [Output.fileOf]
  | cons u us => simp [Output.fileOf]

theorem nodup_declaredTypes_units (run : Run s sources) :
    (run.units.flatMap CodeUnit.declaredTypes).Nodup := by
  refine List.Perm.nodup ?_ run.nodup_declaredTypes
  unfold units declaredTypes
  rw [List.flatMap_assoc]
  refine List.Perm.flatMap_left _ fun p _ => ?_
  rw [List.flatMap_append, List.flatMap_append]
  exact List.perm_append_comm

theorem declaredTypes_decls (run : Run s sources) :
    run.decls.flatMap Go.Decl.declaredTypes = run.units.flatMap CodeUnit.declaredTypes := by
  rw [run.decls_eq_flatMap, List.flatMap_assoc]
  rfl

/-- A unit is made from a class or from a data type. -/
theorem exists_of_mem_units (run : Run s sources) {u : CodeUnit} (hu : u ∈ run.units) :
    (∃ c, classUnit run.registry s.code c = .ok u) ∨
      ∃ t, typeUnit run.registry s.code t = .ok u := by
  obtain ⟨p, hp, hu⟩ := List.mem_flatMap.1 hu
  obtain ⟨htypes, hclasses⟩ := ModuleUnits.ofModule_eq_ok_iff.1 (run.made p hp).coded
  rcases List.mem_append.1 hu with hu | hu
  · obtain ⟨c, -, hc⟩ := Outcome.exists_of_mem_right hclasses hu
    exact Or.inl ⟨c, hc⟩
  · obtain ⟨t, -, ht⟩ := Outcome.exists_of_mem_right htypes hu
    exact Or.inr ⟨t, ht⟩

theorem name_mem_declaredTypes (run : Run s sources) {u : CodeUnit} (hu : u ∈ run.units) :
    u.name ∈ u.declaredTypes := by
  rcases run.exists_of_mem_units hu with ⟨c, hc⟩ | ⟨t, ht⟩
  · rw [declaredTypes_classUnit hc]
    obtain ⟨methods, properties, seeds, -, -, -, -, rfl⟩ := classUnit_eq_ok_iff.1 hc
    exact List.mem_append_right _ List.mem_cons_self
  · rw [declaredTypes_typeUnit ht]
    obtain ⟨decls, rfl, -⟩ := typeUnit_eq_ok_iff.1 ht
    exact List.mem_cons_self

/-- A unit gives methods to the type that it is named after only. -/
theorem receiver_of_mem_units (run : Run s sources) {u : CodeUnit} (hu : u ∈ run.units)
    {f : Go.Func} (hf : Go.Decl.func f ∈ u.decls) :
    (f.receiver.bind fun p => p.type.declared?) = some u.name := by
  rcases run.exists_of_mem_units hu with ⟨c, hc⟩ | ⟨t, ht⟩
  · obtain ⟨methods, properties, seeds, -, -, -, -, rfl⟩ := classUnit_eq_ok_iff.1 hc
    rw [receiver_of_mem_classDecls hf]
    rfl
  · obtain ⟨decls, rfl, hdecls⟩ := typeUnit_eq_ok_iff.1 ht
    rw [receiver_of_mem_typeUnit ht hf]
    rfl

theorem nodup_names (run : Run s sources) : (run.units.map CodeUnit.name).Nodup := by
  refine run.nodup_declaredTypes_units.sublist ?_
  rw [List.map_eq_flatMap]
  refine List.Sublist.flatMap_right _ fun u hu => ?_
  exact List.singleton_sublist.2 (run.name_mem_declaredTypes hu)

/-- **What a package says about a unit, the unit says.** -/
theorem flatMap_decls (run : Run s sources) {α : Type} {f : Go.Decl → List α} {u : CodeUnit}
    (hu : u ∈ run.units)
    (hother : ∀ v ∈ run.units, v.name ≠ u.name → ∀ d ∈ v.decls, f d = []) :
    run.decls.flatMap f = u.decls.flatMap f := by
  rw [run.decls_eq_flatMap, List.flatMap_assoc]
  refine flatMap_eq_of_unique_key run.nodup_names hu fun v hv hne => ?_
  exact List.flatMap_eq_nil_iff.2 (hother v hv hne)

/-- No two units declare one type. -/
theorem name_ne_of_mem_units (run : Run s sources) {u v : CodeUnit} (hu : u ∈ run.units)
    (hv : v ∈ run.units) (hne : v.name ≠ u.name) {name : String} (hname : name ∈ u.declaredTypes)
    {t : Go.TypeDecl} (ht : Go.Decl.type t ∈ v.decls) : t.name ≠ name := by
  rintro rfl
  have hdisjoint := (List.nodup_flatMap.1 run.nodup_declaredTypes_units).2
  have hsymm : Std.Symm (Function.onFun List.Disjoint CodeUnit.declaredTypes) :=
    ⟨fun _ _ h => h.symm⟩
  have hmem : t.name ∈ v.declaredTypes := List.mem_flatMap.2 ⟨_, ht, List.mem_cons_self⟩
  exact hdisjoint.forall hu hv (fun heq => hne (heq ▸ rfl)) hname hmem

end Compilation.Run

/-! ## Classes -/

/-- Some source declares the class. -/
def Source.HasClass (sources : List Source) (c : Schema.RemoteClass) : Prop :=
  ∃ source ∈ sources, c ∈ source.document.remoteClasses

/-- The names under which a class brings its base, its properties and its methods. -/
def Schema.RemoteClass.memberNames (c : Schema.RemoteClass) : List String :=
  c.base.toList ++ (c.properties.map fun p => Identifier.exported p.name) ++
    c.methods.map fun m => Identifier.exported m.name

namespace Compilation

variable {s : Settings} {sources : List Source}

/-- What a run has made of a class. -/
structure ClassCode (run : Run s sources) (c : Schema.RemoteClass) where
  declared : Interface.Class
  methods : List Method
  properties : List Go.Field
  seeds : List Seed
  unit : CodeUnit
  name_eq : declared.name = c.name
  base_eq : declared.base = c.base
  signatures : List.Forall₂ (HasSignature run.registry s.code) c.methods
    (methods.map fun m => m.signature s.code)
  property_names : properties.map Go.Field.name
    = c.properties.map fun p => some (Identifier.exported p.name)
  members_once : c.memberNames.Nodup
  unit_mem : unit ∈ run.units
  unit_name : unit.name = c.name
  unit_decls : unit.decls = classDecls s.code declared methods properties seeds

theorem map_name_of_properties {r : Registry} {style : OptionalStyle} {owner : String}
    {ps : List Schema.Property} {gs : List Go.Field}
    (h : List.Forall₂ (fun p g => ∃ f : Interface.Field, f.name = p.name ∧
      propertyField r style owner f = .ok g) ps gs) :
    gs.map Go.Field.name = ps.map fun p => some (Identifier.exported p.name) := by
  induction h with
  | nil => rfl
  | @cons p g _ _ hp _ ih =>
    obtain ⟨f, hname, hg⟩ := hp
    obtain ⟨t, -, hg⟩ := Outcome.bind_eq_ok_iff.1 hg
    cases hg
    rw [List.map_cons, List.map_cons, ih, hname]

theorem filterMap_name_of_names {gs : List Go.Field} {ps : List Schema.Property}
    (h : gs.map Go.Field.name = ps.map fun p => some (Identifier.exported p.name)) :
    gs.filterMap Go.Field.name = ps.map fun p => Identifier.exported p.name := by
  have hsome := congrArg (List.filterMap id) h
  simpa [List.filterMap_map, Function.comp_def] using hsome

theorem Run.nonempty_classCode (run : Run s sources) {c : Schema.RemoteClass}
    (hc : Source.HasClass sources c) : Nonempty (ClassCode run c) := by
  obtain ⟨source, hsource, hc⟩ := hc
  rw [← run.source_parts] at hsource
  obtain ⟨p, hp, rfl⟩ := List.mem_map.1 hsource
  obtain ⟨u, hu, k, hk, hunit⟩ := Outcome.exists_of_mem_left (run.forall₂_classes hp) hc
  obtain ⟨hname, hbase⟩ := Interface.Class.name_base_of_ofSchema hk
  obtain ⟨hfields, hmethods⟩ := Interface.Class.members_of_ofSchema hk
  obtain ⟨methods, properties, seeds, hm, hf, hunique, -, rfl⟩ := classUnit_eq_ok_iff.1 hunit
  have hsigs : List.Forall₂ (HasSignature run.registry s.code) c.methods
      (methods.map fun m => m.signature s.code) := by
    rw [hname] at hm
    refine List.forall₂_map_right_iff.2 ((Outcome.forall₂_trans hmethods hm).imp ?_)
    rintro m n ⟨k, hk, hn⟩
    exact hasSignature_of_made hk hn
  have hproperties := map_name_of_properties (Outcome.forall₂_trans hfields hf)
  have honce : c.memberNames.Nodup := by
    rw [ensureUnique_eq_ok_iff, map_goName_of_signatures hsigs, filterMap_name_of_names hproperties,
      hbase] at hunique
    exact hunique
  exact ⟨{
    declared := k, methods, properties, seeds, unit := _, name_eq := hname, base_eq := hbase
    signatures := hsigs, property_names := hproperties, members_once := honce
    unit_mem := List.mem_flatMap.2 ⟨p, hp, List.mem_append_left _ hu⟩, unit_name := hname
    unit_decls := rfl }⟩

namespace ClassCode

variable {run : Run s sources} {c : Schema.RemoteClass}

theorem declaredTypes_unit (k : ClassCode run c) :
    k.unit.declaredTypes = classTypes s.code.rootClass c.name := by
  unfold CodeUnit.declaredTypes
  rw [k.unit_decls, declaredTypes_classDecls, k.name_eq]

/-- What a package says about a class, the declarations of the class say. -/
theorem flatMap_decls (k : ClassCode run c) {α : Type} {f : Go.Decl → List α}
    (hother : ∀ v ∈ run.units, v.name ≠ k.unit.name → ∀ d ∈ v.decls, f d = []) :
    run.decls.flatMap f =
      (if c.name = s.code.rootClass then []
        else f (.type (capabilityDecl s.code k.declared k.methods))) ++
      f (.type (classStruct k.declared k.properties)) ++
      f (.func (constructorFunc s.code c.name k.seeds)) ++
      k.methods.flatMap fun m => f (.func (m.stub s.code c.name)) := by
  rw [run.flatMap_decls k.unit_mem hother, k.unit_decls, classDecls, k.name_eq]
  split <;> simp [List.flatMap_map]

theorem ne_of_declared (k : ClassCode run c) {name : String} (hname : name ∈ k.unit.declaredTypes) :
    ∀ v ∈ run.units, v.name ≠ k.unit.name → ∀ d ∈ v.decls, ∀ t, d = Go.Decl.type t →
      t.name ≠ name := by
  rintro v hv hne _ hd t rfl
  exact run.name_ne_of_mem_units k.unit_mem hv hne hname hd

/-- The interface of a class, on top of that of its base. -/
def capability (k : ClassCode run c) : Go.Interface where
  name := capabilityName c.name
  embeds := (c.base.toList.filter fun base => base != s.code.rootClass).map capabilityName
  methods := k.methods.map fun m => m.signature s.code

theorem interfacesNamed_eq (k : ClassCode run c) (hroot : c.name ≠ s.code.rootClass) :
    Go.interfacesNamed run.decls (capabilityName c.name) = [k.capability] := by
  have hdeclared : capabilityName c.name ∈ k.unit.declaredTypes := by
    rw [k.declaredTypes_unit, classTypes, if_neg hroot]
    exact List.mem_cons_self
  have hdecls := k.flatMap_decls fun v hv hne d hd =>
    Go.Decl.interfaceNamed_eq_nil (k.ne_of_declared hdeclared v hv hne d hd)
  rw [Go.interfacesNamed, hdecls, if_neg hroot]
  simp [Go.Decl.interfaceNamed, capabilityDecl, classStruct, capability, k.name_eq, k.base_eq]

theorem fieldsOf_eq (k : ClassCode run c) :
    run.decls.flatMap (Go.Decl.fieldsOf c.name) = classHead c.base :: k.properties := by
  have hdeclared : c.name ∈ k.unit.declaredTypes := by
    rw [k.declaredTypes_unit]
    exact List.mem_append_right _ List.mem_cons_self
  have hdecls := k.flatMap_decls fun v hv hne d hd =>
    Go.Decl.fieldsOf_eq_nil (k.ne_of_declared hdeclared v hv hne d hd)
  rw [hdecls]
  simp [Go.Decl.fieldsOf, capabilityDecl, classStruct, k.name_eq, k.base_eq]

theorem methodsOf_eq (k : ClassCode run c) :
    run.decls.flatMap (Go.Decl.methodsOf c.name) = constructorFunc s.code c.name k.seeds ::
      k.methods.map fun m => m.stub s.code c.name := by
  have hother : ∀ v ∈ run.units, v.name ≠ k.unit.name → ∀ d ∈ v.decls,
      d.methodsOf c.name = [] := by
    intro v hv hne d hd
    refine Go.Decl.methodsOf_eq_nil ?_
    rintro f rfl heq
    rw [run.receiver_of_mem_units hv hd] at heq
    exact hne ((Option.some.inj heq).trans k.unit_name.symm)
  have hown : ∀ f : Go.Func, f.receiver = some (receiver c.name) →
      (Go.Decl.func f).methodsOf c.name = [f] := by
    intro f hf
    simp only [Go.Decl.methodsOf, hf]
    exact if_pos rfl
  have hstubs : (k.methods.flatMap fun m => (Go.Decl.func (m.stub s.code c.name)).methodsOf c.name)
      = k.methods.map fun m => m.stub s.code c.name := by
    rw [List.map_eq_flatMap]
    exact List.flatMap_congr fun m _ => hown _ rfl
  rw [k.flatMap_decls hother, hown (constructorFunc s.code c.name k.seeds) rfl, hstubs]
  simp [Go.Decl.methodsOf]

theorem exists_name_of_mem (k : ClassCode run c) {f : Go.Field} (hf : f ∈ k.properties) :
    ∃ p ∈ c.properties, f.name = some (Identifier.exported p.name) := by
  have hname : f.name ∈ c.properties.map fun p => some (Identifier.exported p.name) :=
    k.property_names ▸ List.mem_map_of_mem hf
  obtain ⟨p, hp, heq⟩ := List.mem_map.1 hname
  exact ⟨p, hp, heq.symm⟩

/-- A struct embeds the base of its class and nothing else. -/
theorem embeddedIn_eq (k : ClassCode run c) :
    Go.embeddedIn run.decls c.name = c.base.toList := by
  have hproperties : k.properties.filterMap Go.Field.embeds? = [] := by
    refine List.filterMap_eq_nil_iff.2 fun f hf => ?_
    obtain ⟨p, -, hp⟩ := k.exists_name_of_mem hf
    rw [Go.Field.embeds?, hp]
  rw [Go.embeddedIn, k.fieldsOf_eq, List.filterMap_cons, hproperties]
  cases c.base with
  | none => rfl
  | some base => rfl

/-! ## Members of a class -/

/-- The names of all fields and methods of a class, with those that no description asks for. -/
theorem map_fst_ownMembers (k : ClassCode run c) :
    (Go.ownMembers run.decls c.name).map Prod.fst = c.base.getD "connection" ::
      (c.properties.map fun p => Identifier.exported p.name) ++ "getConstructorParams" ::
      c.methods.map fun m => Identifier.exported m.name := by
  have hhead : (classHead c.base).goesBy? = some (c.base.getD "connection") := by
    cases c.base with
    | none => rfl
    | some base => rfl
  have hproperties : k.properties.filterMap Go.Field.goesBy?
      = c.properties.map fun p => Identifier.exported p.name := by
    rw [← filterMap_name_of_names k.property_names]
    refine List.filterMap_congr fun f hf => ?_
    obtain ⟨p, -, hp⟩ := k.exists_name_of_mem hf
    rw [Go.Field.goesBy?, hp, Option.some_or]
  have hfields : ((classHead c.base :: k.properties).filterMap fun f =>
        f.goesBy?.map fun n => (n, Go.Member.field f)).map Prod.fst
      = (classHead c.base :: k.properties).filterMap Go.Field.goesBy? := by
    simp [List.map_filterMap, Function.comp_def]
  rw [Go.ownMembers, k.fieldsOf_eq, k.methodsOf_eq, List.map_append, hfields, List.filterMap_cons,
    hhead, hproperties, ← map_goName_of_signatures k.signatures]
  simp [constructorFunc, Method.stub, Function.comp_def]

/-- Of the names that start with a capital letter, every one comes from the description. -/
theorem count_ownMembers (k : ClassCode run c) {name : String}
    (hname : Identifier.StartsUpper name) :
    ((Go.ownMembers run.decls c.name).map Prod.fst).count name = c.memberNames.count name := by
  have hconnection : name ≠ "connection" := hname.ne (by decide)
  have hconstructor : name ≠ "getConstructorParams" := hname.ne (by decide)
  rw [k.map_fst_ownMembers, Schema.RemoteClass.memberNames]
  cases c.base with
  | none => simp [List.count_append, hconnection.symm, hconstructor.symm]
  | some base => simp [List.count_cons, List.count_append, hconstructor.symm]

theorem membersAt_eq_nil (k : ClassCode run c) {name : String}
    (hname : Identifier.StartsUpper name) (hnone : name ∉ c.memberNames) :
    Go.membersAt run.decls name 0 c.name = [] := by
  rw [Go.membersAt_zero_eq_nil_iff, ← List.count_eq_zero, k.count_ownMembers hname]
  exact List.count_eq_zero.2 hnone

theorem membersAt_eq_singleton (k : ClassCode run c) {name : String} {m : Go.Member}
    (hname : Identifier.StartsUpper name) (hm : (name, m) ∈ Go.ownMembers run.decls c.name) :
    Go.membersAt run.decls name 0 c.name = [m] := by
  refine Go.filter_name_eq_singleton ?_ hm
  rw [k.count_ownMembers hname]
  exact List.nodup_iff_count_le_one.1 k.members_once name

/-- Under the name of its base or of a property, a class has a field. -/
theorem exists_field (k : ClassCode run c) {name : String} (hname : Identifier.StartsUpper name)
    (h : c.base = some name ∨ ∃ p ∈ c.properties, Identifier.exported p.name = name) :
    ∃ f, Go.membersAt run.decls name 0 c.name = [.field f] := by
  obtain ⟨f, hf, hgoes⟩ : ∃ f ∈ classHead c.base :: k.properties, f.goesBy? = some name := by
    rcases h with hbase | ⟨p, hp, hexported⟩
    · rw [hbase]
      exact ⟨embedded name, List.mem_cons_self, rfl⟩
    · have hmem : some name ∈ k.properties.map Go.Field.name := by
        rw [k.property_names, ← hexported]
        exact List.mem_map.2 ⟨p, hp, rfl⟩
      obtain ⟨f, hf, hfname⟩ := List.mem_map.1 hmem
      refine ⟨f, List.mem_cons_of_mem _ hf, ?_⟩
      rw [Go.Field.goesBy?, hfname, Option.some_or]
  refine ⟨f, k.membersAt_eq_singleton hname (List.mem_append_left _ ?_)⟩
  rw [k.fieldsOf_eq]
  exact List.mem_filterMap.2 ⟨f, hf, by rw [hgoes, Option.map_some]⟩

/-- Under the name of one of its methods, a class has the stub of this method. -/
theorem exists_method (k : ClassCode run c) {m : Schema.Method} (hm : m ∈ c.methods) :
    ∃ n ∈ k.methods, HasSignature run.registry s.code m (n.signature s.code) ∧
      Go.membersAt run.decls (Identifier.exported m.name) 0 c.name
        = [.method (n.stub s.code c.name)] := by
  obtain ⟨n, hn, hsig⟩ := Outcome.exists_of_mem_left
    (List.forall₂_map_right_iff.1 k.signatures) hm
  refine ⟨n, hn, hsig, k.membersAt_eq_singleton (Identifier.startsUpper_exported m.name) ?_⟩
  refine List.mem_append_right _ ?_
  rw [k.methodsOf_eq, ← hsig.name]
  exact List.mem_map.2 ⟨_, List.mem_cons_of_mem _ (List.mem_map.2 ⟨n, hn, rfl⟩), rfl⟩

end ClassCode

end Compilation

end GoBindings
