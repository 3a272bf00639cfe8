import GoBindings.Proofs.ClassCode

set_option autoImplicit false

/-! # The structs of a package

Every declaration of a package comes from a class or from a complex type that stays
(`exists_of_mem_decls`). So the structs are those of classes and of complex types that are no
enumerations, and each is made of what its description says: its base, if it has one, and its
properties in order (`hasFields_of_mem`, `exists_struct_of_hasStruct`). -/

namespace GoBindings

open Binding
open Outcome (bind_eq_ok_iff)

/-! ## Properties of descriptions -/

namespace Interface

theorem Class.properties_of_ofSchema {path : Path} {c : Schema.RemoteClass} {k : Class}
    (h : (Class.ofSchema path c).result = .ok k) :
    List.Forall₂ (fun p f => f.name = p.name ∧ Denoted p f.type) c.properties k.properties := by
  unfold Class.ofSchema at h
  simp only [Logged.result_bind, bind_eq_ok_iff, Logged.result_mapM_eq_ok_iff] at h
  obtain ⟨properties, hproperties, methods, -, params, -, hk⟩ := h
  cases hk
  exact hproperties.imp fun _ _ hp => Field.name_type_of_ofProperty hp

theorem DataType.record_of_ofSchema {path : Path} {t : Schema.ComplexType} {d : DataType}
    (h : (DataType.ofSchema path t).result = .ok d) (ht : t.isEnum = false) :
    ∃ fields, d.shape = .record t.base fields ∧
      List.Forall₂ (fun p f => f.name = p.name ∧ Denoted p f.type) t.properties fields := by
  unfold DataType.ofSchema Shape.ofSchema at h
  rw [ht, if_neg Bool.false_ne_true] at h
  simp only [Logged.result_bind, bind_eq_ok_iff, Logged.result_mapM_eq_ok_iff] at h
  obtain ⟨shape, ⟨fields, hfields, hshape⟩, hd⟩ := h
  cases hshape
  cases hd
  exact ⟨fields, rfl, hfields.imp fun _ _ hp => Field.name_type_of_ofProperty hp⟩

end Interface

/-! ## Where declarations come from -/

namespace Compilation.Run

variable {s : Settings} {sources : List Source}

/-- Every declaration comes from a class, or from a complex type that stays. -/
theorem exists_of_mem_decls (run : Run s sources) {d : Go.Decl} (hd : d ∈ run.decls) :
    (∃ c, Source.HasClass sources c ∧ ∃ path u,
        RendersClass run.registry s.code path c u ∧ d ∈ u.decls) ∨
      ∃ t ∈ (Source.survivors sources).flatten, ∃ path u,
        RendersType run.registry s.code path t u ∧ d ∈ u.decls := by
  rw [run.decls_eq_flatMap] at hd
  obtain ⟨u, hu, hd⟩ := List.mem_flatMap.1 hd
  obtain ⟨p, hp, hkind⟩ := List.mem_flatMap.1 hu
  rcases List.mem_append.1 hkind with hclass | htype
  · left
    obtain ⟨c, hc, hrender⟩ := Outcome.exists_of_mem_right (run.forall₂_classes hp) hclass
    have hsource : p.source ∈ sources := run.source_parts ▸ List.mem_map_of_mem hp
    exact ⟨c, ⟨p.source, hsource, hc⟩, p.source.path, u, hrender, hd⟩
  · right
    obtain ⟨types, htypes, hrenders⟩ := Outcome.exists_of_mem_right run.forall₂_types hp
    obtain ⟨t, ht, hrender⟩ := Outcome.exists_of_mem_right hrenders htype
    exact ⟨t, List.mem_flatten.2 ⟨types, htypes, ht⟩, p.source.path, u, hrender, hd⟩

theorem mem_decls_of_mem_units (run : Run s sources) {u : CodeUnit} (hu : u ∈ run.units)
    {d : Go.Decl} (hd : d ∈ u.decls) : d ∈ run.decls := by
  rw [run.decls_eq_flatMap]
  exact List.mem_flatMap.2 ⟨u, hu, hd⟩

/-- Every class has a unit. -/
theorem exists_unit_of_class (run : Run s sources) {c : Schema.RemoteClass}
    (hc : Source.HasClass sources c) :
    ∃ path, ∃ u ∈ run.units, RendersClass run.registry s.code path c u := by
  obtain ⟨source, hsource, hc⟩ := hc
  rw [← run.source_parts] at hsource
  obtain ⟨p, hp, rfl⟩ := List.mem_map.1 hsource
  obtain ⟨u, hu, hrender⟩ := Outcome.exists_of_mem_left (run.forall₂_classes hp) hc
  exact ⟨p.source.path, u, List.mem_flatMap.2 ⟨p, hp, List.mem_append_left _ hu⟩, hrender⟩

/-- Every complex type that stays has a unit. -/
theorem exists_unit_of_survivor (run : Run s sources) {t : Schema.ComplexType}
    (ht : t ∈ (Source.survivors sources).flatten) :
    ∃ path, ∃ u ∈ run.units, RendersType run.registry s.code path t u := by
  obtain ⟨types, htypes, ht⟩ := List.mem_flatten.1 ht
  obtain ⟨p, hp, hrenders⟩ := Outcome.exists_of_mem_left run.forall₂_types htypes
  obtain ⟨u, hu, hrender⟩ := Outcome.exists_of_mem_left hrenders ht
  exact ⟨p.source.path, u, List.mem_flatMap.2 ⟨p, hp, List.mem_append_right _ hu⟩, hrender⟩

end Compilation.Run

/-! ## Fields of structs -/

/-- A declaration that has a struct, with its base and its properties. -/
inductive Source.HasStruct (sources : List Source) :
    String → Option String → List Schema.Property → Prop
  | record {t : Schema.ComplexType} (h : t ∈ (survivors sources).flatten)
      (hrecord : t.isEnum = false) : HasStruct sources t.name t.base t.properties
  | remote {c : Schema.RemoteClass} (h : HasClass sources c) :
      HasStruct sources c.name c.base c.properties

namespace Source

theorem exists_winning_of_survivor {sources : List Source} {t : Schema.ComplexType}
    (h : t ∈ (survivors sources).flatten) :
    ∃ path i, Registry.Winning sources t.name (Registry.typeEntry path i t) := by
  obtain ⟨types, htypes, ht⟩ := List.mem_flatten.1 h
  obtain ⟨k, hk⟩ := List.mem_iff_getElem?.1 htypes
  rw [getElem?_survivors] at hk
  obtain ⟨source, hsource, rfl⟩ := Option.map_eq_some_iff.1 hk
  obtain ⟨i, hi, hrest, hlater⟩ := exists_of_mem_lastDeclared ht
  exact ⟨source.path, i, .type hsource hi hrest hlater⟩

/-- What has a struct is registered as a value or as a class, with its base. -/
theorem HasStruct.exists_winning {sources : List Source} {name : String} {base : Option String}
    {properties : List Schema.Property} (h : HasStruct sources name base properties) :
    ∃ entry, Registry.Winning sources name entry ∧ entry.kind ≠ .enum ∧ entry.base = base := by
  cases h with
  | @record t ht hrecord =>
    obtain ⟨path, i, hwin⟩ := exists_winning_of_survivor ht
    exact ⟨_, hwin, by simp [Registry.typeEntry, hrecord], rfl⟩
  | @remote c hc =>
    obtain ⟨source, hsource, hc⟩ := hc
    obtain ⟨k, hk⟩ := List.mem_iff_getElem?.1 hsource
    obtain ⟨i, hi⟩ := List.mem_iff_getElem?.1 hc
    exact ⟨_, .remote hk hi, Kind.noConfusion, rfl⟩

end Source

namespace Binding

/-- The field of a struct for a property of a description. -/
def HasField (r : Registry) (style : OptionalStyle) (p : Schema.Property) (g : Go.Field) : Prop :=
  g.name = some (Identifier.exported p.name) ∧
    ∃ e t, Interface.Denoted p e ∧ Denotes r e t ∧ g.type = t.goType style

/-- The fields of a struct: one for the base, or for the connection where a class has no base, and
    then one for each property. -/
def HasFields (r : Registry) (style : OptionalStyle) (base : Option String)
    (properties : List Schema.Property) (fields : List Go.Field) : Prop :=
  ∃ head own, fields = head ++ own ∧ List.Forall₂ (HasField r style) properties own ∧
    (head = base.toList.map embedded ∨ head = [classHead base])

theorem hasField_of_propertyField {r : Registry} {style : OptionalStyle} {owner : String}
    {ps : List Schema.Property} {fs : List Interface.Field} {gs : List Go.Field}
    (hfields : List.Forall₂ (fun p f => f.name = p.name ∧ Interface.Denoted p f.type) ps fs)
    (h : List.Forall₂ (fun f g => propertyField r style owner f = .ok g) fs gs) :
    List.Forall₂ (HasField r style) ps gs := by
  refine (Outcome.forall₂_trans hfields h).imp ?_
  rintro p g ⟨f, ⟨hname, hdenoted⟩, hg⟩
  obtain ⟨t, ht, hg⟩ := bind_eq_ok_iff.1 hg
  cases hg
  exact ⟨congrArg (fun name => some (Identifier.exported name)) hname, f.type, t, hdenoted,
    .of_ofType ht, rfl⟩

/-- A data type that is a struct is a record. -/
theorem record_of_struct_mem {registry : Registry} {code : CodeSettings} {t : Interface.DataType}
    {u : CodeUnit} (h : typeUnit registry code t = .ok u) {doc : List String} {name : String}
    {fields : List Go.Field} (hmem : Go.Decl.type ⟨doc, name, .struct fields⟩ ∈ u.decls) :
    name = t.name ∧ ∃ base own, t.shape = .record base own ∧
      recordDecls registry code.optionalStyle t base own = .ok u.decls := by
  obtain ⟨decls, rfl, hdecls⟩ := typeUnit_eq_ok_iff.1 h
  cases hshape : t.shape with
  | enum values =>
    rw [hshape] at hdecls
    obtain ⟨-, rfl⟩ := enumDecls_eq_ok_iff.1 hdecls
    simp only [List.mem_cons, Go.Decl.type.injEq, Go.TypeDecl.mk.injEq, reduceCtorEq, and_false,
      false_or] at hmem
    split at hmem
    · exact absurd hmem List.not_mem_nil
    · exact absurd (List.mem_singleton.1 hmem) Go.Decl.noConfusion
  | record base own =>
    rw [hshape] at hdecls
    refine ⟨?_, base, own, rfl, hdecls⟩
    obtain ⟨gs, -, -, rfl⟩ := recordDecls_eq_ok_iff.1 hdecls
    simp only [List.mem_singleton, Go.Decl.type.injEq, Go.TypeDecl.mk.injEq] at hmem
    exact hmem.2.1

/-- The unit of a complex type that is no enumeration is its struct. -/
theorem RendersType.decls_of_record {r : Registry} {code : CodeSettings} {path : Path}
    {t : Schema.ComplexType} {u : CodeUnit} (h : RendersType r code path t u)
    (ht : t.isEnum = false) :
    ∃ doc fields, u.decls = [.type ⟨doc, t.name, .struct fields⟩] ∧
      HasFields r code.optionalStyle t.base t.properties fields := by
  obtain ⟨d, hd, hu⟩ := h
  obtain ⟨written, hshape, hwritten⟩ := Interface.DataType.record_of_ofSchema hd ht
  obtain ⟨decls, rfl, hdecls⟩ := typeUnit_eq_ok_iff.1 hu
  rw [hshape] at hdecls
  obtain ⟨own, hown, -, rfl⟩ := recordDecls_eq_ok_iff.1 hdecls
  rw [Interface.DataType.name_of_ofSchema hd]
  exact ⟨d.doc, _, rfl, _, own, rfl, hasField_of_propertyField hwritten hown, Or.inl rfl⟩

/-- The unit of a class, by what its description says. -/
theorem RendersClass.exists_classDecls {r : Registry} {code : CodeSettings} {path : Path}
    {c : Schema.RemoteClass} {u : CodeUnit} (h : RendersClass r code path c u) :
    ∃ k methods properties seeds, k.name = c.name ∧ k.base = c.base ∧
      u.decls = classDecls code k methods properties seeds ∧
      List.Forall₂ (HasSignature r code) c.methods (methods.map fun m => m.signature code) ∧
      List.Forall₂ (HasField r code.optionalStyle) c.properties properties := by
  obtain ⟨k, hk, hu⟩ := h
  obtain ⟨hname, hbase⟩ := Interface.Class.name_base_of_ofSchema hk
  obtain ⟨-, hwritten⟩ := Interface.Class.members_of_ofSchema hk
  obtain ⟨methods, properties, seeds, hmethods, hproperties, -, -, rfl⟩ :=
    classUnit_eq_ok_iff.1 hu
  refine ⟨k, methods, properties, seeds, hname, hbase, rfl, ?_, ?_⟩
  · rw [hname] at hmethods
    refine List.forall₂_map_right_iff.2 ((Outcome.forall₂_trans hwritten hmethods).imp ?_)
    rintro m n ⟨i, hi, hn⟩
    exact hasSignature_of_made hi hn
  · exact hasField_of_propertyField (Interface.Class.properties_of_ofSchema hk) hproperties

theorem classStruct_mem_classDecls (code : CodeSettings) (k : Interface.Class)
    (methods : List Method) (properties : List Go.Field) (seeds : List Seed) :
    Go.Decl.type (classStruct k properties) ∈ classDecls code k methods properties seeds := by
  simp [classDecls]

theorem eq_classStruct_of_mem {code : CodeSettings} {k : Interface.Class} {methods : List Method}
    {properties fields : List Go.Field} {seeds : List Seed} {doc : List String} {name : String}
    (h : Go.Decl.type ⟨doc, name, .struct fields⟩ ∈ classDecls code k methods properties seeds) :
    name = k.name ∧ fields = classHead k.base :: properties := by
  simp only [classDecls, List.mem_append, List.mem_cons, List.mem_map] at h
  rcases h with (h | h | h | h) | ⟨m, -, h⟩
  · split at h
    · exact absurd h List.not_mem_nil
    · exact absurd (List.mem_singleton.1 h) (by simp [capabilityDecl])
  · simp only [classStruct, Go.Decl.type.injEq, Go.TypeDecl.mk.injEq, Go.TypeBody.struct.injEq] at h
    exact h.2
  · exact absurd h Go.Decl.noConfusion
  · exact absurd h List.not_mem_nil
  · exact absurd h Go.Decl.noConfusion

end Binding

namespace Compilation.Run

variable {s : Settings} {sources : List Source}

/-- A struct of the package is made of what a description says. -/
theorem hasFields_of_mem (run : Run s sources) {doc : List String} {name : String}
    {fields : List Go.Field} (h : Go.Decl.type ⟨doc, name, .struct fields⟩ ∈ run.decls) :
    ∃ base properties, Source.HasStruct sources name base properties ∧
      HasFields run.registry s.code.optionalStyle base properties fields := by
  rcases run.exists_of_mem_decls h with
    ⟨c, hc, path, u, hrender, hd⟩ | ⟨t, ht, path, u, hrender, hd⟩
  · obtain ⟨k, methods, properties, seeds, hname, hbase, hdecls, -, hfields⟩ :=
      hrender.exists_classDecls
    rw [hdecls] at hd
    obtain ⟨rfl, rfl⟩ := eq_classStruct_of_mem hd
    rw [hname, hbase]
    exact ⟨c.base, c.properties, .remote hc, _, properties, rfl, hfields, Or.inr rfl⟩
  · have hrecord : t.isEnum = false := by
      obtain ⟨data, hdata, hunit⟩ := hrender
      obtain ⟨-, base, own, hshape, -⟩ := record_of_struct_mem hunit hd
      rcases Interface.DataType.shape_of_ofSchema hdata with ⟨-, henum⟩ | ⟨hrecord, -⟩
      · exact absurd (hshape.symm.trans henum) Interface.Shape.noConfusion
      · exact hrecord
    obtain ⟨doc', fields', hdecls, hfields⟩ := hrender.decls_of_record hrecord
    rw [hdecls, List.mem_singleton, Go.Decl.type.injEq, Go.TypeDecl.mk.injEq] at hd
    obtain ⟨-, rfl, hbody⟩ := hd
    cases hbody
    exact ⟨t.base, t.properties, .record ht hrecord, hfields⟩

/-- Whatever a description says has a struct is a struct of the package. -/
theorem exists_struct_of_hasStruct (run : Run s sources) {name : String} {base : Option String}
    {properties : List Schema.Property} (h : Source.HasStruct sources name base properties) :
    ∃ doc fields, Go.Decl.type ⟨doc, name, .struct fields⟩ ∈ run.decls ∧
      HasFields run.registry s.code.optionalStyle base properties fields := by
  cases h with
  | @record t ht hrecord =>
    obtain ⟨path, u, hu, hrender⟩ := run.exists_unit_of_survivor ht
    obtain ⟨doc, fields, hdecls, hfields⟩ := hrender.decls_of_record hrecord
    exact ⟨doc, fields, run.mem_decls_of_mem_units hu (hdecls ▸ List.mem_cons_self), hfields⟩
  | @remote c hc =>
    obtain ⟨path, u, hu, hrender⟩ := run.exists_unit_of_class hc
    obtain ⟨k, methods, properties, seeds, hname, hbase, hdecls, -, hfields⟩ :=
      hrender.exists_classDecls
    have hmem := classStruct_mem_classDecls s.code k methods properties seeds
    rw [← hdecls, classStruct, hname, hbase] at hmem
    exact ⟨k.doc, _, run.mem_decls_of_mem_units hu hmem, _, properties, rfl, hfields, Or.inr rfl⟩

end Compilation.Run

end GoBindings
