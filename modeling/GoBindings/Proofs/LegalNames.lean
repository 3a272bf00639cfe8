import GoBindings.Proofs.Identifiers
import GoBindings.Proofs.References
import GoBindings.Proofs.StructFields

set_option autoImplicit false

/-! # Which names in the code are legal

Names of members and parameters are brought into the alphabet of identifiers, so they are valid
whatever a description says. Names of types are written as they are, and everything made from them,
constants and capability interfaces, is valid if they are. One more thing can go wrong: a name may
leave a parameter nothing but an underscore, which Go reads as no name at all, and so may a base
that is called so. Nothing else can. -/

namespace GoBindings

open Binding
open Identifier (isValid isValid_iff IsBlank)
open Source (typeNames classNames)

/-! ## Names that code declares -/

namespace Go

/-- The names that a type brings: of its fields, an embedded one going by its type, or of its
    methods and their parameters. -/
def TypeBody.declaredNames : TypeBody → List String
  | .struct fields => fields.filterMap Field.goesBy?
  | .interface _ methods => methods.flatMap fun m => m.name :: m.params.map Param.name
  | .like _ => []

/-- Every name that a declaration declares. -/
def Decl.declaredNames : Decl → List String
  | .type d => d.name :: d.body.declaredNames
  | .consts cs => cs.map Const.name
  | .func f => f.name :: (f.receiver.toList ++ f.params).map Param.name

/-- The names of fields and parameters in a declaration. -/
def Decl.variableNames : Decl → List String
  | .type { doc := _, name := _, body := .struct fields } => fields.filterMap Field.goesBy?
  | .type { doc := _, name := _, body := .interface _ methods } =>
    methods.flatMap fun m => m.params.map Param.name
  | .type { doc := _, name := _, body := .like _ } => []
  | .consts _ => []
  | .func f => (f.receiver.toList ++ f.params).map Param.name

/-- All names are valid identifiers, and no field or parameter is called `_`. -/
structure Decl.Legal (d : Decl) : Prop where
  valid : ∀ n ∈ d.declaredNames, isValid n = true
  named : "_" ∉ d.variableNames

end Go

/-! ## Names of one declaration -/

namespace Binding

variable {r : Registry} {code : CodeSettings}

/-- A method has legal names if no parameter of its description is blank. -/
theorem HasSignature.valid_names {m : Schema.Method} {sig : Go.Signature}
    (h : HasSignature r code m sig) :
    isValid sig.name = true ∧ ∀ p ∈ sig.params, isValid p.name = true := by
  refine ⟨h.name ▸ Identifier.isValid_exported m.name, fun g hg => ?_⟩
  obtain ⟨p, -, hname, -⟩ := Outcome.exists_of_mem_right h.params hg
  exact hname ▸ Identifier.isValid_param p.name

theorem HasSignature.blank_mem_iff {m : Schema.Method} {sig : Go.Signature}
    (h : HasSignature r code m sig) :
    "_" ∈ sig.params.map Go.Param.name ↔ ∃ p ∈ m.params, IsBlank p.name := by
  rw [List.mem_map]
  constructor
  · rintro ⟨g, hg, hname⟩
    obtain ⟨p, hp, hparam, -⟩ := Outcome.exists_of_mem_right h.params hg
    exact ⟨p, hp, Identifier.param_eq_underscore_iff.1 (hparam.symm.trans hname)⟩
  · rintro ⟨p, hp, hblank⟩
    obtain ⟨g, hg, hparam, -⟩ := Outcome.exists_of_mem_left h.params hp
    exact ⟨g, hg, hparam.trans (Identifier.param_eq_underscore_iff.2 hblank)⟩

theorem isValid_capabilityName {name : String} (h : isValid name = true) :
    isValid (capabilityName name) = true := by
  have hchars : (capabilityName name).toList = 'I' :: name.toList := by
    rw [capabilityName, String.toList_append]
    rfl
  exact Identifier.isValid_of_upper_cons hchars rfl (Identifier.isPart_of_isValid h)

/-- What is declared under a name of its own, whatever a description says. -/
theorem legal_of_fixed (name : String) (h : name ∈ ["connection", "getConstructorParams", "elem",
    "from", "options", "String", "t"]) : isValid name = true ∧ name ≠ "_" := by
  have hall : ∀ n ∈
      ["connection", "getConstructorParams", "elem", "from", "options", "String", "t"],
      isValid n = true ∧ n ≠ "_" := by
    decide
  exact hall name h

/-- The names of a struct are exported, but for the base and the connection. -/
theorem HasFields.name_cases {style : OptionalStyle} {base : Option String}
    {properties : List Schema.Property} {fields : List Go.Field}
    (h : HasFields r style base properties fields) {n : String}
    (hn : n ∈ fields.filterMap Go.Field.goesBy?) :
    base = some n ∨ n = "connection" ∨ ∃ p ∈ properties, n = Identifier.exported p.name := by
  obtain ⟨head, own, rfl, hown, hhead⟩ := h
  obtain ⟨f, hf, hgoes⟩ := List.mem_filterMap.1 hn
  rcases List.mem_append.1 hf with hf | hf
  · cases base with
    | none =>
      rcases hhead with rfl | rfl
      · exact absurd hf List.not_mem_nil
      · rw [List.mem_singleton.1 hf] at hgoes
        exact Or.inr (Or.inl (Option.some.inj hgoes).symm)
    | some base =>
      have hembedded : f = embedded base := by
        rcases hhead with rfl | rfl
        · exact List.mem_singleton.1 hf
        · exact List.mem_singleton.1 hf
      rw [hembedded] at hgoes
      exact Or.inl hgoes
  · obtain ⟨p, hp, hname, -⟩ := Outcome.exists_of_mem_right hown hf
    rw [Go.Field.goesBy?, hname, Option.some_or] at hgoes
    exact Or.inr (Or.inr ⟨p, hp, (Option.some.inj hgoes).symm⟩)

theorem HasFields.base_mem {style : OptionalStyle} {base : String}
    {properties : List Schema.Property} {fields : List Go.Field}
    (h : HasFields r style (some base) properties fields) :
    base ∈ fields.filterMap Go.Field.goesBy? := by
  obtain ⟨head, own, rfl, -, hhead⟩ := h
  refine List.mem_filterMap.2 ⟨embedded base, List.mem_append_left _ ?_, rfl⟩
  rcases hhead with rfl | rfl
  · exact List.mem_cons_self
  · exact List.mem_cons_self

/-- A struct is legal if its name is valid and it has no base, or one that can be embedded. -/
theorem HasFields.legal {style : OptionalStyle} {base : Option String}
    {properties : List Schema.Property} {fields : List Go.Field} {doc : List String}
    {name : String} (h : HasFields r style base properties fields) (hname : isValid name = true)
    (hbase : ∀ b, base = some b → isValid b = true ∧ b ≠ "_") :
    (Go.Decl.type ⟨doc, name, .struct fields⟩).Legal where
  valid := by
    rintro n (_ | ⟨_, hn⟩)
    · exact hname
    · rcases h.name_cases hn with hn | rfl | ⟨p, -, rfl⟩
      · exact (hbase n hn).1
      · exact (legal_of_fixed "connection" (by decide)).1
      · exact Identifier.isValid_exported p.name
  named := by
    intro hn
    rcases h.name_cases hn with hn | hn | ⟨p, -, hn⟩
    · exact (hbase "_" hn).2 rfl
    · exact absurd hn (by decide)
    · exact (Identifier.startsUpper_exported p.name).ne (by decide) hn.symm

/-- A function with a valid name, whose parameters have valid names other than `_`. -/
theorem legal_func {f : Go.Func} (hname : isValid f.name = true)
    (hparams : ∀ p ∈ f.receiver.toList ++ f.params, isValid p.name = true ∧ p.name ≠ "_") :
    (Go.Decl.func f).Legal where
  valid := by
    rintro n (_ | ⟨_, hn⟩)
    · exact hname
    · obtain ⟨p, hp, rfl⟩ := List.mem_map.1 hn
      exact (hparams p hp).1
  named := by
    intro hn
    obtain ⟨p, hp, hname⟩ := List.mem_map.1 hn
    exact (hparams p hp).2 hname

theorem legal_capabilityDecl {c : Schema.RemoteClass} {k : Interface.Class}
    {methods : List Method} (hname : k.name = c.name) (hvalid : isValid c.name = true)
    (hmethods : ∀ m ∈ methods, isValid (m.signature code).name = true ∧
      ∀ p ∈ (m.signature code).params, isValid p.name = true ∧ p.name ≠ "_") :
    (Go.Decl.type (capabilityDecl code k methods)).Legal where
  valid := by
    rintro n (_ | ⟨_, hn⟩)
    · exact isValid_capabilityName (hname ▸ hvalid)
    · obtain ⟨sig, hsig, hn⟩ := List.mem_flatMap.1 hn
      obtain ⟨m, hm, rfl⟩ := List.mem_map.1 hsig
      rcases List.mem_cons.1 hn with rfl | hn
      · exact (hmethods m hm).1
      · obtain ⟨p, hp, rfl⟩ := List.mem_map.1 hn
        exact ((hmethods m hm).2 p hp).1
  named := by
    intro hn
    obtain ⟨sig, hsig, hn⟩ := List.mem_flatMap.1 hn
    obtain ⟨m, hm, rfl⟩ := List.mem_map.1 hsig
    obtain ⟨p, hp, hblank⟩ := List.mem_map.1 hn
    exact ((hmethods m hm).2 p hp).2 hblank

/-- A class is legal if its name is valid, its base can be embedded, and no parameter is blank. -/
theorem RendersClass.legal {path : Path} {c : Schema.RemoteClass} {u : CodeUnit}
    (h : RendersClass r code path c u) (hvalid : isValid c.name = true)
    (hbase : ∀ b, c.base = some b → isValid b = true ∧ b ≠ "_")
    (hparams : ∀ m ∈ c.methods, ∀ p ∈ m.params, ¬ IsBlank p.name) : ∀ d ∈ u.decls, d.Legal := by
  obtain ⟨k, methods, properties, seeds, hname, hkbase, hdecls, hsigs, hfields⟩ :=
    h.exists_classDecls
  have hmethods : ∀ m ∈ methods, isValid (m.signature code).name = true ∧
      ∀ p ∈ (m.signature code).params, isValid p.name = true ∧ p.name ≠ "_" := by
    intro n hn
    obtain ⟨m, hm, hsig⟩ :=
      Outcome.exists_of_mem_right (List.forall₂_map_right_iff.1 hsigs) hn
    refine ⟨hsig.valid_names.1, fun p hp => ⟨hsig.valid_names.2 p hp, fun hblank => ?_⟩⟩
    obtain ⟨q, hq, hq'⟩ := hsig.blank_mem_iff.1 (List.mem_map.2 ⟨p, hp, hblank⟩)
    exact hparams m hm q hq hq'
  have hreceiver : ∀ p ∈ (some (receiver k.name)).toList, isValid p.name = true ∧ p.name ≠ "_" := by
    intro p hp
    rw [List.mem_singleton.1 hp]
    exact legal_of_fixed "elem" (by decide)
  rw [hdecls]
  intro d hd
  simp only [classDecls, List.mem_append, List.mem_cons, List.mem_map, List.not_mem_nil,
    or_false] at hd
  rcases hd with (hd | rfl | rfl) | ⟨m, hm, rfl⟩
  · split at hd
    · exact absurd hd List.not_mem_nil
    · rw [List.mem_singleton.1 hd]
      exact legal_capabilityDecl hname hvalid hmethods
  · have hall : HasFields r code.optionalStyle c.base c.properties
        (classHead k.base :: properties) :=
      ⟨[classHead k.base], properties, rfl, hfields, Or.inr (by rw [hkbase])⟩
    exact hall.legal (hname ▸ hvalid) hbase
  · refine legal_func (legal_of_fixed "getConstructorParams" (by decide)).1 fun p hp => ?_
    rcases List.mem_append.1 hp with hp | hp
    · exact hreceiver p hp
    · simp only [constructorFunc, List.mem_cons, List.not_mem_nil, or_false] at hp
      rcases hp with rfl | rfl
      · exact legal_of_fixed "from" (by decide)
      · exact legal_of_fixed "options" (by decide)
  · refine legal_func (hmethods m hm).1 fun p hp => ?_
    rcases List.mem_append.1 hp with hp | hp
    · exact hreceiver p hp
    · exact (hmethods m hm).2 p hp

/-- A complex type is legal if its name is valid and its base, if it has one, can be embedded. -/
theorem RendersType.legal {path : Path} {t : Schema.ComplexType} {u : CodeUnit}
    (h : RendersType r code path t u) (hvalid : isValid t.name = true)
    (hbase : ∀ b, t.isEnum = false → t.base = some b → isValid b = true ∧ b ≠ "_") :
    ∀ d ∈ u.decls, d.Legal := by
  intro d hd
  cases henum : t.isEnum with
  | false =>
    obtain ⟨doc, fields, hdecls, hfields⟩ := h.decls_of_record henum
    rw [hdecls] at hd
    rw [List.mem_singleton.1 hd]
    exact hfields.legal hvalid fun b => hbase b henum
  | true =>
    obtain ⟨data, hdata, hunit⟩ := h
    have hname := Interface.DataType.name_of_ofSchema hdata
    obtain ⟨-, hshape⟩ | ⟨hrecord, -⟩ := Interface.DataType.shape_of_ofSchema hdata
    · obtain ⟨decls, rfl, hdecls⟩ := typeUnit_eq_ok_iff.1 hunit
      rw [hshape] at hdecls
      obtain ⟨-, rfl⟩ := enumDecls_eq_ok_iff.1 hdecls
      rw [hname] at hd
      simp only [List.mem_cons] at hd
      rcases hd with rfl | rfl | hd
      · exact ⟨fun n hn => List.mem_singleton.1 hn ▸ hvalid, List.not_mem_nil⟩
      · refine legal_func (legal_of_fixed "String" (by decide)).1 fun p hp => ?_
        have hp : p ∈ [⟨"t", .named t.name⟩] := hp
        rw [List.mem_singleton.1 hp]
        exact legal_of_fixed "t" (by decide)
      · split at hd
        · exact absurd hd List.not_mem_nil
        · rw [List.mem_singleton.1 hd]
          refine ⟨fun n hn => ?_, List.not_mem_nil⟩
          obtain ⟨c, hc, rfl⟩ := List.mem_map.1 hn
          obtain ⟨value, -, rfl⟩ := List.mem_map.1 hc
          exact Identifier.isValid_enumConstant hvalid value
    · exact absurd (henum.symm.trans hrecord) (by decide)

end Binding

/-! ## Names of a package -/

/-- What descriptions have to keep to for all names in their code to be legal. -/
structure Source.NamesLegal (sources : List Source) : Prop where
  /-- Types and classes are called by valid identifiers. -/
  types : ∀ name, name ∈ typeNames sources ∨ name ∈ classNames sources → isValid name = true
  /-- No type with a struct extends one called `_`, -/
  type_bases : ∀ t ∈ (survivors sources).flatten, t.isEnum = false → t.base ≠ some "_"
  /-- and no class does. -/
  class_bases : ∀ c, HasClass sources c → c.base ≠ some "_"
  /-- Something is left of every name of a parameter. -/
  params : ∀ c, HasClass sources c → ∀ m ∈ c.methods, ∀ p ∈ m.params, ¬ IsBlank p.name

namespace Compilation

variable {s : Settings} {sources : List Source}

/-- A base is declared, so it has a valid name if all declarations have. -/
theorem Run.isValid_base (run : Run s sources) (hlegal : Source.NamesLegal sources)
    {name base : String} {properties : List Schema.Property}
    (h : Source.HasStruct sources name (some base) properties) : isValid base = true := by
  obtain ⟨entry, hwin, hkind, hbase⟩ := h.exists_winning
  obtain ⟨found, hfound, -⟩ := run.exists_base hwin hkind hbase
  exact hlegal.types base ((Registry.find?_eq_some_of_build run.built).1 hfound).mem_names

theorem Run.legal_of_namesLegal (run : Run s sources) (hlegal : Source.NamesLegal sources)
    {d : Go.Decl} (hd : d ∈ run.decls) : d.Legal := by
  rcases run.exists_of_mem_decls hd with
    ⟨c, hc, path, u, hrender, hd⟩ | ⟨t, ht, path, u, hrender, hd⟩
  · have hstruct := Source.HasStruct.remote hc
    obtain ⟨entry, hwin, -⟩ := hstruct.exists_winning
    refine hrender.legal (hlegal.types _ hwin.mem_names) (fun b hb => ?_) (hlegal.params c hc) d hd
    have hne := hlegal.class_bases c hc
    rw [hb] at hstruct hne
    exact ⟨run.isValid_base hlegal hstruct, fun heq => hne (congrArg some heq)⟩
  · obtain ⟨_, i, hwin⟩ := Source.exists_winning_of_survivor ht
    refine hrender.legal (hlegal.types _ hwin.mem_names) (fun b hrecord hb => ?_) d hd
    have hstruct := Source.HasStruct.record ht hrecord
    have hne := hlegal.type_bases t ht hrecord
    rw [hb] at hstruct hne
    exact ⟨run.isValid_base hlegal hstruct, fun heq => hne (congrArg some heq)⟩

theorem Run.base_ne_of_legal (run : Run s sources) (h : ∀ d ∈ run.decls, d.Legal) {name : String}
    {base : Option String} {properties : List Schema.Property}
    (hstruct : Source.HasStruct sources name base properties) : base ≠ some "_" := by
  rintro rfl
  obtain ⟨doc, fields, hmem, hfields⟩ := run.exists_struct_of_hasStruct hstruct
  exact (h _ hmem).named hfields.base_mem

/-- A blank name of a parameter ends as `_` in the stub of its method. -/
theorem Run.exists_blank_variable (run : Run s sources) {c : Schema.RemoteClass}
    (hc : Source.HasClass sources c) {m : Schema.Method} (hm : m ∈ c.methods)
    {p : Schema.Property} (hp : p ∈ m.params) (hblank : IsBlank p.name) :
    ∃ d ∈ run.decls, "_" ∈ d.variableNames := by
  obtain ⟨path, u, hu, hrender⟩ := run.exists_unit_of_class hc
  obtain ⟨k, methods, properties, seeds, -, -, hdecls, hsigs, -⟩ := hrender.exists_classDecls
  obtain ⟨n, hn, hsig⟩ := Outcome.exists_of_mem_left (List.forall₂_map_right_iff.1 hsigs) hm
  have hstub : Go.Decl.func (n.stub s.code k.name) ∈ u.decls := by
    rw [hdecls]
    exact List.mem_append_right _ (List.mem_map.2 ⟨n, hn, rfl⟩)
  refine ⟨_, run.mem_decls_of_mem_units hu hstub, ?_⟩
  have hparam : "_" ∈ (n.goParams s.code.optionalStyle).map Go.Param.name :=
    hsig.blank_mem_iff.2 ⟨p, hp, hblank⟩
  show "_" ∈ (_ ++ n.goParams s.code.optionalStyle).map Go.Param.name
  rw [List.map_append]
  exact List.mem_append_right _ hparam

theorem Run.namesLegal_of_legal (run : Run s sources) (h : ∀ d ∈ run.decls, d.Legal) :
    Source.NamesLegal sources where
  types := by
    intro name hname
    have hdeclared : name ∈ run.declaredTypes := by
      rw [run.declaredTypes_perm.mem_iff, List.mem_append, List.mem_append, List.mem_dedup]
      exact hname.imp_right Or.inl
    obtain ⟨file, hfile, t, ht, rfl⟩ := run.exists_typeDecl hdeclared
    have hmem : Go.Decl.type t ∈ run.decls := List.mem_flatMap.2 ⟨file, hfile, ht⟩
    exact (h _ hmem).valid t.name List.mem_cons_self
  type_bases := fun t ht hrecord => run.base_ne_of_legal h (.record ht hrecord)
  class_bases := fun c hc => run.base_ne_of_legal h (.remote hc)
  params := by
    intro c hc m hm p hp hblank
    obtain ⟨d, hd, hmem⟩ := run.exists_blank_variable hc hm hp hblank
    exact (h d hd).named hmem

/-- **When all names in the code are legal.** In the code of a successful run every declared name is
    a valid identifier and no field or parameter is called `_` exactly if the descriptions call
    their types and classes by valid identifiers, extend no type called `_`, and have no parameter
    of a method with an empty name or with a single character that is no letter or digit. -/
theorem declares_legal_names_iff {s : Settings} {sources : List Source} {files : List OutputFile}
    (h : (compileSources s sources).result = .ok files) :
    ∃ run : Run s sources, run.files = files ∧
      files.map OutputFile.contents = run.goFiles.map Go.File.print ∧
      ((∀ file ∈ run.goFiles, ∀ d ∈ file.decls,
          (∀ n ∈ d.declaredNames, isValid n = true) ∧ "_" ∉ d.variableNames) ↔
        Source.NamesLegal sources) := by
  obtain ⟨run, rfl⟩ := result_compileSources_eq_ok_iff.1 h
  refine ⟨run, rfl, run.contents_files, ⟨fun hall => ?_, fun hlegal file hfile d hd => ?_⟩⟩
  · refine run.namesLegal_of_legal fun d hd => ?_
    obtain ⟨file, hfile, hd⟩ := List.mem_flatMap.1 hd
    exact ⟨(hall file hfile d hd).1, (hall file hfile d hd).2⟩
  · have hd := run.legal_of_namesLegal hlegal (List.mem_flatMap.2 ⟨file, hfile, hd⟩)
    exact ⟨hd.valid, hd.named⟩

def globbing : Settings := { Settings.default with globs := ["*.kmd.json"] }

/-- Names that need much adjusting. -/
def mixerSources : List Source := [
  { path := ⟨"mixer.kmd.json"⟩
    document := {
      remoteClasses := [
        { name := "MediaObject", doc := "", baseText := none, properties := [], methods := []
          events := [], constructor := none },
        { name := "Mixer", doc := "", baseText := some "MediaObject"
          properties := [⟨"", "Codec", "", false, none⟩]
          methods := [
            { name := "2nd-pass", doc := "", result := none
              params := [⟨"type", "int", "", false, none⟩, ⟨"é!", "int", "", false, none⟩] }]
          events := [], constructor := none }]
      complexTypes := [
        { format := some "enum", name := "Codec", doc := "", values := ["H.264", "", "é"]
          properties := [], baseText := some "_" }] } }]

theorem namesLegal_mixer : Source.NamesLegal mixerSources where
  types := by
    have hall : ∀ name ∈ typeNames mixerSources ++ classNames mixerSources,
        isValid name = true := by
      decide
    exact fun name hname => hall name (List.mem_append.2 hname)
  type_bases := by decide
  class_bases := by
    have hall : ∀ source ∈ mixerSources, ∀ c ∈ source.document.remoteClasses,
        c.base ≠ some "_" := by
      decide
    rintro c ⟨source, hsource, hc⟩
    exact hall source hsource c hc
  params := by
    have hall : ∀ source ∈ mixerSources, ∀ c ∈ source.document.remoteClasses, ∀ m ∈ c.methods,
        ∀ p ∈ m.params, ¬ IsBlank p.name := by
      decide
    rintro c ⟨source, hsource, hc⟩
    exact hall source hsource c hc

theorem mixer_declares_legal_names :
    ∃ run : Run globbing mixerSources, ∀ file ∈ run.goFiles, ∀ d ∈ file.decls,
      (∀ n ∈ d.declaredNames, isValid n = true) ∧ "_" ∉ d.variableNames := by
  obtain ⟨files, h⟩ : ∃ files, (compileSources globbing mixerSources).result = .ok files :=
    Outcome.exists_eq_ok_of_isOk (by decide +kernel)
  obtain ⟨run, -, -, hlegal⟩ := declares_legal_names_iff h
  exact ⟨run, hlegal.2 namesLegal_mixer⟩

/-! ## Names that are not legal -/

/-- A type with a name that is no identifier, and a method with a parameter that has no name. -/
def videoSources : List Source := [
  { path := ⟨"video.kmd.json"⟩
    document := {
      remoteClasses := [
        { name := "Player", doc := "", baseText := none, properties := [], events := []
          methods := [
            { name := "seek", doc := "", params := [⟨"", "int", "", false, none⟩]
              result := none }]
          constructor := none }]
      complexTypes := [
        { format := none, name := "video-info", doc := "", values := []
          properties := [⟨"2nd-track", "int", "", false, none⟩], baseText := none }] } }]

/-- **A run with valid settings may succeed and declare names that are not legal**: a type that is
    called `video-info`, and a parameter that is called `_`. -/
theorem video_declares_illegal_names :
    globbing.validate = .ok () ∧
    ∃ run : Run globbing videoSources,
      (compileSources globbing videoSources).result = .ok run.files ∧
      (∃ d ∈ run.decls, "video-info" ∈ d.declaredNames ∧ isValid "video-info" = false) ∧
      ∃ d ∈ run.decls, "_" ∈ d.variableNames := by
  have hsettings : globbing.fault? = none := by decide +kernel
  refine ⟨by rw [Settings.validate, hsettings], ?_⟩
  obtain ⟨files, h⟩ : ∃ files, (compileSources globbing videoSources).result = .ok files :=
    Outcome.exists_eq_ok_of_isOk (by decide +kernel)
  obtain ⟨run, rfl⟩ := result_compileSources_eq_ok_iff.1 h
  refine ⟨run, h, ?_, ?_⟩
  · have hvideo : Source.HasStruct videoSources _ _ _ := .record List.mem_cons_self rfl
    obtain ⟨doc, fields, hmem, -⟩ := run.exists_struct_of_hasStruct hvideo
    exact ⟨_, hmem, List.mem_cons_self, by decide⟩
  · have hplayer : Source.HasClass videoSources _ := ⟨_, List.mem_cons_self, List.mem_cons_self⟩
    exact run.exists_blank_variable hplayer List.mem_cons_self List.mem_cons_self (Or.inl rfl)

end Compilation

end GoBindings
