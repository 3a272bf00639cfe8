import GoBindings.Proofs.Emission
import GoBindings.Proofs.TypeNames

set_option autoImplicit false

/-! # No dangling references

Names of types come into code from many places, but all of them are looked up first. `Nameable` says
which names a registry allows, and every declaration of every unit keeps to it. What a registry
allows is what a run declares, so the code of a run mentions no type that is missing from it
(`mem_declaredTypes_of_nameable`). -/

namespace GoBindings

open Source (typeNames classNames)
open Go (predeclaredTypes)

namespace Binding

/-! ## Names in the types of a method -/

/-- The one name in the Go type of a resolved type. -/
def Resolved.goName : Resolved → String
  | primitive p => primitiveName p
  | enum name | value name => name
  | remote name => capabilityName name
  | collection item => item.goName
  | optional inner => inner.goName

theorem primitiveName_mem (p : Primitive) : primitiveName p ∈ predeclaredTypes := by
  cases p <;> decide

namespace Resolved

@[simp]
theorem names_goType (style : OptionalStyle) (t : Resolved) :
    (t.goType style).names = [t.goName] := by
  induction t with
  | primitive p => rfl
  | enum name => rfl
  | value name => rfl
  | remote name => rfl
  | collection item ih => exact ih
  | optional inner ih =>
    simp only [goType]
    split <;> exact ih

@[simp]
theorem names_returnType (code : CodeSettings) (t : Resolved) :
    (t.returnType code).names = [t.goName] := by
  simp only [returnType]
  split
  · exact names_goType code.optionalStyle t
  · exact names_goType code.optionalStyle t

theorem goName_required (t : Resolved) : t.required.goName = t.goName := by
  induction t with
  | optional inner ih => exact ih
  | _ => rfl

/-- A scalar arrives as a type of the language, and is converted to one or to its own type. -/
theorem scalar?_names {t : Resolved} {s : Scalar} (h : t.scalar? = some s) :
    s.arrivesAs :: s.convertTo.toList ⊆ t.goName :: predeclaredTypes := by
  rw [← goName_required]
  unfold scalar? at h
  split at h
  all_goals cases h
  -- an enumeration is converted to itself, every other scalar to a type of the language
  case h_6 name heq =>
    rw [heq]
    simp [goName, predeclaredTypes]
  all_goals exact List.Subset.trans (by decide) (List.subset_cons_self _ _)

end Resolved

/-- The names in the types of a method's parameters and result. -/
def Method.goNames (m : Method) : List String :=
  (m.params.map fun p => p.type.goName) ++ m.result.toList.map Resolved.goName

namespace Param

/-- No type is mentioned to tell whether an argument is sent. -/
@[simp]
theorem typeNames_guard (style : OptionalStyle) (p : Param) : (p.guard style).typeNames = [] := by
  unfold guard
  split
  · rfl
  · split <;> rfl

@[simp]
theorem typeNames_wireValue (p : Param) : p.wireValue.typeNames = [] := by
  unfold wireValue
  split <;> rfl

@[simp]
theorem typeNames_send (style : OptionalStyle) (p : Param) : (p.send style).typeNames = [] := by
  simp [send, Go.Stmt.typeNames, Go.Expr.typeNames]

end Param

theorem typeNames_placeholder (type : Go.Ty) : (placeholder type).typeNames = type.names := by
  cases type <;> rfl

theorem Scalar.typeNames_returnStmts (s : Scalar) (type : Go.Ty) :
    (s.returnStmts type).flatMap Go.Stmt.typeNames ⊆ s.arrivesAs :: s.convertTo.toList := by
  have hvalue : s.value.typeNames ⊆ s.convertTo.toList := by
    unfold value
    cases s.convertTo with
    | none => simp [Go.Expr.typeNames]
    | some type =>
      by_cases hlen : type = "len" <;> simp [Go.Expr.typeNames, Go.Expr.conversion, hlen]
  unfold returnStmts
  split <;>
    simpa [Go.Stmt.typeNames, Go.Expr.typeNames, Go.Ty.names, responseError]
      using List.subset_cons_of_subset _ hvalue

theorem typeNames_returnShape (code : CodeSettings) (t : Resolved) :
    (returnShape code t).flatMap Go.Stmt.typeNames = [t.goName] := by
  unfold returnShape
  cases code.returnPolicy <;> cases t.required.isRemote <;>
    simp [Go.Stmt.typeNames, Go.Expr.typeNames, responseError, Go.Expr.nil, typeNames_placeholder]

theorem typeNames_returnStmts (code : CodeSettings) (result : Option Resolved) :
    (returnStmts code result).flatMap Go.Stmt.typeNames ⊆
      result.toList.map Resolved.goName ++ predeclaredTypes := by
  cases result with
  | none => simp [returnStmts, Go.Stmt.typeNames, Go.Expr.typeNames, responseError]
  | some t =>
    simp only [returnStmts]
    cases hscalar : t.scalar? with
    | none => simp [typeNames_returnShape]
    | some s =>
      exact List.Subset.trans (s.typeNames_returnStmts _) (Resolved.scalar?_names hscalar)

namespace Method

theorem typeNames_goParams (style : OptionalStyle) (m : Method) :
    (m.goParams style).flatMap Go.Param.typeNames ⊆ m.goNames ++ predeclaredTypes := by
  have hparams : (m.goParams style).flatMap Go.Param.typeNames
      = m.params.map fun p => p.type.goName := by
    simp only [goParams, List.flatMap_map, Go.Param.typeNames, Param.goParam,
      Resolved.names_goType]
    exact List.map_eq_flatMap.symm
  rw [hparams, goNames, List.append_assoc]
  exact List.subset_append_left _ _

theorem result_subset (m : Method) :
    m.result.toList.map Resolved.goName ++ predeclaredTypes ⊆ m.goNames ++ predeclaredTypes := by
  rw [goNames, List.append_assoc]
  exact List.subset_append_right _ _

theorem typeNames_goResults (code : CodeSettings) (m : Method) :
    (m.goResults code).flatMap Go.Ty.names ⊆ m.goNames ++ predeclaredTypes := by
  refine List.Subset.trans ?_ m.result_subset
  unfold goResults
  cases m.result with
  | none => simpa using Go.Ty.names_error_subset
  | some t => simpa using List.cons_subset_cons t.goName Go.Ty.names_error_subset

/-- Beside the type of its result, the body of a stub mentions only types of the language. -/
theorem typeNames_stubBody (code : CodeSettings) (m : Method) :
    (m.stubBody code).flatMap Go.Stmt.typeNames ⊆
      m.result.toList.map Resolved.goName ++ predeclaredTypes := by
  have hpayload : m.payload.flatMap (fun e => e.1.typeNames ++ e.2.typeNames) = [] := by
    unfold payload
    split <;> rfl
  have hsends : (m.params.map fun p => p.send code.optionalStyle).flatMap Go.Stmt.typeNames
      = [] := by
    rw [List.flatMap_map]
    exact List.flatMap_eq_nil_iff.2 fun p _ => p.typeNames_send code.optionalStyle
  have hargs : (m.collectArgs code.optionalStyle).flatMap Go.Stmt.typeNames ⊆
      predeclaredTypes := by
    unfold collectArgs
    split
    · exact List.nil_subset _
    · rw [List.flatMap_cons, hsends, List.append_nil]
      exact Go.Ty.names_payload_subset
  unfold stubBody
  simp only [List.flatMap_append, List.append_subset]
  refine ⟨⟨⟨List.nil_subset _, ?_⟩, ?_⟩, ?_⟩
  · exact List.subset_append_of_subset_right _ hargs
  · refine List.subset_append_of_subset_right _ ?_
    simpa [Go.Stmt.typeNames, Go.Expr.typeNames, Go.Expr.conversion, hpayload]
      using Go.Ty.names_payload_subset
  · exact typeNames_returnStmts code m.result

theorem typeNames_signature (code : CodeSettings) (m : Method) :
    (m.signature code).typeNames ⊆ m.goNames ++ predeclaredTypes :=
  List.append_subset.2 ⟨m.typeNames_goParams code.optionalStyle, m.typeNames_goResults code⟩

theorem typeNames_stub (code : CodeSettings) (className : String) (m : Method) :
    (m.stub code className).typeNames ⊆ className :: (m.goNames ++ predeclaredTypes) := by
  have hreceiver : (m.stub code className).receiver.toList.flatMap Go.Param.typeNames
      = [className] := rfl
  unfold Go.Func.typeNames
  rw [hreceiver, List.append_assoc, List.append_assoc, List.singleton_append]
  refine List.cons_subset_cons className (List.append_subset.2 ⟨?_, List.append_subset.2 ⟨?_, ?_⟩⟩)
  · exact m.typeNames_goParams code.optionalStyle
  · exact m.typeNames_goResults code
  · exact List.Subset.trans (m.typeNames_stubBody code) m.result_subset

end Method

/-! ## Names in constructors -/

namespace Seed

/-- A value that is filled in mentions at most the enumeration it is converted to. -/
theorem typeNames_entry? {s : Seed} {entry : Go.Expr × Go.Expr} (h : s.entry? = some entry) :
    entry.1.typeNames ++ entry.2.typeNames ⊆ [s.type.goName] := by
  obtain ⟨value, hvalue, rfl⟩ := Option.map_eq_some_iff.1 h
  rw [← Resolved.goName_required]
  unfold value? at hvalue
  split at hvalue
  all_goals cases hvalue
  -- only the default of an enumeration is converted
  case h_3 name text htype hdefault =>
    rw [htype]
    by_cases hlen : name = "len" <;>
      simp [Go.Expr.typeNames, Go.Expr.conversion, Resolved.goName, hlen]
  all_goals exact List.nil_subset _

end Seed

theorem typeNames_constructorBody (seeds : List Seed) :
    (constructorBody seeds).flatMap Go.Stmt.typeNames ⊆
      (seeds.map fun s => s.type.goName) ++ predeclaredTypes := by
  have hentries : (seeds.filterMap Seed.entry?).flatMap (fun e => e.1.typeNames ++ e.2.typeNames) ⊆
      seeds.map fun s => s.type.goName := by
    intro n hn
    obtain ⟨entry, hentry, hn⟩ := List.mem_flatMap.1 hn
    obtain ⟨s, hs, hentry⟩ := List.mem_filterMap.1 hentry
    have heq := List.mem_singleton.1 (Seed.typeNames_entry? hentry hn)
    exact List.mem_map.2 ⟨s, hs, heq.symm⟩
  unfold constructorBody
  split
  · exact List.nil_subset _
  · simp only [Go.Stmt.typeNames, Go.Expr.typeNames, Go.Expr.typeNamesOfEntries_eq,
      List.flatMap_cons, List.flatMap_nil, Go.Stmt.typeNamesOfAll_eq, List.append_nil,
      List.append_subset]
    exact ⟨List.subset_append_of_subset_right _ Go.Ty.names_payload_subset,
      List.subset_append_of_subset_left _ hentries⟩

theorem typeNames_constructorFunc (code : CodeSettings) (className : String) (seeds : List Seed) :
    (constructorFunc code className seeds).typeNames ⊆
      className :: capabilityName code.rootClass ::
        ((seeds.map fun s => s.type.goName) ++ predeclaredTypes) := by
  have hparams : (constructorFunc code className seeds).params.flatMap Go.Param.typeNames
      = capabilityName code.rootClass :: Go.Ty.payload.names := rfl
  have hresults : (constructorFunc code className seeds).results.flatMap Go.Ty.names
      = Go.Ty.payload.names := rfl
  have hreceiver : (constructorFunc code className seeds).receiver.toList.flatMap
      Go.Param.typeNames = [className] := rfl
  have hpayload := List.subset_append_of_subset_right (seeds.map fun s => s.type.goName)
    Go.Ty.names_payload_subset
  unfold Go.Func.typeNames
  rw [hreceiver, hparams, hresults, List.append_assoc, List.append_assoc, List.singleton_append,
    List.cons_append]
  refine List.cons_subset_cons _ (List.cons_subset_cons _ ?_)
  refine List.append_subset.2 ⟨hpayload, List.append_subset.2 ⟨hpayload, ?_⟩⟩
  exact typeNames_constructorBody seeds

/-! ## Names that a registry allows -/

/-- The types that code made with a registry may mention. -/
inductive Nameable (registry : Registry) (root : String) : String → Prop
  | predeclared {name : String} (h : name ∈ predeclaredTypes) : Nameable registry root name
  | connection : Nameable registry root "Connection"
  | root : Nameable registry root (capabilityName root)
  | declared {name : String} {entry : Entry} (h : registry.find? name = some entry) :
      Nameable registry root name
  | capability {name : String} {entry : Entry} (h : registry.find? name = some entry)
      (hkind : entry.kind = .remote) : Nameable registry root (capabilityName name)

section

variable {registry : Registry} {code : CodeSettings} {root : String}

/-- What has been looked up may be mentioned. -/
theorem Resolved.nameable_goName {place : Place} {e : TypeExpr} {t : Resolved}
    (h : ofType registry place e = .ok t) : Nameable registry root t.goName := by
  induction e generalizing t with
  | primitive p =>
    cases h
    exact .predeclared (primitiveName_mem p)
  | named name =>
    obtain ⟨entry, hentry, rfl⟩ := Outcome.map_eq_ok_iff.1 h
    have hfind := Registry.resolve_eq_ok_iff.1 hentry
    unfold ofEntry
    cases hkind : entry.kind with
    | enum => exact .declared hfind
    | value => exact .declared hfind
    | remote => exact .capability hfind hkind
  | collection item ih =>
    obtain ⟨inner, hinner, rfl⟩ := Outcome.map_eq_ok_iff.1 h
    show Nameable registry root inner.goName
    exact ih hinner
  | optional item ih =>
    obtain ⟨inner, hinner, rfl⟩ := Outcome.map_eq_ok_iff.1 h
    show Nameable registry root inner.goName
    exact ih hinner

theorem nameable_propertyField {style : OptionalStyle} {owner : String} {f : Interface.Field}
    {g : Go.Field} (h : propertyField registry style owner f = .ok g) :
    ∀ n ∈ g.typeNames, Nameable registry root n := by
  obtain ⟨t, ht, hg⟩ := Outcome.bind_eq_ok_iff.1 h
  cases hg
  intro n hn
  rw [Go.Field.typeNames, Resolved.names_goType, List.mem_singleton] at hn
  exact hn ▸ Resolved.nameable_goName ht

theorem Method.nameable_goNames {owner : String} {m : Interface.Method} {k : Method}
    (h : Method.ofInterface registry owner m = .ok k) :
    ∀ n ∈ k.goNames, Nameable registry root n := by
  obtain ⟨params, result, hparams, -, hresult, rfl⟩ := Method.ofInterface_eq_ok_iff.1 h
  intro n hn
  rcases List.mem_append.1 hn with hn | hn
  · obtain ⟨p, hp, rfl⟩ := List.mem_map.1 hn
    obtain ⟨f, -, hf⟩ := Outcome.exists_of_mem_right hparams hp
    obtain ⟨t, ht, hp⟩ := Outcome.bind_eq_ok_iff.1 hf
    cases hp
    exact Resolved.nameable_goName ht
  · cases hm : m.result with
    | none =>
      rw [hm] at hresult
      cases hresult
      exact absurd hn List.not_mem_nil
    | some r =>
      rw [hm] at hresult
      obtain ⟨t, ht, rfl⟩ := Outcome.map_eq_ok_iff.1 hresult
      exact List.mem_singleton.1 hn ▸ Resolved.nameable_goName ht

theorem Seed.nameable_goName {owner : String} {f : Interface.Field} {s : Seed}
    (h : Seed.ofField registry owner f = .ok s) : Nameable registry root s.type.goName := by
  obtain ⟨t, ht, hs⟩ := Outcome.bind_eq_ok_iff.1 h
  cases hs
  exact Resolved.nameable_goName ht

/-- The declarations of an enumeration mention it, and the type of its texts. -/
theorem nameable_enumDecls {t : Interface.DataType} {values : List String} {entry : Entry}
    (hname : registry.find? t.name = some entry) :
    ∀ d ∈ Go.Decl.type { doc := t.doc, name := t.name, body := .like .string } ::
        .func (stringerFunc t.name) ::
        if (enumConstants t.name values).isEmpty then []
        else [.consts (enumConstants t.name values)],
      ∀ n ∈ d.typeNames, Nameable registry root n := by
  have hstring : Nameable registry root "string" := .predeclared (by decide)
  intro d hd n hn
  rcases List.mem_cons.1 hd with rfl | hd
  · exact List.mem_singleton.1 hn ▸ hstring
  rcases List.mem_cons.1 hd with rfl | hd
  · have hnames : (stringerFunc t.name).typeNames = [t.name, "string", "string"] := rfl
    have hn : n ∈ [t.name, "string", "string"] := hnames ▸ hn
    simp only [List.mem_cons, List.not_mem_nil, or_false, or_self] at hn
    rcases hn with rfl | rfl
    · exact .declared hname
    · exact hstring
  · split at hd
    · exact absurd hd List.not_mem_nil
    · obtain rfl := List.mem_singleton.1 hd
      obtain ⟨c, hc, rfl⟩ := List.mem_map.1 hn
      obtain ⟨value, -, rfl⟩ := List.mem_map.1 hc
      exact .declared hname

/-- A data type that is registered, with a base that is, mentions only what it may. -/
theorem nameable_typeUnit {t : Interface.DataType} {u : CodeUnit} {entry : Entry}
    (h : typeUnit registry code t = .ok u) (hname : registry.find? t.name = some entry)
    (hbase : ∀ base fields, t.shape = .record (some base) fields →
      ∃ found, registry.find? base = some found) :
    ∀ d ∈ u.decls, ∀ n ∈ d.typeNames, Nameable registry root n := by
  obtain ⟨decls, rfl, hdecls⟩ := typeUnit_eq_ok_iff.1 h
  intro d hd n hn
  cases hshape : t.shape with
  | enum values =>
    rw [hshape] at hdecls
    obtain ⟨-, rfl⟩ := enumDecls_eq_ok_iff.1 hdecls
    exact nameable_enumDecls hname d hd n hn
  | record base fields =>
    rw [hshape] at hdecls
    obtain ⟨own, hown, -, rfl⟩ := recordDecls_eq_ok_iff.1 hdecls
    obtain rfl := List.mem_singleton.1 hd
    obtain ⟨field, hfield, hmem⟩ := List.mem_flatMap.1 hn
    rcases List.mem_append.1 hfield with hfield | hfield
    · obtain ⟨b, hb, rfl⟩ := List.mem_map.1 hfield
      obtain rfl := Option.mem_toList.1 hb
      obtain ⟨found, hfound⟩ := hbase b fields hshape
      exact List.mem_singleton.1 hmem ▸ .declared hfound
    · obtain ⟨f, -, hf⟩ := Outcome.exists_of_mem_right hown hfield
      exact nameable_propertyField hf n hmem

theorem Nameable.of_mem_append {names : List String}
    (h : ∀ n ∈ names, Nameable registry root n) :
    ∀ n ∈ names ++ predeclaredTypes, Nameable registry root n := by
  intro n hn
  rcases List.mem_append.1 hn with hn | hn
  · exact h n hn
  · exact .predeclared hn

theorem nameable_capabilityDecl {c : Interface.Class} {methods : List Method}
    (hbase : ∀ base, c.base = some base →
      ∃ found, registry.find? base = some found ∧ found.kind = .remote)
    (hmethods : ∀ m ∈ methods, ∀ n ∈ m.goNames, Nameable registry root n) :
    ∀ n ∈ (capabilityDecl code c methods).body.typeNames, Nameable registry root n := by
  intro n hn
  rcases List.mem_append.1 hn with hn | hn
  · obtain ⟨base, hmem, rfl⟩ := List.mem_map.1 hn
    have hsome := Option.mem_toList.1 (List.mem_of_mem_filter hmem)
    obtain ⟨found, hfound, hkind⟩ := hbase base hsome
    exact .capability hfound hkind
  · obtain ⟨sig, hsig, hn⟩ := List.mem_flatMap.1 hn
    obtain ⟨m, hm, rfl⟩ := List.mem_map.1 hsig
    exact Nameable.of_mem_append (hmethods m hm) n (m.typeNames_signature code hn)

theorem nameable_classStruct {c : Interface.Class} {properties : List Go.Field}
    (hbase : ∀ base, c.base = some base → ∃ found, registry.find? base = some found)
    (hproperties : ∀ f ∈ properties, ∀ n ∈ f.typeNames, Nameable registry root n) :
    ∀ n ∈ (classStruct c properties).body.typeNames, Nameable registry root n := by
  intro n hn
  obtain ⟨f, hf, hn⟩ := List.mem_flatMap.1 hn
  rcases List.mem_cons.1 hf with rfl | hf
  · cases hsome : c.base with
    | none =>
      rw [hsome] at hn
      exact List.mem_singleton.1 hn ▸ .connection
    | some base =>
      rw [hsome] at hn
      obtain ⟨found, hfound⟩ := hbase base hsome
      exact List.mem_singleton.1 hn ▸ .declared hfound
  · exact hproperties f hf n hn

theorem nameable_constructorFunc {className : String} {seeds : List Seed}
    (hclass : Nameable registry code.rootClass className)
    (hseeds : ∀ s ∈ seeds, Nameable registry code.rootClass s.type.goName) :
    ∀ n ∈ (constructorFunc code className seeds).typeNames,
      Nameable registry code.rootClass n := by
  intro n hn
  rcases List.mem_cons.1 (typeNames_constructorFunc code className seeds hn) with rfl | hn
  · exact hclass
  rcases List.mem_cons.1 hn with rfl | hn
  · exact .root
  · exact Nameable.of_mem_append (List.forall_mem_map.2 hseeds) n hn

/-- A class that is registered, with a base that is one too, mentions only what it may. -/
theorem nameable_classUnit {c : Interface.Class} {u : CodeUnit} {entry : Entry}
    (h : classUnit registry code c = .ok u) (hname : registry.find? c.name = some entry)
    (hbase : ∀ base, c.base = some base →
      ∃ found, registry.find? base = some found ∧ found.kind = .remote) :
    ∀ d ∈ u.decls, ∀ n ∈ d.typeNames, Nameable registry code.rootClass n := by
  obtain ⟨methods, properties, seeds, hmethods, hproperties, -, hseeds, rfl⟩ :=
    classUnit_eq_ok_iff.1 h
  have hclass : Nameable registry code.rootClass c.name := .declared hname
  have hmethod : ∀ m ∈ methods, ∀ n ∈ m.goNames, Nameable registry code.rootClass n := by
    intro m hm
    obtain ⟨i, -, hi⟩ := Outcome.exists_of_mem_right hmethods hm
    exact Method.nameable_goNames hi
  intro d hd
  simp only [classDecls, List.mem_append] at hd
  rcases hd with (hd | hd) | hd
  · split at hd
    · exact absurd hd List.not_mem_nil
    · obtain rfl := List.mem_singleton.1 hd
      exact nameable_capabilityDecl hbase hmethod
  · rcases List.mem_cons.1 hd with rfl | hd
    · refine nameable_classStruct (fun base hsome => ?_) fun f hf => ?_
      · obtain ⟨found, hfound, -⟩ := hbase base hsome
        exact ⟨found, hfound⟩
      · obtain ⟨p, -, hp⟩ := Outcome.exists_of_mem_right hproperties hf
        exact nameable_propertyField hp
    · obtain rfl := List.mem_singleton.1 hd
      refine nameable_constructorFunc hclass fun s hs => ?_
      obtain ⟨f, -, hf⟩ := Outcome.exists_of_mem_right hseeds hs
      exact Seed.nameable_goName hf
  · obtain ⟨m, hm, rfl⟩ := List.mem_map.1 hd
    intro n hn
    rcases List.mem_cons.1 (m.typeNames_stub code c.name hn) with rfl | hn
    · exact hclass
    · exact Nameable.of_mem_append (hmethod m hm) n hn

end

end Binding

/-! ## The code of a run -/

namespace Compilation

open Binding

/-- The declarations in the files of a part are those of its units. -/
theorem Part.exists_goFile_iff {s : Settings} {p : Part} {d : Go.Decl} :
    (∃ file ∈ p.goFiles s, d ∈ file.decls) ↔
      ∃ u ∈ p.units.types ++ p.units.classes, d ∈ u.decls := by
  unfold goFiles
  cases htypes : p.units.types with
  | nil => simp [Output.fileOf]
  | cons u us => simp [Output.fileOf, or_comm, or_assoc, or_and_right, exists_or]

namespace Run

variable {s : Settings} {sources : List Source}

theorem exists_goFile_iff (run : Run s sources) {d : Go.Decl} :
    (∃ file ∈ run.goFiles, d ∈ file.decls) ↔
      ∃ p ∈ run.parts, ∃ u ∈ p.units.types ++ p.units.classes, d ∈ u.decls := by
  constructor
  · rintro ⟨file, hfile, hd⟩
    obtain ⟨p, hp, hfile⟩ := List.mem_flatMap.1 hfile
    exact ⟨p, hp, Part.exists_goFile_iff.1 ⟨file, hfile, hd⟩⟩
  · rintro ⟨p, hp, hunit⟩
    obtain ⟨file, hfile, hd⟩ := Part.exists_goFile_iff.2 hunit
    exact ⟨file, List.mem_flatMap.2 ⟨p, hp, hfile⟩, hd⟩

theorem exists_typeDecl (run : Run s sources) {name : String} (h : name ∈ run.declaredTypes) :
    ∃ file ∈ run.goFiles, ∃ t, Go.Decl.type t ∈ file.decls ∧ t.name = name := by
  obtain ⟨p, hp, h⟩ := List.mem_flatMap.1 h
  obtain ⟨u, hu, h⟩ := List.mem_flatMap.1 h
  obtain ⟨d, hd, h⟩ := List.mem_flatMap.1 h
  obtain ⟨file, hfile, hd⟩ := run.exists_goFile_iff.2 ⟨p, hp, u, hu, hd⟩
  cases d with
  | type t => exact ⟨file, hfile, t, hd, (List.mem_singleton.1 h).symm⟩
  | consts cs => exact absurd h List.not_mem_nil
  | func f => exact absurd h List.not_mem_nil

/-- **A registry allows nothing but what the run declares**, beside what is there without it. -/
theorem mem_declaredTypes_of_nameable (run : Run s sources) {name : String}
    (h : Nameable run.registry s.code.rootClass name) :
    name ∈ predeclaredTypes ∨ name = "Connection" ∨ name = capabilityName s.code.rootClass ∨
      name ∈ run.declaredTypes := by
  simp only [run.declaredTypes_perm.mem_iff, List.mem_append, List.mem_dedup, List.mem_map,
    List.mem_filter]
  cases h with
  | predeclared h => exact Or.inl h
  | connection => exact Or.inr (Or.inl rfl)
  | root => exact Or.inr (Or.inr (Or.inl rfl))
  | declared h =>
    have hwin := (Registry.find?_eq_some_of_build run.built).1 h
    exact Or.inr (Or.inr (Or.inr (hwin.mem_names.imp_right Or.inl)))
  | @capability name entry h hkind =>
    have hwin := (Registry.find?_eq_some_of_build run.built).1 h
    have hmem := hwin.mem_classNames_of_kind hkind
    -- the capability of the root comes with the runtime, any other with its class
    by_cases hroot : name = s.code.rootClass
    · exact Or.inr (Or.inr (Or.inl (hroot ▸ rfl)))
    · refine Or.inr (Or.inr (Or.inr (Or.inr (Or.inr ⟨name, ⟨hmem, ?_⟩, rfl⟩))))
      simpa using hroot

/-- Bases of data types and classes are looked up when the registry is built. -/
theorem exists_base (run : Run s sources) {name base : String} {entry : Entry}
    (h : Registry.Winning sources name entry) (hkind : entry.kind ≠ .enum)
    (hbase : entry.base = some base) :
    ∃ found, run.registry.find? base = some found ∧ found.kind = entry.kind := by
  have hacc := Registry.acceptable_of_build run.built
  obtain ⟨found, hfound, hsame⟩ := hacc.bases_declared name entry base h hkind hbase
  exact ⟨found, (Registry.find?_eq_some_of_build run.built).2 hfound, hsame⟩

theorem nameable_types (run : Run s sources) {p : Part} (hp : p ∈ run.parts) {u : CodeUnit}
    (hu : u ∈ p.units.types) :
    ∀ d ∈ u.decls, ∀ n ∈ d.typeNames, Nameable run.registry s.code.rootClass n := by
  obtain ⟨k, hk⟩ := List.mem_iff_getElem?.1 hp
  have hcoded := (ModuleUnits.ofModule_eq_ok_iff.1 (run.made p hp).coded).1
  obtain ⟨data, hdata, hunit⟩ := Outcome.exists_of_mem_right hcoded hu
  obtain ⟨t, ht, hschema⟩ := Outcome.exists_of_mem_right (run.forall₂_ownedTypes hk) hdata
  obtain ⟨i, hi, hrest, hlater⟩ := Source.exists_of_mem_lastDeclared ht
  have hwin := Registry.Winning.type (run.getElem?_parts hk) hi hrest hlater
  have hfind : run.registry.find? data.name = some (Registry.typeEntry p.source.path i t) := by
    rw [Interface.DataType.name_of_ofSchema hschema]
    exact (Registry.find?_eq_some_of_build run.built).2 hwin
  refine nameable_typeUnit hunit hfind fun base fields hshape => ?_
  -- only a record embeds its base, and a record is registered as a value
  rcases Interface.DataType.shape_of_ofSchema hschema with ⟨-, henum⟩ | ⟨hvalue, own, hrecord⟩
  · rw [hshape] at henum
    cases henum
  · rw [hshape] at hrecord
    obtain ⟨hbase, -⟩ := Interface.Shape.record.inj hrecord
    have hkind : (Registry.typeEntry p.source.path i t).kind ≠ .enum := by
      simp [Registry.typeEntry, hvalue]
    obtain ⟨found, hfound, -⟩ := run.exists_base hwin hkind hbase.symm
    exact ⟨found, hfound⟩

theorem nameable_classes (run : Run s sources) {p : Part} (hp : p ∈ run.parts) {u : CodeUnit}
    (hu : u ∈ p.units.classes) :
    ∀ d ∈ u.decls, ∀ n ∈ d.typeNames, Nameable run.registry s.code.rootClass n := by
  obtain ⟨k, hk⟩ := List.mem_iff_getElem?.1 hp
  obtain ⟨c, hc, declared, hschema, hunit⟩ :=
    Outcome.exists_of_mem_right (run.forall₂_classes hp) hu
  obtain ⟨i, hi⟩ := List.mem_iff_getElem?.1 hc
  obtain ⟨hname, hbase⟩ := Interface.Class.name_base_of_ofSchema hschema
  have hwin := Registry.Winning.remote (run.getElem?_parts hk) hi
  have hfind : run.registry.find? declared.name
      = some (Registry.classEntry p.source.path i c) := by
    rw [hname]
    exact (Registry.find?_eq_some_of_build run.built).2 hwin
  refine nameable_classUnit hunit hfind fun base hsome => ?_
  exact run.exists_base hwin Kind.noConfusion (hbase.symm.trans hsome)

end Run

/-- **No dangling reference.** Every type that the code of a successful run mentions is one of the
    language, one of the runtime (`Connection`, the capability of the root class), or declared in
    the files of this run. -/
theorem mentions_only_declared_types {s : Settings} {sources : List Source}
    {files : List OutputFile} (h : (compileSources s sources).result = .ok files) :
    ∃ run : Run s sources, run.files = files ∧
      files.map OutputFile.contents = run.goFiles.map Go.File.print ∧
      ∀ file ∈ run.goFiles, ∀ d ∈ file.decls, ∀ n ∈ d.typeNames,
        n ∈ predeclaredTypes ∨ n = "Connection" ∨ n = capabilityName s.code.rootClass ∨
          ∃ file' ∈ run.goFiles, ∃ t, Go.Decl.type t ∈ file'.decls ∧ t.name = n := by
  obtain ⟨run, rfl⟩ := result_compileSources_eq_ok_iff.1 h
  refine ⟨run, rfl, run.contents_files, fun file hfile d hd n hn => ?_⟩
  obtain ⟨p, hp, u, hu, hd⟩ := run.exists_goFile_iff.1 ⟨file, hfile, hd⟩
  have hname : Nameable run.registry s.code.rootClass n := by
    rcases List.mem_append.1 hu with hu | hu
    · exact run.nameable_types hp hu d hd n hn
    · exact run.nameable_classes hp hu d hd n hn
  rcases run.mem_declaredTypes_of_nameable hname with h | h | h | h
  · exact Or.inl h
  · exact Or.inr (Or.inl h)
  · exact Or.inr (Or.inr (Or.inl h))
  · exact Or.inr (Or.inr (Or.inr (run.exists_typeDecl h)))

theorem player_mentions_only_declared_types :
    ∃ run : Run .default playerSources, ∀ file ∈ run.goFiles, ∀ d ∈ file.decls, ∀ n ∈ d.typeNames,
      n ∈ predeclaredTypes ∨ n = "Connection" ∨ n = "IMediaObject" ∨
        ∃ file' ∈ run.goFiles, ∃ t, Go.Decl.type t ∈ file'.decls ∧ t.name = n := by
  obtain ⟨files, h⟩ : ∃ files, (compileSources .default playerSources).result = .ok files :=
    Outcome.exists_eq_ok_of_isOk (by decide +kernel)
  obtain ⟨run, -, -, hmentions⟩ := mentions_only_declared_types h
  exact ⟨run, hmentions⟩

end Compilation

end GoBindings
