import GoBindings.Proofs.CodeLines
import GoBindings.Proofs.Run

set_option autoImplicit false

/-! # Documentation does not change code

Two lists of sources that differ in nothing but documentation are followed through a run side by
side. What each stage makes of them differs in documentation only, or it fails on both in the same
way (`Outcome.Alike`). At the end stand files that have the same lines, apart from comments and
empty lines. -/

namespace GoBindings

open Outcome (Alike)
open Go (Unbroken codeLines)

/-! ## Sources without documentation -/

namespace Schema

def Property.withoutDoc (p : Property) : Property := { p with doc := "" }

def Result.withoutDoc (r : Result) : Result := { r with doc := "" }

def Method.withoutDocs (m : Method) : Method := { m with
  doc := "", params := m.params.map Property.withoutDoc, result := m.result.map Result.withoutDoc }

def Constructor.withoutDocs (k : Constructor) : Constructor :=
  { params := k.params.map Property.withoutDoc }

def RemoteClass.withoutDocs (c : RemoteClass) : RemoteClass := { c with
  doc := "", properties := c.properties.map Property.withoutDoc
  methods := c.methods.map Method.withoutDocs
  constructor := c.constructor.map Constructor.withoutDocs }

def ComplexType.withoutDocs (t : ComplexType) : ComplexType := { t with
  doc := "", properties := t.properties.map Property.withoutDoc }

def Document.withoutDocs (d : Document) : Document where
  remoteClasses := d.remoteClasses.map RemoteClass.withoutDocs
  complexTypes := d.complexTypes.map ComplexType.withoutDocs

theorem RemoteClass.constructorParams_withoutDocs (c : RemoteClass) :
    c.withoutDocs.constructorParams = c.constructorParams.map Property.withoutDoc := by
  unfold withoutDocs constructorParams
  cases c.constructor with
  | none => rfl
  | some k => rfl

end Schema

def Source.withoutDocs (s : Source) : Source := { s with document := s.document.withoutDocs }

/-! ## The registry -/

namespace Registry

theorem typesOf_withoutDocs (s : Source) : typesOf s.withoutDocs = typesOf s := by
  show (s.document.complexTypes.map Schema.ComplexType.withoutDocs).zipIdx.map _ = _
  rw [List.zipIdx_map, List.map_map]
  rfl

theorem classesOf_withoutDocs (s : Source) : classesOf s.withoutDocs = classesOf s := by
  show (s.document.remoteClasses.map Schema.RemoteClass.withoutDocs).zipIdx.map _ = _
  rw [List.zipIdx_map, List.map_map]
  rfl

/-- No declaration has any documentation in the registry. -/
theorem build_withoutDocs (overrides : Bool) (sources : List Source) :
    build overrides (sources.map Source.withoutDocs) = build overrides sources := by
  simp only [build, declareAll, List.flatMap_map, typesOf_withoutDocs, classesOf_withoutDocs]

end Registry

/-! ## Modules -/

namespace Interface

structure Field.SameButDoc (f g : Field) : Prop where
  name : g.name = f.name
  type : g.type = f.type
  default : g.default = f.default
  left : Unbroken f.doc
  right : Unbroken g.doc

structure Method.SameButDocs (m n : Method) : Prop where
  name : n.name = m.name
  params : List.Forall₂ Field.SameButDoc m.params n.params
  result : n.result.map Result.type = m.result.map Result.type
  left : Unbroken (Binding.Method.docLines m)
  right : Unbroken (Binding.Method.docLines n)

structure Class.SameButDocs (c d : Class) : Prop where
  name : d.name = c.name
  base : d.base = c.base
  properties : List.Forall₂ Field.SameButDoc c.properties d.properties
  methods : List.Forall₂ Method.SameButDocs c.methods d.methods
  constructorParams : List.Forall₂ Field.SameButDoc c.constructorParams d.constructorParams
  left : Unbroken c.doc
  right : Unbroken d.doc

inductive Shape.SameButDocs : Shape → Shape → Prop
  | enum (values : List String) : SameButDocs (.enum values) (.enum values)
  | record (base : Option String) {fs gs : List Field} (h : List.Forall₂ Field.SameButDoc fs gs) :
    SameButDocs (.record base fs) (.record base gs)

structure DataType.SameButDocs (t u : DataType) : Prop where
  name : u.name = t.name
  shape : Shape.SameButDocs t.shape u.shape
  left : Unbroken t.doc
  right : Unbroken u.doc

structure Module.SameButDocs (m n : Module) : Prop where
  source : n.source = m.source
  classes : List.Forall₂ Class.SameButDocs m.classes n.classes
  types : List.Forall₂ DataType.SameButDocs m.types n.types

theorem alike_field {p q : Schema.Property} (h : p.withoutDoc = q.withoutDoc) (path : Path)
    (place : Place) :
    Alike Field.SameButDoc (Field.ofProperty path place p).result
      (Field.ofProperty path place q).result := by
  obtain ⟨name, type, doc, optional, value⟩ := p
  obtain ⟨name', type', doc', optional', value'⟩ := q
  obtain ⟨rfl, rfl, rfl, rfl⟩ :
      name = name' ∧ type = type' ∧ optional = optional' ∧ value = value' := by
    simpa [Schema.Property.withoutDoc] using h
  unfold Field.ofProperty
  have hleft := Go.unbroken_lines doc
  have hright := Go.unbroken_lines doc'
  generalize DocText.lines doc = left at hleft ⊢
  generalize DocText.lines doc' = right at hright ⊢
  simp only [Logged.result_bind]
  refine .bind_same fun written => ?_
  refine .bind_same fun default => ?_
  exact .ok ⟨rfl, rfl, rfl, hleft, hright⟩

/-- Properties at places that go by their names. -/
theorem alike_fields {ps qs : List Schema.Property}
    (h : ps.map Schema.Property.withoutDoc = qs.map Schema.Property.withoutDoc) (path : Path)
    (place : String → Place) :
    Alike (List.Forall₂ Field.SameButDoc)
      (ps.mapM fun p => Field.ofProperty path (place p.name) p).result
      (qs.mapM fun q => Field.ofProperty path (place q.name) q).result := by
  refine Logged.alike_mapM ((Outcome.forall₂_of_map_eq h).imp fun p q hpq => ?_)
  have hname : q.withoutDoc.name = p.withoutDoc.name := by rw [hpq]
  have hplace : place q.name = place p.name := congrArg place hname
  rw [hplace]
  exact alike_field hpq path (place p.name)

structure SameResult (r q : Option Result) : Prop where
  type : q.map Result.type = r.map Result.type
  left : ∀ x ∈ r, Unbroken x.doc
  right : ∀ x ∈ q, Unbroken x.doc

theorem alike_result {r q : Option Schema.Result}
    (h : r.map Schema.Result.withoutDoc = q.map Schema.Result.withoutDoc) (path : Path)
    (place : Place) :
    Alike SameResult (Result.ofSchema path place r).result
      (Result.ofSchema path place q).result := by
  have hnone : SameResult none none := ⟨rfl, by simp, by simp⟩
  cases r with
  | none =>
    cases q with
    | none => exact .ok hnone
    | some q => exact absurd h (by simp)
  | some r =>
    cases q with
    | none => exact absurd h (by simp)
    | some q =>
      obtain ⟨type, doc⟩ := r
      obtain ⟨type', doc'⟩ := q
      obtain rfl : type = type' := by simpa [Schema.Result.withoutDoc] using h
      have hleft := Go.unbroken_lines doc
      have hright := Go.unbroken_lines doc'
      simp only [Result.ofSchema]
      generalize DocText.lines doc = left at hleft ⊢
      generalize DocText.lines doc' = right at hright ⊢
      split
      · exact .ok hnone
      · rw [Logged.result_bind, Logged.result_bind]
        refine .bind_same fun type => ?_
        refine .ok ⟨rfl, ?_, ?_⟩
        · rintro _ ⟨⟩
          exact hleft
        · rintro _ ⟨⟩
          exact hright

theorem unbroken_docLines {m : Method} (hdoc : Unbroken m.doc)
    (hresult : ∀ r ∈ m.result, Unbroken r.doc) : Unbroken (Binding.Method.docLines m) := by
  unfold Binding.Method.docLines
  cases hm : m.result with
  | none => exact hdoc
  | some r =>
    have hr : Unbroken r.doc := hresult r hm
    show Unbroken (if r.doc.isEmpty then m.doc else m.doc ++ "Returns:" :: r.doc)
    split
    · exact hdoc
    · intro line hline
      rcases List.mem_append.1 hline with hline | hline
      · exact hdoc line hline
      · rcases List.mem_cons.1 hline with rfl | hline
        · decide
        · exact hr line hline

theorem alike_method {m n : Schema.Method} (h : m.withoutDocs = n.withoutDocs) (path : Path)
    (owner : String) :
    Alike Method.SameButDocs (Method.ofSchema path owner m).result
      (Method.ofSchema path owner n).result := by
  obtain ⟨name, doc, params, result⟩ := m
  obtain ⟨name', doc', params', result'⟩ := n
  obtain ⟨rfl, hparams, hresult⟩ : name = name' ∧
      params.map Schema.Property.withoutDoc = params'.map Schema.Property.withoutDoc ∧
      result.map Schema.Result.withoutDoc = result'.map Schema.Result.withoutDoc := by
    simpa [Schema.Method.withoutDocs] using h
  have hleft := Go.unbroken_lines doc
  have hright := Go.unbroken_lines doc'
  unfold Method.ofSchema
  generalize DocText.lines doc = left at hleft ⊢
  generalize DocText.lines doc' = right at hright ⊢
  simp only [Logged.result_bind]
  refine (alike_fields hparams path (Place.parameter owner name)).bind fun ps qs _ _ hps => ?_
  refine (alike_result hresult path (.result owner name)).bind fun r q _ _ hr => ?_
  refine .ok ⟨rfl, hps, hr.type, ?_, ?_⟩
  · exact unbroken_docLines hleft hr.left
  · exact unbroken_docLines hright hr.right

theorem alike_class {c d : Schema.RemoteClass} (h : c.withoutDocs = d.withoutDocs) (path : Path) :
    Alike Class.SameButDocs (Class.ofSchema path c).result (Class.ofSchema path d).result := by
  have hname : c.withoutDocs.name = d.withoutDocs.name := by rw [h]
  have hbase : c.withoutDocs.base = d.withoutDocs.base := by rw [h]
  have hproperties : c.withoutDocs.properties = d.withoutDocs.properties := by rw [h]
  have hmethods : c.withoutDocs.methods = d.withoutDocs.methods := by rw [h]
  have hparams : c.constructorParams.map Schema.Property.withoutDoc
      = d.constructorParams.map Schema.Property.withoutDoc := by
    rw [← c.constructorParams_withoutDocs, ← d.constructorParams_withoutDocs, h]
  replace hname : c.name = d.name := hname
  replace hbase : c.base = d.base := hbase
  have hleft := Go.unbroken_lines c.doc
  have hright := Go.unbroken_lines d.doc
  unfold Class.ofSchema
  generalize DocText.lines c.doc = left at hleft ⊢
  generalize DocText.lines d.doc = right at hright ⊢
  simp only [Logged.result_bind, hname]
  refine (alike_fields hproperties path (Place.property d.name)).bind fun ps qs _ _ hps => ?_
  have hall := (Outcome.forall₂_of_map_eq hmethods).imp fun m n hmn => alike_method hmn path d.name
  refine (Logged.alike_mapM hall).bind fun ms ns _ _ hms => ?_
  refine (alike_fields hparams path (Place.constructorParameter d.name)).bind
    fun ks ls _ _ hks => ?_
  exact .ok ⟨rfl, hbase.symm, hps, hms, hks, hleft, hright⟩

theorem alike_dataType {t u : Schema.ComplexType} (h : t.withoutDocs = u.withoutDocs)
    (path : Path) :
    Alike DataType.SameButDocs (DataType.ofSchema path t).result
      (DataType.ofSchema path u).result := by
  have hname : t.withoutDocs.name = u.withoutDocs.name := by rw [h]
  have hbase : t.withoutDocs.base = u.withoutDocs.base := by rw [h]
  have henum : t.withoutDocs.isEnum = u.withoutDocs.isEnum := by rw [h]
  have hvalues : t.withoutDocs.values = u.withoutDocs.values := by rw [h]
  have hproperties : t.withoutDocs.properties = u.withoutDocs.properties := by rw [h]
  replace hname : t.name = u.name := hname
  replace hbase : t.base = u.base := hbase
  replace henum : t.isEnum = u.isEnum := henum
  replace hvalues : t.values = u.values := hvalues
  have hshape : Alike Shape.SameButDocs (Shape.ofSchema path t).result
      (Shape.ofSchema path u).result := by
    unfold Shape.ofSchema
    rw [henum]
    split
    · rw [hvalues]
      exact .ok (.enum u.values)
    · simp only [Logged.result_bind, hname, hbase]
      refine (alike_fields hproperties path (Place.property u.name)).bind fun fs gs _ _ hfs => ?_
      exact .ok (.record u.base hfs)
  have hleft := Go.unbroken_lines t.doc
  have hright := Go.unbroken_lines u.doc
  unfold DataType.ofSchema
  generalize DocText.lines t.doc = left at hleft ⊢
  generalize DocText.lines u.doc = right at hright ⊢
  simp only [Logged.result_bind]
  refine hshape.bind fun a b _ _ hab => ?_
  exact .ok ⟨hname.symm, hab, hleft, hright⟩

theorem alike_module {s s' : Source} (h : s.withoutDocs = s'.withoutDocs) :
    Alike Module.SameButDocs (Module.ofSource s).result (Module.ofSource s').result := by
  obtain ⟨path, document⟩ := s
  obtain ⟨path', document'⟩ := s'
  obtain ⟨rfl, hdocument⟩ : path = path' ∧ document.withoutDocs = document'.withoutDocs := by
    simpa [Source.withoutDocs] using h
  have htypes : document.withoutDocs.complexTypes = document'.withoutDocs.complexTypes := by
    rw [hdocument]
  have hclasses : document.withoutDocs.remoteClasses = document'.withoutDocs.remoteClasses := by
    rw [hdocument]
  unfold Module.ofSource
  simp only [Logged.result_bind]
  have htypes' := (Outcome.forall₂_of_map_eq htypes).imp fun t u htu => alike_dataType htu path
  refine (Logged.alike_mapM htypes').bind fun ts us _ _ hts => ?_
  have hclasses' := (Outcome.forall₂_of_map_eq hclasses).imp fun c d hcd => alike_class hcd path
  refine (Logged.alike_mapM hclasses').bind fun cs ds _ _ hcs => ?_
  exact .ok ⟨rfl, hcs, hts⟩

end Interface

/-! ## Declarations -/

namespace Go

structure Field.SameButDoc (f g : Field) : Prop where
  bare : g.withoutDoc = f.withoutDoc
  left : Unbroken f.doc
  right : Unbroken g.doc

/-- Two declarations that add the same names to the package and have the same lines of code. -/
structure Decl.SameCode (d e : Decl) : Prop where
  names : e.packageNames = d.packageNames
  lines : codeLines e.print = codeLines d.print

theorem Decl.SameCode.refl (d : Decl) : d.SameCode d := ⟨rfl, rfl⟩

theorem Decl.sameCode_struct {doc doc' : List String} {name : String} {fs gs : List Field}
    (hdoc : Unbroken doc) (hdoc' : Unbroken doc') (h : List.Forall₂ Field.SameButDoc fs gs) :
    (Decl.type ⟨doc, name, .struct fs⟩).SameCode (.type ⟨doc', name, .struct gs⟩) := by
  refine ⟨rfl, ?_⟩
  show codeLines (TypeDecl.print _) = codeLines (TypeDecl.print _)
  cases h with
  | nil => rw [TypeDecl.codeLines_print hdoc', TypeDecl.codeLines_print hdoc]
  | @cons f g fs gs hfg hrest =>
    have hall := List.Forall₂.cons hfg hrest
    have hleft : ∀ x ∈ f :: fs, Unbroken x.doc := by
      intro x hx
      obtain ⟨y, -, hxy⟩ := Outcome.exists_of_mem_left hall hx
      exact hxy.left
    have hright : ∀ y ∈ g :: gs, Unbroken y.doc := by
      intro y hy
      obtain ⟨x, -, hxy⟩ := Outcome.exists_of_mem_right hall hy
      exact hxy.right
    have hlines : ((g :: gs).flatMap fun x => codeLines x.withoutDoc.print)
        = (f :: fs).flatMap fun x => codeLines x.withoutDoc.print :=
      Outcome.flatMap_eq_of_forall₂ hall fun x y hxy => by rw [hxy.bare]
    rw [TypeDecl.codeLines_print_struct hdoc' hright, TypeDecl.codeLines_print_struct hdoc hleft,
      hlines]

theorem Decl.sameCode_func {f g : Func} (h : { g with doc := [] } = ({ f with doc := [] } : Func))
    (hf : Unbroken f.doc) (hg : Unbroken g.doc) : (Decl.func f).SameCode (.func g) := by
  constructor
  · show (Decl.func { g with doc := [] }).packageNames
      = (Decl.func { f with doc := [] }).packageNames
    rw [h]
  · show codeLines g.print = codeLines f.print
    rw [Func.codeLines_print hg, Func.codeLines_print hf, h]

end Go

/-! ## Units -/

namespace Binding

open Interface (Field.SameButDoc)

def Method.withoutDoc (m : Method) : Method := { m with doc := [] }

structure Method.SameButDoc (m n : Method) : Prop where
  bare : n.withoutDoc = m.withoutDoc
  left : Unbroken m.doc
  right : Unbroken n.doc

namespace Method.SameButDoc

variable {m n : Method}

theorem goName_eq (h : m.SameButDoc n) : n.goName = m.goName := by
  show n.withoutDoc.goName = m.withoutDoc.goName
  rw [h.bare]

theorem signature_eq (h : m.SameButDoc n) (code : CodeSettings) :
    n.signature code = m.signature code := by
  show n.withoutDoc.signature code = m.withoutDoc.signature code
  rw [h.bare]

theorem packages_eq (h : m.SameButDoc n) (style : OptionalStyle) :
    n.packages style = m.packages style := by
  show n.withoutDoc.packages style = m.withoutDoc.packages style
  rw [h.bare]

theorem sameCode_stub (h : m.SameButDoc n) (code : CodeSettings) (owner : String) :
    (Go.Decl.func (m.stub code owner)).SameCode (.func (n.stub code owner)) := by
  refine Go.Decl.sameCode_func ?_ h.left h.right
  show n.withoutDoc.stub code owner = m.withoutDoc.stub code owner
  rw [h.bare]

end Method.SameButDoc

structure CodeUnit.SameCode (u v : CodeUnit) : Prop where
  name : v.name = u.name
  imports : v.imports = u.imports
  decls : List.Forall₂ Go.Decl.SameCode u.decls v.decls

theorem CodeUnit.SameCode.packageNames_eq {u v : CodeUnit} (h : u.SameCode v) :
    v.packageNames = u.packageNames := by
  unfold packageNames
  rw [h.name, Outcome.flatMap_eq_of_forall₂ h.decls fun _ _ hde => hde.names]

structure ModuleUnits.SameCode (u v : ModuleUnits) : Prop where
  classes : List.Forall₂ CodeUnit.SameCode u.classes v.classes
  types : List.Forall₂ CodeUnit.SameCode u.types v.types

variable (registry : Registry)

theorem alike_propertyField (style : OptionalStyle) (owner : String) {f g : Interface.Field}
    (h : f.SameButDoc g) :
    Alike Go.Field.SameButDoc (propertyField registry style owner f)
      (propertyField registry style owner g) := by
  unfold propertyField
  rw [h.name, h.type]
  refine .bind_same fun type => ?_
  exact .ok ⟨rfl, h.left, h.right⟩

/-- The names of fields are not documentation. -/
theorem filterMap_name_eq {fs gs : List Go.Field} (h : List.Forall₂ Go.Field.SameButDoc fs gs) :
    gs.filterMap Go.Field.name = fs.filterMap Go.Field.name := by
  induction h with
  | nil => rfl
  | @cons f g fs gs hfg _ ih =>
    have hname : g.withoutDoc.name = f.withoutDoc.name := by rw [hfg.bare]
    replace hname : g.name = f.name := hname
    rw [List.filterMap_cons, List.filterMap_cons, hname, ih]

theorem alike_method (owner : String) {m n : Interface.Method} (h : m.SameButDocs n) :
    Alike Method.SameButDoc (Method.ofInterface registry owner m)
      (Method.ofInterface registry owner n) := by
  have hparams : (n.params.mapM fun f => Param.ofField registry owner m.name f)
      = m.params.mapM fun f => Param.ofField registry owner m.name f := by
    refine (Outcome.mapM_congr_of_forall₂ (h.params.imp fun f g hfg => ?_)).symm
    rw [Param.ofField, Param.ofField, hfg.name, hfg.type]
  have hresult : ∀ place, Method.resolveResult registry place n.result
      = Method.resolveResult registry place m.result := by
    intro place
    have htype := h.result
    cases hm : m.result with
    | none =>
      rw [hm, Option.map_none, Option.map_eq_none_iff] at htype
      rw [htype]
    | some r =>
      rw [hm, Option.map_some, Option.map_eq_some_iff] at htype
      obtain ⟨q, hq, hqr⟩ := htype
      rw [hq, Method.resolveResult, Method.resolveResult, hqr]
  unfold Method.ofInterface
  rw [h.name, hparams]
  refine .bind_same fun params => ?_
  refine .bind_same fun _ => ?_
  rw [hresult]
  refine .bind_same fun result => ?_
  exact .ok ⟨rfl, h.left, h.right⟩

theorem alike_enumDecls {t u : Interface.DataType} (h : t.SameButDocs u) (values : List String) :
    Alike (List.Forall₂ Go.Decl.SameCode) (enumDecls t values) (enumDecls u values) := by
  unfold enumDecls
  rw [h.name]
  refine .bind_same fun _ => ?_
  refine .ok (.cons ⟨rfl, ?_⟩ (List.forall₂_same.2 fun d _ => Go.Decl.SameCode.refl d))
  show codeLines (Go.TypeDecl.print _) = codeLines (Go.TypeDecl.print _)
  rw [Go.TypeDecl.codeLines_print h.right, Go.TypeDecl.codeLines_print h.left]

theorem alike_propertyFields (style : OptionalStyle) (owner : String) {fs gs : List Interface.Field}
    (h : List.Forall₂ Field.SameButDoc fs gs) :
    Alike (List.Forall₂ Go.Field.SameButDoc)
      (fs.mapM fun f => propertyField registry style owner f)
      (gs.mapM fun g => propertyField registry style owner g) :=
  Alike.mapM (h.imp fun _ _ hfg => alike_propertyField registry style owner hfg)

theorem alike_recordDecls (style : OptionalStyle) {t u : Interface.DataType} (h : t.SameButDocs u)
    (base : Option String) {fs gs : List Interface.Field}
    (hfields : List.Forall₂ Field.SameButDoc fs gs) :
    Alike (List.Forall₂ Go.Decl.SameCode) (recordDecls registry style t base fs)
      (recordDecls registry style u base gs) := by
  unfold recordDecls
  rw [h.name]
  refine (alike_propertyFields registry style t.name hfields).bind fun own own' _ _ hown => ?_
  rw [filterMap_name_eq hown]
  refine .bind_same fun _ => ?_
  refine .ok (.cons (Go.Decl.sameCode_struct h.left h.right ?_) .nil)
  refine List.rel_append (List.forall₂_same.2 fun f hf => ?_) hown
  obtain ⟨b, -, rfl⟩ := List.mem_map.1 hf
  exact ⟨rfl, Go.unbroken_nil, Go.unbroken_nil⟩

theorem alike_typeUnit (code : CodeSettings) {t u : Interface.DataType} (h : t.SameButDocs u) :
    Alike CodeUnit.SameCode (typeUnit registry code t) (typeUnit registry code u) := by
  have hunit : ∀ ds es, List.Forall₂ Go.Decl.SameCode ds es →
      CodeUnit.SameCode ⟨t.name, ds, []⟩ ⟨u.name, es, []⟩ :=
    fun ds es hdecls => ⟨h.name, rfl, hdecls⟩
  have hshape := h.shape
  unfold typeUnit
  revert hshape
  generalize t.shape = a
  generalize u.shape = b
  rintro (values | ⟨base, hfields⟩)
  · exact (alike_enumDecls h values).bind fun ds es _ _ hds => .ok (hunit ds es hds)
  · exact (alike_recordDecls registry code.optionalStyle h base hfields).bind
      fun ds es _ _ hds => .ok (hunit ds es hds)

theorem forall₂_classDecls (code : CodeSettings) {c d : Interface.Class} (h : c.SameButDocs d)
    {ms ns : List Method} {fs gs : List Go.Field} (hmethods : List.Forall₂ Method.SameButDoc ms ns)
    (hfields : List.Forall₂ Go.Field.SameButDoc fs gs) (seeds : List Seed) :
    List.Forall₂ Go.Decl.SameCode (classDecls code c ms fs seeds)
      (classDecls code d ns gs seeds) := by
  have hsignatures : ns.map (fun n => n.signature code) = ms.map fun m => m.signature code := by
    rw [← List.forall₂_eq_eq_eq, List.forall₂_map_left_iff, List.forall₂_map_right_iff]
    exact hmethods.flip.imp fun n m hmn => hmn.signature_eq code
  have hcapability : capabilityDecl code d ns = capabilityDecl code c ms := by
    rw [capabilityDecl, capabilityDecl, h.name, h.base, hsignatures]
  have hhead : (classHead c.base).SameButDoc (classHead c.base) := by
    cases c.base with
    | none => exact ⟨rfl, Go.unbroken_nil, Go.unbroken_nil⟩
    | some base => exact ⟨rfl, Go.unbroken_nil, Go.unbroken_nil⟩
  unfold classDecls classStruct
  rw [hcapability, h.name, h.base]
  refine List.rel_append (List.rel_append ?_ ?_) ?_
  · exact List.forall₂_same.2 fun e _ => Go.Decl.SameCode.refl e
  · refine .cons ?_ (.cons (Go.Decl.SameCode.refl _) .nil)
    exact Go.Decl.sameCode_struct h.left h.right (.cons hhead hfields)
  · rw [List.forall₂_map_left_iff, List.forall₂_map_right_iff]
    exact hmethods.imp fun m n hmn => hmn.sameCode_stub code c.name

theorem alike_classUnit (code : CodeSettings) {c d : Interface.Class} (h : c.SameButDocs d) :
    Alike CodeUnit.SameCode (classUnit registry code c) (classUnit registry code d) := by
  have hseeds : (d.constructorParams.mapM fun f => Seed.ofField registry c.name f)
      = c.constructorParams.mapM fun f => Seed.ofField registry c.name f := by
    refine (Outcome.mapM_congr_of_forall₂ (h.constructorParams.imp fun f g hfg => ?_)).symm
    rw [Seed.ofField, Seed.ofField, hfg.name, hfg.type, hfg.default]
  unfold classUnit
  rw [h.name, h.base, hseeds]
  have hmethods := h.methods.imp fun m n hmn => alike_method registry c.name hmn
  refine (Alike.mapM hmethods).bind fun ms ns _ _ hms => ?_
  refine (alike_propertyFields registry code.optionalStyle c.name h.properties).bind
    fun fs gs _ _ hfs => ?_
  have hnames : ns.map Method.goName = ms.map Method.goName := by
    rw [← List.forall₂_eq_eq_eq, List.forall₂_map_left_iff, List.forall₂_map_right_iff]
    exact hms.flip.imp fun n m hmn => hmn.goName_eq
  rw [filterMap_name_eq hfs, hnames]
  refine .bind_same fun _ => ?_
  refine .bind_same fun seeds => ?_
  refine .ok ⟨rfl, ?_, forall₂_classDecls code h hms hfs seeds⟩
  show classImports code ns seeds = classImports code ms seeds
  rw [classImports, classImports,
    Outcome.flatMap_eq_of_forall₂ hms fun m n hmn => hmn.packages_eq code.optionalStyle]

/-- Which data types count goes by their names and positions. -/
theorem sameButDocs_ownedTypes {m n : Interface.Module} (h : m.SameButDocs n) :
    List.Forall₂ Interface.DataType.SameButDocs (ownedTypes registry m)
      (ownedTypes registry n) := by
  unfold ownedTypes
  rw [h.source]
  -- the positions count on from wherever the list begins
  have htypes := h.types
  generalize m.types = ts at htypes ⊢
  generalize n.types = us at htypes ⊢
  generalize 0 = k
  induction htypes generalizing k with
  | nil => exact .nil
  | @cons t u ts us htu _ ih =>
    simp only [List.zipIdx_cons, List.filter_cons, htu.name]
    split
    · exact .cons htu (ih (k + 1))
    · exact ih (k + 1)

theorem alike_moduleUnits (code : CodeSettings) {m n : Interface.Module} (h : m.SameButDocs n) :
    Alike ModuleUnits.SameCode (ModuleUnits.ofModule registry code m)
      (ModuleUnits.ofModule registry code n) := by
  unfold ModuleUnits.ofModule
  have htypes := (sameButDocs_ownedTypes registry h).imp fun t u htu =>
    alike_typeUnit registry code htu
  refine (Alike.mapM htypes).bind fun ts us _ _ hts => ?_
  have hclasses := h.classes.imp fun c d hcd => alike_classUnit registry code hcd
  refine (Alike.mapM hclasses).bind fun cs ds _ _ hcs => ?_
  exact .ok ⟨hcs, hts⟩

theorem ensurePackageNamesUnique_congr {us vs : List ModuleUnits}
    (h : List.Forall₂ ModuleUnits.SameCode us vs) :
    ensurePackageNamesUnique vs = ensurePackageNamesUnique us := by
  have hnames : (vs.flatMap fun v => v.types ++ v.classes).flatMap CodeUnit.packageNames
      = (us.flatMap fun u => u.types ++ u.classes).flatMap CodeUnit.packageNames := by
    rw [List.flatMap_assoc, List.flatMap_assoc]
    refine Outcome.flatMap_eq_of_forall₂ h fun u v huv => ?_
    exact Outcome.flatMap_eq_of_forall₂ (List.rel_append huv.types huv.classes)
      fun _ _ hunit => hunit.packageNames_eq
  simp only [ensurePackageNamesUnique, hnames]

end Binding

/-! ## Files -/

structure OutputFile.SameCode (f g : OutputFile) : Prop where
  path : g.path = f.path
  source : g.source = f.source
  lines : codeLines g.contents = codeLines f.contents

namespace Output

open Binding (CodeUnit ModuleUnits)

theorem sameCode_outputFile (s : Settings) (source : Path) (name : String) {us vs : List CodeUnit}
    (h : List.Forall₂ CodeUnit.SameCode us vs) :
    (outputFile s source name us).SameCode (outputFile s source name vs) := by
  refine ⟨rfl, rfl, ?_⟩
  have hhead : (fileOf s.packageName source vs).printHead
      = (fileOf s.packageName source us).printHead := by
    unfold fileOf
    rw [Outcome.flatMap_eq_of_forall₂ h fun _ _ huv => huv.imports]
    rfl
  have hdecls : (vs.flatMap CodeUnit.decls).flatMap (fun d => codeLines d.print)
      = (us.flatMap CodeUnit.decls).flatMap fun d => codeLines d.print := by
    rw [List.flatMap_assoc, List.flatMap_assoc]
    refine Outcome.flatMap_eq_of_forall₂ h fun u v huv => ?_
    exact Outcome.flatMap_eq_of_forall₂ huv.decls fun _ _ hde => hde.lines
  show codeLines (fileOf s.packageName source vs).print
    = codeLines (fileOf s.packageName source us).print
  rw [Go.File.codeLines_print, Go.File.codeLines_print, hhead]
  exact congrArg _ hdecls

theorem forall₂_ofModule (s : Settings) (source : Path) {u v : ModuleUnits} (h : u.SameCode v) :
    List.Forall₂ OutputFile.SameCode (ofModule s source u) (ofModule s source v) := by
  have hclasses := sameCode_outputFile s source (stem source s.code.schemaSuffix) h.classes
  have htypes := sameCode_outputFile s source
    (stem source s.code.schemaSuffix ++ "_" ++ s.code.typesSuffix) h.types
  have hempty : v.types.isEmpty = u.types.isEmpty := by
    rw [← Bool.coe_iff_coe, List.isEmpty_iff_length_eq_zero, List.isEmpty_iff_length_eq_zero,
      h.types.length_eq]
  refine .cons hclasses ?_
  rw [hempty]
  split
  · exact .nil
  · exact .cons htypes .nil

theorem forall₂_files (s : Settings) {ms ns : List Interface.Module} {us vs : List ModuleUnits}
    (hmodules : List.Forall₂ Interface.Module.SameButDocs ms ns)
    (hunits : List.Forall₂ ModuleUnits.SameCode us vs) :
    List.Forall₂ OutputFile.SameCode
      ((ms.zip us).flatMap fun (m, u) => ofModule s m.source u)
      ((ns.zip vs).flatMap fun (n, v) => ofModule s n.source v) := by
  induction hmodules generalizing us vs with
  | nil => exact .nil
  | @cons m n ms ns hmn _ ih =>
    cases hunits with
    | nil => exact .nil
    | @cons u v us vs huv hrest =>
      simp only [List.zip_cons_cons, List.flatMap_cons, hmn.source]
      exact List.rel_append (forall₂_ofModule s m.source huv) (ih hrest)

/-- The file without its contents. -/
def blank (f : OutputFile) : OutputFile := { f with contents := "" }

theorem firstCollision_blank (earlier files : List OutputFile) :
    firstCollision (earlier.map blank) (files.map blank)
      = (firstCollision earlier files).map (Prod.map blank blank) := by
  induction files generalizing earlier with
  | nil => rfl
  | cons file files ih =>
    have hfind : (earlier.map blank).find? (fun e => e.path.same (blank file).path)
        = (earlier.find? fun e => e.path.same file.path).map blank := List.find?_map
    rw [List.map_cons, firstCollision, firstCollision, hfind]
    cases earlier.find? fun e => e.path.same file.path with
    | none => exact ih (file :: earlier)
    | some first => rfl

/-- A collision is between paths, and is reported with paths. -/
theorem checkCollisions_blank (files : List OutputFile) :
    checkCollisions (files.map blank) = checkCollisions files := by
  have hfirst : firstCollision [] (files.map blank) = _ := firstCollision_blank [] files
  unfold checkCollisions
  rw [hfirst]
  cases firstCollision [] files with
  | none => rfl
  | some collision => rfl

theorem checkCollisions_congr {fs gs : List OutputFile}
    (h : List.Forall₂ OutputFile.SameCode fs gs) : checkCollisions gs = checkCollisions fs := by
  have hblank : gs.map blank = fs.map blank := by
    rw [← List.forall₂_eq_eq_eq, List.forall₂_map_left_iff, List.forall₂_map_right_iff]
    refine h.flip.imp fun g f hfg => ?_
    rw [blank, blank, hfg.path, hfg.source]
  rw [← checkCollisions_blank gs, ← checkCollisions_blank fs, hblank]

end Output

/-! ## Whole runs -/

namespace Compilation

/-- **Documentation never changes code.** Sources that differ in documentation only fail alike, or
    give files that go by the same paths and have the same lines of code. -/
theorem same_code_whatever_documentation {sources sources' : List Source} (s : Settings)
    (h : sources.map Source.withoutDocs = sources'.map Source.withoutDocs) :
    Alike (List.Forall₂ OutputFile.SameCode) (compileSources s sources).result
      (compileSources s sources').result := by
  have hbuild : Registry.build s.code.allowOverrides sources'
      = Registry.build s.code.allowOverrides sources := by
    rw [← Registry.build_withoutDocs, ← Registry.build_withoutDocs _ sources, h]
  unfold compileSources
  rw [hbuild]
  simp only [Logged.result_bind]
  refine .bind_same fun registry => ?_
  refine .bind_same fun _ => ?_
  have hmodules := (Outcome.forall₂_of_map_eq h).imp fun a b hab => Interface.alike_module hab
  refine (Logged.alike_mapM hmodules).bind fun ms ns _ _ hms => ?_
  have hunits := hms.imp fun m n hmn => Binding.alike_moduleUnits registry s.code hmn
  refine (Alike.mapM hunits).bind fun us vs _ _ hus => ?_
  rw [Binding.ensurePackageNamesUnique_congr hus]
  refine .bind_same fun _ => ?_
  have hfiles : List.Forall₂ OutputFile.SameCode
      ((ms.zip us).flatMap fun (m, u) => Output.ofModule s m.source u)
      ((ns.zip vs).flatMap fun (n, v) => Output.ofModule s n.source v) :=
    Output.forall₂_files s hms hus
  rw [Output.checkCollisions_congr hfiles]
  refine .bind_same fun _ => ?_
  exact .ok hfiles

/-- A source of one class and one data type, with the same text wherever documentation may stand. -/
def switchSource (doc : String) : Source where
  path := ⟨"switch.kmd.json"⟩
  document := {
    remoteClasses := [
      { name := "Switch", doc, baseText := none
        properties := [⟨"level", "Level", doc, false, none⟩]
        methods := [
          { name := "turn", doc, params := [⟨"to", "Level", doc, false, none⟩]
            result := some ⟨"Level", doc⟩ }]
        events := [], constructor := some ⟨[⟨"at", "int", doc, true, none⟩]⟩ }]
    complexTypes := [
      { format := none, name := "Level", doc, values := [], baseText := none
        properties := [⟨"height", "int", doc, false, none⟩] }] }

/-- Text that would be code on a line of its own. -/
def codeText : String := "On.\n\nfunc init() {}\r\n*/ \x7d"

theorem switch_same_code_with_code_in_comments :
    ∃ files files', (compileSources .default [switchSource ""]).result = .ok files ∧
      (compileSources .default [switchSource codeText]).result = .ok files' ∧
      files ≠ files' ∧ List.Forall₂ OutputFile.SameCode files files' := by
  have hdiffer : (compileSources .default [switchSource ""]).result.toOption
      ≠ (compileSources .default [switchSource codeText]).result.toOption := by decide +kernel
  obtain ⟨files, hfiles⟩ :
      ∃ files, (compileSources .default [switchSource ""]).result = .ok files :=
    Outcome.exists_eq_ok_of_isOk (by decide +kernel)
  have halike := same_code_whatever_documentation .default
    (show [switchSource ""].map Source.withoutDocs = [switchSource codeText].map Source.withoutDocs
      from rfl)
  rw [hfiles] at halike hdiffer
  generalize (compileSources .default [switchSource codeText]).result = made at halike hdiffer ⊢
  obtain _ | hsame := halike
  refine ⟨files, _, hfiles, rfl, ?_, hsame⟩
  rintro rfl
  exact hdiffer rfl

end Compilation

end GoBindings
