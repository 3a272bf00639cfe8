import GoBindings.Binding.CodeUnit
import GoBindings.Interface.OfSchema
import GoBindings.Output
import GoBindings.Proofs.Outcome
import Mathlib.Data.List.Nodup

set_option autoImplicit false

/-! # What each stage makes

One lemma for each stage of a run says when it succeeds and with what. Later proofs cite these and
never open a stage. Two checks end a run: for names of the package and for paths of files. Both look
for the first clash and report it; both succeed exactly if there is none, so their order of search
does not matter. -/

namespace GoBindings

open Outcome

/-! ## From descriptions to modules -/

namespace Interface

theorem DataType.name_of_ofSchema {path : Path} {t : Schema.ComplexType} {d : DataType}
    (h : (DataType.ofSchema path t).result = .ok d) : d.name = t.name := by
  unfold DataType.ofSchema at h
  rw [Logged.result_bind, bind_eq_ok_iff] at h
  obtain ⟨shape, -, hd⟩ := h
  cases hd
  rfl

/-- A data type is an enumeration exactly if its description is; a record keeps its base. -/
theorem DataType.shape_of_ofSchema {path : Path} {t : Schema.ComplexType} {d : DataType}
    (h : (DataType.ofSchema path t).result = .ok d) :
    (t.isEnum = true ∧ d.shape = .enum t.values) ∨
      (t.isEnum = false ∧ ∃ fields, d.shape = .record t.base fields) := by
  unfold DataType.ofSchema at h
  rw [Logged.result_bind, bind_eq_ok_iff] at h
  obtain ⟨shape, hshape, hd⟩ := h
  cases hd
  unfold Shape.ofSchema at hshape
  cases ht : t.isEnum with
  | true =>
    rw [ht] at hshape
    cases hshape
    exact Or.inl ⟨rfl, rfl⟩
  | false =>
    rw [ht, if_neg Bool.false_ne_true, Logged.result_bind, bind_eq_ok_iff] at hshape
    obtain ⟨fields, -, hshape⟩ := hshape
    cases hshape
    exact Or.inr ⟨rfl, fields, rfl⟩

theorem Class.name_base_of_ofSchema {path : Path} {c : Schema.RemoteClass} {k : Class}
    (h : (Class.ofSchema path c).result = .ok k) : k.name = c.name ∧ k.base = c.base := by
  unfold Class.ofSchema at h
  simp only [Logged.result_bind, bind_eq_ok_iff] at h
  obtain ⟨properties, -, methods, -, params, -, hk⟩ := h
  cases hk
  exact ⟨rfl, rfl⟩

/-- A module has the data types and classes of its source, one for one and in order. -/
theorem Module.result_ofSource_eq_ok_iff {s : Source} {m : Module} :
    (Module.ofSource s).result = .ok m ↔
      m.source = s.path ∧
      List.Forall₂ (fun t d => (DataType.ofSchema s.path t).result = .ok d)
        s.document.complexTypes m.types ∧
      List.Forall₂ (fun c k => (Class.ofSchema s.path c).result = .ok k)
        s.document.remoteClasses m.classes := by
  unfold Module.ofSource
  simp only [Logged.result_bind, bind_eq_ok_iff, Logged.result_mapM_eq_ok_iff, Logged.result_pure,
    Except.ok.injEq]
  constructor
  · rintro ⟨types, htypes, classes, hclasses, rfl⟩
    exact ⟨rfl, htypes, hclasses⟩
  · rintro ⟨hsource, htypes, hclasses⟩
    exact ⟨m.types, htypes, m.classes, hclasses, by rw [← hsource]⟩

end Interface

/-! ## From modules to units -/

namespace Binding

theorem ensureUnique_eq_ok_iff {unit : String} {kind : NameKind} {names : List String} :
    ensureUnique unit kind names = .ok () ↔ names.Nodup := by
  have hfirst := NameSet.firstRepeated_eq_none_iff [] names
  rw [and_iff_left (List.disjoint_nil_left _)] at hfirst
  rw [← hfirst]
  unfold ensureUnique
  cases NameSet.firstRepeated [] names with
  | none => simp
  | some name => simp

theorem Method.ofInterface_eq_ok_iff {registry : Registry} {owner : String} {m : Interface.Method}
    {k : Method} :
    Method.ofInterface registry owner m = .ok k ↔
      ∃ params result,
        List.Forall₂ (fun f p => Param.ofField registry owner m.name f = .ok p) m.params params ∧
        ensureUnique s!"{owner}.{m.name}" .parameter (params.map Param.goName) = .ok () ∧
        resolveResult registry (.result owner m.name) m.result = .ok result ∧
        k = {
          goName := Identifier.exported m.name, wireName := m.name, doc := docLines m, params,
          result } := by
  unfold Method.ofInterface
  simp only [bind_eq_ok_iff, Unique.exists_iff, PUnit.default_eq_unit, mapM_eq_ok_iff,
    pure_eq_ok_iff]
  constructor
  · rintro ⟨params, hparams, hunique, result, hresult, rfl⟩
    exact ⟨params, result, hparams, hunique, hresult, rfl⟩
  · rintro ⟨params, result, hparams, hunique, hresult, rfl⟩
    exact ⟨params, hparams, hunique, result, hresult, rfl⟩

theorem enumDecls_eq_ok_iff {t : Interface.DataType} {values : List String}
    {decls : List Go.Decl} :
    enumDecls t values = .ok decls ↔
      ensureUnique t.name .enumConstant ((enumConstants t.name values).map Go.Const.name)
        = .ok () ∧
      decls = .type { doc := t.doc, name := t.name, body := .like .string } ::
        .func (stringerFunc t.name) ::
        if (enumConstants t.name values).isEmpty then []
        else [.consts (enumConstants t.name values)] := by
  unfold enumDecls
  rw [check_bind_eq_ok_iff, pure_eq_ok_iff]
  exact and_congr_right fun _ => eq_comm

theorem recordDecls_eq_ok_iff {registry : Registry} {style : OptionalStyle}
    {t : Interface.DataType} {base : Option String} {fields : List Interface.Field}
    {decls : List Go.Decl} :
    recordDecls registry style t base fields = .ok decls ↔
      ∃ own, List.Forall₂ (fun f g => propertyField registry style t.name f = .ok g) fields own ∧
        ensureUnique t.name .field (base.toList ++ own.filterMap Go.Field.name) = .ok () ∧
        decls = [.type {
          doc := t.doc, name := t.name, body := .struct (base.toList.map embedded ++ own) }] := by
  unfold recordDecls
  simp only [bind_eq_ok_iff, Unique.exists_iff, PUnit.default_eq_unit, mapM_eq_ok_iff,
    pure_eq_ok_iff]
  exact exists_congr fun own => and_congr_right fun _ => and_congr_right fun _ => eq_comm

theorem typeUnit_eq_ok_iff {registry : Registry} {code : CodeSettings} {t : Interface.DataType}
    {u : CodeUnit} :
    typeUnit registry code t = .ok u ↔
      ∃ decls, u = { name := t.name, decls, imports := [] } ∧
        match t.shape with
        | .enum values => enumDecls t values = .ok decls
        | .record base fields =>
          recordDecls registry code.optionalStyle t base fields = .ok decls := by
  have hunit : ∀ made : Except Failure (List Go.Decl),
      (made >>= fun decls => pure { name := t.name, decls, imports := [] }) = .ok u ↔
        ∃ decls, u = { name := t.name, decls, imports := [] } ∧ made = .ok decls := by
    intro made
    rw [bind_eq_ok_iff]
    exact exists_congr fun decls => by rw [pure_eq_ok_iff, and_comm, eq_comm]
  unfold typeUnit
  cases t.shape with
  | enum values => exact hunit (enumDecls t values)
  | record base fields => exact hunit (recordDecls registry code.optionalStyle t base fields)

theorem classUnit_eq_ok_iff {registry : Registry} {code : CodeSettings} {c : Interface.Class}
    {u : CodeUnit} :
    classUnit registry code c = .ok u ↔
      ∃ methods properties seeds,
        List.Forall₂ (fun m n => Method.ofInterface registry c.name m = .ok n) c.methods methods ∧
        List.Forall₂ (fun f g => propertyField registry code.optionalStyle c.name f = .ok g)
          c.properties properties ∧
        ensureUnique c.name .member (c.base.toList ++ properties.filterMap Go.Field.name ++
          methods.map Method.goName) = .ok () ∧
        List.Forall₂ (fun f g => Seed.ofField registry c.name f = .ok g)
          c.constructorParams seeds ∧
        u = {
          name := c.name
          decls := classDecls code c methods properties seeds
          imports := classImports code methods seeds } := by
  unfold classUnit
  simp only [bind_eq_ok_iff, Unique.exists_iff, PUnit.default_eq_unit, mapM_eq_ok_iff,
    pure_eq_ok_iff]
  constructor
  · rintro ⟨methods, hm, properties, hp, hunique, seeds, hs, rfl⟩
    exact ⟨methods, properties, seeds, hm, hp, hunique, hs, rfl⟩
  · rintro ⟨methods, properties, seeds, hm, hp, hunique, hs, rfl⟩
    exact ⟨methods, hm, properties, hp, hunique, seeds, hs, rfl⟩

theorem func_mem_classDecls_iff {code : CodeSettings} {c : Interface.Class} {methods : List Method}
    {properties : List Go.Field} {seeds : List Seed} {f : Go.Func} :
    Go.Decl.func f ∈ classDecls code c methods properties seeds ↔
      f = constructorFunc code c.name seeds ∨ ∃ m ∈ methods, m.stub code c.name = f := by
  unfold classDecls
  by_cases hroot : c.name = code.rootClass <;> simp [hroot]

theorem ModuleUnits.ofModule_eq_ok_iff {registry : Registry} {code : CodeSettings}
    {m : Interface.Module} {u : ModuleUnits} :
    ModuleUnits.ofModule registry code m = .ok u ↔
      List.Forall₂ (fun t v => typeUnit registry code t = .ok v) (ownedTypes registry m) u.types ∧
      List.Forall₂ (fun c v => classUnit registry code c = .ok v) m.classes u.classes := by
  unfold ModuleUnits.ofModule
  simp only [bind_eq_ok_iff, mapM_eq_ok_iff, pure_eq_ok_iff]
  constructor
  · rintro ⟨types, htypes, classes, hclasses, rfl⟩
    exact ⟨htypes, hclasses⟩
  · rintro ⟨htypes, hclasses⟩
    exact ⟨u.types, htypes, u.classes, hclasses, rfl⟩

/-! ## One package -/

/-- Every name that units add to the package, in order. -/
def packageNames (modules : List ModuleUnits) : List String :=
  modules.flatMap fun m => (m.types ++ m.classes).flatMap fun u =>
    u.decls.flatMap Go.Decl.packageNames

/-- The search goes on with each new name among those declared, so the list and what was declared
    before it stay apart. -/
theorem firstClash_eq_none_iff (declared names : List (String × String)) :
    firstClash declared names = none ↔
      (names.map Prod.fst).Nodup ∧ (declared.map Prod.fst).Disjoint (names.map Prod.fst) := by
  induction names generalizing declared with
  | nil => simp [firstClash]
  | cons n names ih =>
    obtain ⟨name, unit⟩ := n
    rw [List.map_cons, List.nodup_cons, List.disjoint_cons_right]
    unfold firstClash
    cases hfirst : declared.lookup name with
    | some first =>
      have hmem : name ∈ declared.map Prod.fst := by
        by_contra hmem
        rw [lookup_eq_none_iff_not_mem.2 hmem] at hfirst
        exact absurd hfirst (by simp)
      simp [hmem]
    | none =>
      have hmem : name ∉ declared.map Prod.fst := lookup_eq_none_iff_not_mem.1 hfirst
      simp only [ih, List.map_cons, List.disjoint_cons_left]
      tauto

theorem ensurePackageNamesUnique_eq_ok_iff {modules : List ModuleUnits} :
    ensurePackageNamesUnique modules = .ok () ↔ (packageNames modules).Nodup := by
  have hnames : ((modules.flatMap fun m => m.types ++ m.classes).flatMap
      CodeUnit.packageNames).map Prod.fst = packageNames modules := by
    simp only [packageNames, List.map_flatMap, List.flatMap_assoc, CodeUnit.packageNames,
      List.map_map, Function.comp_def, List.map_id']
  have hclash := firstClash_eq_none_iff []
    ((modules.flatMap fun m => m.types ++ m.classes).flatMap CodeUnit.packageNames)
  rw [hnames, List.map_nil, and_iff_left (List.disjoint_nil_left _)] at hclash
  rw [← hclash]
  simp only [ensurePackageNamesUnique]
  cases firstClash [] ((modules.flatMap fun m => m.types ++ m.classes).flatMap
      CodeUnit.packageNames) with
  | none => simp
  | some clash => simp

end Binding

/-! ## Files -/

namespace Output

/-- What decides whether two files are one: the components of their paths. -/
def places (files : List OutputFile) : List (List Path.Component) :=
  files.map fun f => f.path.components

theorem firstCollision_eq_none_iff (earlier files : List OutputFile) :
    firstCollision earlier files = none ↔
      (places files).Nodup ∧ (places earlier).Disjoint (places files) := by
  induction files generalizing earlier with
  | nil => simp [firstCollision, places]
  | cons file files ih =>
    show _ ↔ (file.path.components :: places files).Nodup ∧
      (places earlier).Disjoint (file.path.components :: places files)
    rw [List.nodup_cons, List.disjoint_cons_right]
    unfold firstCollision
    cases hfound : earlier.find? fun e => e.path.same file.path with
    | some first =>
      have hsame := List.find?_some hfound
      have hmem : file.path.components ∈ places earlier :=
        List.mem_map.2 ⟨first, List.mem_of_find?_eq_some hfound, eq_of_beq hsame⟩
      simp [hmem]
    | none =>
      have hmem : file.path.components ∉ places earlier := by
        intro hmem
        obtain ⟨e, he, heq⟩ := List.mem_map.1 hmem
        exact List.find?_eq_none.1 hfound e he (beq_iff_eq.2 heq)
      have hplaces : places (file :: earlier) = file.path.components :: places earlier := rfl
      simp only [ih, hplaces, List.disjoint_cons_left]
      tauto

theorem checkCollisions_eq_ok_iff {files : List OutputFile} :
    checkCollisions files = .ok () ↔ (places files).Nodup := by
  have hfirst := firstCollision_eq_none_iff [] files
  have hnil : places [] = [] := rfl
  rw [hnil, and_iff_left (List.disjoint_nil_left _)] at hfirst
  rw [← hfirst]
  unfold checkCollisions
  cases firstCollision [] files with
  | none => simp
  | some collision => simp

end Output

end GoBindings
