import GoBindings.Proofs.Declarations
import GoBindings.Proofs.Stages

set_option autoImplicit false

/-! # What code takes from a registry

Code for a declaration looks names up for one thing only: the kind of what they stand for. The
checks of the hierarchy also look at bases, and go through the names in order. So registries that
know the same kinds give the same code, or the same failure (the `_congr` lemmas). A registry that
has grown gives the code of the smaller one wherever that gives any (the `_mono` lemmas); a failure
may go away when a registry grows, so nothing is said of it. -/

namespace GoBindings

/-! ## Comparing registries -/

namespace Registry

/-- The kind of what a name stands for. -/
def kindOf? (r : Registry) (name : String) : Option Kind := (r.find? name).map Entry.kind

theorem kindOf?_congr {r r' : Registry} (h : r'.find? = r.find?) : r'.kindOf? = r.kindOf? := by
  funext name
  rw [kindOf?, kindOf?, h]

/-- Whatever `r` says of a name, `r'` says too. -/
def Within (r r' : Registry) : Prop :=
  ∀ name entry, r.find? name = some entry → r'.find? name = some entry

/-! ## Changed entries -/

/-- The registry with every entry changed, under the same names. -/
def mapEntries (f : Entry → Entry) (r : Registry) : Registry :=
  ⟨r.entries.map fun e => (e.1, f e.2)⟩

variable (f : Entry → Entry)

theorem find?_mapEntries (r : Registry) (name : String) :
    (r.mapEntries f).find? name = (r.find? name).map f := by
  unfold mapEntries find?
  rw [List.find?_map, Option.map_map, Option.map_map]
  rfl

theorem mapEntries_set (r : Registry) (name : String) (entry : Entry) :
    (r.set name entry).mapEntries f = (r.mapEntries f).set name (f entry) := by
  unfold mapEntries set
  rw [List.map_cons, List.filter_map]
  rfl

theorem names_mapEntries (r : Registry) : (r.mapEntries f).names = r.names := by
  unfold names mapEntries
  rw [List.map_map]
  rfl

/-! ## The hierarchy -/

theorem comesBack_congr {r r' : Registry} (h : r'.baseOf? = r.baseOf?) (visited : List String)
    (name : String) : r'.comesBack visited name = r.comesBack visited name := by
  fun_induction comesBack r visited name with
  | case1 visited name hnone =>
    unfold comesBack
    split
    · rfl
    · next hsome => exact absurd (hsome.symm.trans (congrFun h name)) (by simp [hnone])
  | case2 visited name base hbase hv =>
    unfold comesBack
    split
    · next hnone => exact absurd (hnone.symm.trans (congrFun h name)) (by simp [hbase])
    · rw [dif_pos hv]
  | case3 visited name base hbase hv ih =>
    rw [comesBack]
    split
    · next hnone => exact absurd (hnone.symm.trans (congrFun h name)) (by simp [hbase])
    · next base' hbase' =>
      rw [h, hbase] at hbase'
      obtain rfl := Option.some.inj hbase'
      rw [dif_neg hv, ih]

/-- What the check of a base looks at. -/
theorem checkBase_eq (r : Registry) (name : String) :
    r.checkBase name = match r.baseOf? name with
      | none => .ok ()
      | some base =>
        if r.kindOf? name = some .enum || r.kindOf? base = r.kindOf? name then .ok ()
        else .error (.unresolved base (.base name)) := by
  unfold checkBase baseOf? kindOf?
  cases r.find? name with
  | none => rfl
  | some entry =>
    obtain ⟨kind, origin, index, base⟩ := entry
    cases base <;> simp

/-- The checks of the hierarchy look at names, kinds and bases only. -/
theorem checkHierarchy_congr {r r' : Registry} (hnames : r'.names = r.names)
    (hkind : r'.kindOf? = r.kindOf?) (hbase : r'.baseOf? = r.baseOf?) :
    r'.checkHierarchy = r.checkHierarchy := by
  have hcheck : r'.checkBase = r.checkBase := by
    funext name
    rw [checkBase_eq, checkBase_eq, hkind, hbase]
  have hends : r'.checkEnds = r.checkEnds := by
    funext name
    rw [checkEnds, checkEnds, comesBack_congr hbase]
  rw [checkHierarchy, checkHierarchy, hnames, hcheck, hends]

end Registry

namespace Binding

variable {r r' : Registry}

/-! ## The same kinds -/

theorem Resolved.ofType_congr (h : r'.kindOf? = r.kindOf?) : ofType r' = ofType r := by
  funext place e
  induction e with
  | primitive p => rfl
  | named name =>
    have hname : (r'.find? name).map Entry.kind = (r.find? name).map Entry.kind := congrFun h name
    simp only [ofType, Registry.resolve]
    -- a resolved name keeps nothing of its entry but the kind
    cases hr : r.find? name with
    | none =>
      rw [hr, Option.map_none, Option.map_eq_none_iff] at hname
      rw [hname]
    | some entry =>
      rw [hr, Option.map_some, Option.map_eq_some_iff] at hname
      obtain ⟨entry', hr', hkind⟩ := hname
      rw [hr']
      show Except.ok (ofEntry name entry') = Except.ok (ofEntry name entry)
      rw [ofEntry, ofEntry, hkind]
  | collection item ih => simp only [ofType, ih]
  | optional inner ih => simp only [ofType, ih]

theorem Method.ofInterface_congr (h : r'.kindOf? = r.kindOf?) :
    ofInterface r' = ofInterface r := by
  have hresult : resolveResult r' = resolveResult r := by
    funext place result
    cases result with
    | none => rfl
    | some result => simp only [resolveResult, Resolved.ofType_congr h]
  funext owner m
  simp only [ofInterface, Param.ofField, hresult, Resolved.ofType_congr h]

theorem typeUnit_congr (h : r'.kindOf? = r.kindOf?) : typeUnit r' = typeUnit r := by
  funext code t
  simp only [typeUnit, recordDecls, propertyField, Resolved.ofType_congr h]

theorem classUnit_congr (h : r'.kindOf? = r.kindOf?) : classUnit r' = classUnit r := by
  funext code c
  simp only [classUnit, propertyField, Seed.ofField, Method.ofInterface_congr h,
    Resolved.ofType_congr h]

/-- Modules have the same code if their classes are the same, and the data types that count. -/
theorem ModuleUnits.ofModule_congr_owned (h : r'.kindOf? = r.kindOf?) {m m' : Interface.Module}
    (howned : ownedTypes r' m' = ownedTypes r m) (hclasses : m'.classes = m.classes)
    (code : CodeSettings) : ofModule r' code m' = ofModule r code m := by
  simp only [ofModule, howned, hclasses, typeUnit_congr h, classUnit_congr h]

/-- Registries that find the same give the same code. -/
theorem ModuleUnits.ofModule_congr (h : r'.find? = r.find?) : ofModule r' = ofModule r := by
  funext code m
  have howned : ownedTypes r' m = ownedTypes r m := by simp only [ownedTypes, isOwner, h]
  exact ofModule_congr_owned (Registry.kindOf?_congr h) howned rfl code

/-! ## A registry that grows -/

theorem Resolved.ofType_mono (h : r.Within r') {place : Place} {e : TypeExpr} {t : Resolved}
    (ht : ofType r place e = .ok t) : ofType r' place e = .ok t := by
  induction e generalizing t with
  | primitive p => exact ht
  | named name =>
    obtain ⟨entry, hentry, rfl⟩ := Outcome.map_eq_ok_iff.1 ht
    have hfind := h name entry (Registry.resolve_eq_ok_iff.1 hentry)
    exact Outcome.map_eq_ok_iff.2 ⟨entry, Registry.resolve_eq_ok_iff.2 hfind, rfl⟩
  | collection item ih =>
    obtain ⟨i, hi, rfl⟩ := Outcome.map_eq_ok_iff.1 ht
    exact Outcome.map_eq_ok_iff.2 ⟨i, ih hi, rfl⟩
  | optional inner ih =>
    obtain ⟨i, hi, rfl⟩ := Outcome.map_eq_ok_iff.1 ht
    exact Outcome.map_eq_ok_iff.2 ⟨i, ih hi, rfl⟩

/-- Whatever is made of a resolved type is made of it still. -/
theorem Resolved.ofType_bind_mono (h : r.Within r') {α : Type} {place : Place} {e : TypeExpr}
    {next : Resolved → Except Failure α} {a : α} (ha : (ofType r place e >>= next) = .ok a) :
    (ofType r' place e >>= next) = .ok a := by
  obtain ⟨t, ht, ha⟩ := Outcome.bind_eq_ok_iff.1 ha
  exact Outcome.bind_eq_ok_iff.2 ⟨t, ofType_mono h ht, ha⟩

theorem Method.ofInterface_mono (h : r.Within r') {owner : String} {m : Interface.Method}
    {k : Method} (hk : ofInterface r owner m = .ok k) : ofInterface r' owner m = .ok k := by
  have hresolve : ∀ {place : Place} {written : Option Interface.Result}
      {result : Option Resolved}, resolveResult r place written = .ok result →
        resolveResult r' place written = .ok result := by
    intro place written result hresult
    cases written with
    | none => exact hresult
    | some written =>
      obtain ⟨t, ht, rfl⟩ := Outcome.map_eq_ok_iff.1 hresult
      exact Outcome.map_eq_ok_iff.2 ⟨t, Resolved.ofType_mono h ht, rfl⟩
  obtain ⟨params, result, hparams, hunique, hresult, rfl⟩ := ofInterface_eq_ok_iff.1 hk
  refine ofInterface_eq_ok_iff.2 ⟨params, result, ?_, hunique, hresolve hresult, rfl⟩
  exact hparams.imp fun _ _ hp => Resolved.ofType_bind_mono h hp

theorem typeUnit_mono (h : r.Within r') {code : CodeSettings} {t : Interface.DataType}
    {u : CodeUnit} (hu : typeUnit r code t = .ok u) : typeUnit r' code t = .ok u := by
  obtain ⟨decls, rfl, hdecls⟩ := typeUnit_eq_ok_iff.1 hu
  refine typeUnit_eq_ok_iff.2 ⟨decls, rfl, ?_⟩
  cases hshape : t.shape with
  | enum values =>
    rw [hshape] at hdecls
    exact hdecls
  | record base fields =>
    rw [hshape] at hdecls
    obtain ⟨own, hown, hunique, rfl⟩ := recordDecls_eq_ok_iff.1 hdecls
    refine recordDecls_eq_ok_iff.2 ⟨own, ?_, hunique, rfl⟩
    exact hown.imp fun _ _ hg => Resolved.ofType_bind_mono h hg

theorem classUnit_mono (h : r.Within r') {code : CodeSettings} {c : Interface.Class}
    {u : CodeUnit} (hu : classUnit r code c = .ok u) : classUnit r' code c = .ok u := by
  obtain ⟨methods, properties, seeds, hmethods, hproperties, hunique, hseeds, rfl⟩ :=
    classUnit_eq_ok_iff.1 hu
  refine classUnit_eq_ok_iff.2 ⟨methods, properties, seeds, ?_, ?_, hunique, ?_, rfl⟩
  · exact hmethods.imp fun _ _ hm => Method.ofInterface_mono h hm
  · exact hproperties.imp fun _ _ hf => Resolved.ofType_bind_mono h hf
  · exact hseeds.imp fun _ _ hs => Resolved.ofType_bind_mono h hs

/-- A module keeps its code when a registry grows that knows all its data types. -/
theorem ModuleUnits.ofModule_mono (h : r.Within r') {code : CodeSettings} {m : Interface.Module}
    {u : ModuleUnits} (hknown : ∀ t ∈ m.types, ∃ entry, r.find? t.name = some entry)
    (hu : ofModule r code m = .ok u) : ofModule r' code m = .ok u := by
  have howned : ownedTypes r' m = ownedTypes r m := by
    unfold ownedTypes
    refine congrArg (List.map Prod.fst) (List.filter_congr fun p hp => ?_)
    obtain ⟨entry, hentry⟩ := hknown p.1 (List.fst_mem_of_mem_zipIdx hp)
    simp only [isOwner, hentry, h _ _ hentry]
  obtain ⟨htypes, hclasses⟩ := ofModule_eq_ok_iff.1 hu
  rw [← howned] at htypes
  refine ofModule_eq_ok_iff.2 ⟨?_, ?_⟩
  · exact htypes.imp fun _ _ hv => typeUnit_mono h hv
  · exact hclasses.imp fun _ _ hv => classUnit_mono h hv

end Binding

end GoBindings
